import Mustache.Fault
import Mustache.Token.Piece

set_option autoImplicit false

namespace Mustache

structure Mismatch where
  cause : ParseCause
  offset : Nat
  deriving DecidableEq, Repr

def openAfter (opened : List String) : Piece → Except Mismatch (List String)
  | .text _ _ => .ok opened
  | .tag kind value start _ _ =>
      if kind.opensBody then .ok (value :: opened)
      else if kind = .closeTag then
        match opened with
        | [] => .error ⟨.unopenedSection value, start⟩
        | innermost :: outer =>
            if innermost = value then .ok outer
            else .error ⟨.mismatchedClose innermost value, start⟩
      else .ok opened

def openAfterAll (opened : List String) : List Piece → Except Mismatch (List String)
  | [] => .ok opened
  | piece :: rest =>
      match openAfter opened piece with
      | .error mismatch => .error mismatch
      | .ok opened => openAfterAll opened rest

end Mustache

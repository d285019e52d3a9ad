import Mustache.Token.Stream

set_option autoImplicit false

namespace Mustache

inductive Node where
  | leaf (token : Token)
  | block (opener : Token) (children : List Node) (closeStart : Nat)

def squash : List Token → List Token
  | [] => []
  | token :: rest => squashFrom token rest
where
  squashFrom (last : Token) : List Token → List Token
    | [] => [last]
    | token :: rest =>
        if last.kind = .text ∧ token.kind = .text then
          squashFrom { last with value := last.value ++ token.value, stop := token.stop } rest
        else last :: squashFrom token rest

structure OpenBlock where
  opener : Token
  before : List Node

def nestFrom (opened : List OpenBlock) (body : List Node) : List Token → Option (List Node)
  -- Sections that are never closed are dropped with their bodies.
  | [] => some ((opened.getLast?.map (·.before)).getD body).reverse
  | token :: rest =>
      if token.kind.opensBody then nestFrom (⟨token, body⟩ :: opened) [] rest
      else if token.kind = .closeTag then
        match opened with
        | [] => none
        | innermost :: outer =>
            nestFrom outer
              (.block innermost.opener body.reverse token.start :: innermost.before) rest
      else nestFrom opened (.leaf token :: body) rest

def nest (tokens : List Token) : Option (List Node) :=
  nestFrom [] [] tokens

def parseTemplate (source : String) (pair : Delimiters) (name : Option String := none) :
    Except Fault (List Node) :=
  match tokenize source pair name with
  | .error fault => .error fault
  | .ok tokens => .ok ((nest (squash tokens)).getD [])

def Node.token : Node → Token
  | leaf token => token
  | block opener _ _ => opener

end Mustache

import Mustache.Text.Case

set_option autoImplicit false

namespace Mustache

def entity? : Char → Option String
  | '&' => some "&amp;"
  | '<' => some "&lt;"
  | '>' => some "&gt;"
  | '"' => some "&quot;"
  | '\'' => some "&#39;"
  | '/' => some "&#x2F;"
  | '\x60' => some "&#x60;"
  | '=' => some "&#x3D;"
  | _ => none

def escapeChar (c : Char) : List Char :=
  match entity? c with
  | some entity => entity.toList
  | none => [c]

def escapeHtml (text : String) : String :=
  String.ofList (text.toList.flatMap escapeChar)

inductive Escaper where
  | html
  | verbatim
  | upper
  | brackets
  deriving DecidableEq, Repr

def Escaper.escape : Escaper → String → String
  | html, text => escapeHtml text
  | verbatim, text => text
  | upper, text => upperCase text
  | brackets, text => "[" ++ text ++ "]"

end Mustache

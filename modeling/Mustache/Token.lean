import Mustache.Text.Quoted

set_option autoImplicit false

namespace Mustache

inductive Kind where
  | text
  | escaped
  | unescaped
  | sectionTag
  | invertedTag
  | closeTag
  | partialTag
  | comment
  | delimiterTag
  deriving DecidableEq, Repr

namespace Kind

def ofSigil : Char → Kind
  | '!' => comment
  | '#' => sectionTag
  | '&' => unescaped
  | '/' => closeTag
  | '=' => delimiterTag
  | '>' => partialTag
  | '^' => invertedTag
  | '{' => unescaped
  | _ => escaped

/-- The kind that a text names: the empty text, a sigil, or one of the two kinds without a sigil
by their words. -/
def ofText? (text : String) : Option Kind :=
  match text.toList with
  | [] => some escaped
  | [c] => if ofSigil c = escaped then none else some (ofSigil c)
  | _ => if text = "text" then some Kind.text else if text = "name" then some escaped else none

def label : Kind → String
  | text => "TEXT"
  | escaped => "NAME"
  | unescaped => "UNESCAPED"
  | sectionTag => "SECTION"
  | invertedTag => "INVERTED"
  | closeTag => "CLOSE"
  | partialTag => "PARTIAL"
  | comment => "COMMENT"
  | delimiterTag => "DELIMITER"

def opensBody : Kind → Bool
  | sectionTag | invertedTag => true
  | _ => false

def writesValue : Kind → Bool
  -- A value keeps its line from standing alone.
  | escaped | unescaped => true
  | _ => false

end Kind

/-- What a partial tag knows of the line it stands on: the text before it with every visible
character as a space, the number of tags before it, and whether any text before it was visible. -/
structure LineMark where
  indentation : String := ""
  tagIndex : Nat := 0
  hasText : Bool := false
  deriving DecidableEq, Repr

structure Token where
  kind : Kind
  value : String
  start : Nat
  stop : Nat
  mark : LineMark := {}
  deriving DecidableEq, Repr

namespace Token

def describe (token : Token) : String :=
  s!"Token({token.kind.label}, {quoted token.value}, {token.start}:{token.stop})"

end Token

end Mustache

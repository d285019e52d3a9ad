import Mustache.Token.Balance
import Mustache.Token.Line

set_option autoImplicit false

namespace Mustache

def showWords (words : List (List Char)) : String :=
  "[" ++ String.intercalate ", " (words.map fun word => quoted (String.ofList word)) ++ "]"

def parseFault (source : String) (name : Option String) (cause : ParseCause) (offset : Nat) :
    Fault :=
  .parse ⟨cause, offset, source, name⟩

/-- Faults are found in the order of the source: a close tag that does not fit comes before what
ended the scan, and sections left open come last. -/
def tokenize (source : String) (pair : Delimiters) (name : Option String := none) :
    Except Fault (List Token) :=
  let text := source.toList
  let found := scan pair text
  match openAfterAll [] found.pieces with
  | .error mismatch => .error (parseFault source name mismatch.cause mismatch.offset)
  | .ok opened =>
      match found.ending with
      | .unclosedTag => .error (parseFault source name .unclosedTag text.length)
      | .badDelimiters words => .error (.invalidTags (showWords words))
      | .complete _ =>
          match opened.reverse with
          | [] => .ok (settle {} found.pieces)
          | outermost :: inner =>
              .error (parseFault source name (.unclosedSections outermost inner) text.length)

end Mustache

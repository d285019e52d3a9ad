import Mustache.Token.Piece

set_option autoImplicit false

namespace Mustache

/-- What has been read of the current line. The tokens and the indentation are held last one first.
The line of the mark begins after a line feed of text, as the held tokens do. -/
structure LineState where
  held : List Token := []
  hasTag : Bool := false
  hasContent : Bool := false
  indentation : List Char := []
  tagIndex : Nat := 0
  hasText : Bool := false

namespace LineState

def mark (line : LineState) : LineMark :=
  ⟨String.ofList line.indentation.reverse, line.tagIndex, line.hasText⟩

def finish (line : LineState) : List Token :=
  if line.hasTag && !line.hasContent then
    line.held.reverse.filter fun token => token.kind ≠ .text
  else line.held.reverse

def addText (line : LineState) (start : Nat) (c : Char) : LineState :=
  let visible := !isBlank c
  { line with
    held := { kind := .text, value := String.singleton c, start, stop := start + 1 } :: line.held
    hasContent := line.hasContent || visible
    indentation := (if visible then ' ' else c) :: line.indentation
    hasText := line.hasText || visible }

def addTag (line : LineState) (kind : Kind) (value : String) (start stop : Nat) : LineState :=
  let mark := if kind = .partialTag then line.mark else {}
  { line with
    held := { kind, value, start, stop, mark } :: line.held
    hasTag := true
    hasContent := line.hasContent || kind.writesValue
    tagIndex := line.tagIndex + 1 }

def step (line : LineState) : Piece → List Token × LineState
  | .text start c =>
      let line := line.addText start c
      if c = '\n' then (line.finish, {}) else ([], line)
  | .tag kind value start stop _ => ([], line.addTag kind value start stop)

end LineState

def settle (line : LineState) : List Piece → List Token
  | [] => line.finish
  | piece :: rest => (line.step piece).1 ++ settle (line.step piece).2 rest

end Mustache

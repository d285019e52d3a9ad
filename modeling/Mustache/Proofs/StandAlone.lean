import Mathlib.Data.List.Flatten
import Mustache.Proofs.Reading

set_option autoImplicit false

namespace Mustache

namespace Piece

def isTag : Piece → Bool
  | text _ _ => false
  | tag _ _ _ _ _ => true

def endsLine : Piece → Bool
  | text _ c => c == '\n'
  | tag _ _ _ _ _ => false

def isVisible : Piece → Bool
  | text _ c => !isBlank c
  | tag _ _ _ _ _ => false

def indent? : Piece → Option Char
  | text _ c => some (if isBlank c then c else ' ')
  | tag _ _ _ _ _ => none

end Piece

def lineMark (line : List Piece) : LineMark where
  indentation := String.ofList (line.filterMap Piece.indent?)
  tagIndex := line.countP Piece.isTag
  hasText := line.any Piece.isVisible

def Piece.token (line : List Piece) : Piece → Token
  | text start c => { kind := .text, value := String.singleton c, start, stop := start + 1 }
  | tag kind value start stop _ =>
      { kind, value, start, stop, mark := if kind = .partialTag then lineMark line else {} }

/-- The raw stream of the pieces that follow others on their line: a token for every character of
text and for every tag. -/
def rawFrom (line : List Piece) : List Piece → List Token
  | [] => []
  | piece :: rest =>
      piece.token line :: rawFrom (if piece.endsLine then [] else line ++ [piece]) rest

def rawTokens (pieces : List Piece) : List Token :=
  rawFrom [] pieces

namespace Token

def isTag (token : Token) : Bool :=
  token.kind ≠ .text

def endsLine (token : Token) : Bool :=
  token.kind = .text ∧ token.value = "\n"

def isContent (token : Token) : Bool :=
  token.kind.writesValue || token.kind = .text ∧ ¬ token.value.toList.all isBlank

end Token

def cutAfterLines : List Token → List (List Token)
  | [] => [[]]
  | token :: rest =>
      if token.endsLine then [token] :: cutAfterLines rest
      else match cutAfterLines rest with
        | [] => [[token]]
        | line :: lines => (token :: line) :: lines

def standsAlone (line : List Token) : Bool :=
  line.any Token.isTag && !line.any Token.isContent

def stripLine (line : List Token) : List Token :=
  if standsAlone line then line.filter Token.isTag else line

theorem cutAfterLines_ne_nil (tokens : List Token) : cutAfterLines tokens ≠ [] := by
  cases tokens with
  | nil => simp [cutAfterLines]
  | cons token rest =>
    unfold cutAfterLines
    split
    · simp
    · split <;> simp

theorem cutAfterLines_of_open {line : List Token}
    (opened : ∀ token ∈ line, token.endsLine = false) : cutAfterLines line = [line] := by
  induction line with
  | nil => rfl
  | cons token rest ih =>
    have here := opened token (by simp)
    have later := ih fun token member => opened token (by simp [member])
    simp [cutAfterLines, here, later]

theorem cutAfterLines_append {line rest : List Token} {last : Token}
    (opened : ∀ token ∈ line, token.endsLine = false) (ends : last.endsLine = true) :
    cutAfterLines (line ++ last :: rest) = (line ++ [last]) :: cutAfterLines rest := by
  induction line with
  | nil => simp [cutAfterLines, ends]
  | cons token line ih =>
    have here := opened token (by simp)
    have later := ih fun token member => opened token (by simp [member])
    simp [cutAfterLines, here, later]

structure LineState.Holds (state : LineState) (line : List Piece) (tokens : List Token) : Prop where
  held : state.held = tokens.reverse
  hasTag : state.hasTag = tokens.any Token.isTag
  hasContent : state.hasContent = tokens.any Token.isContent
  indentation : state.indentation.reverse = line.filterMap Piece.indent?
  tagIndex : state.tagIndex = line.countP Piece.isTag
  hasText : state.hasText = line.any Piece.isVisible

namespace LineState.Holds

variable {state : LineState} {line : List Piece} {tokens : List Token}

theorem start : LineState.Holds {} [] [] := by
  constructor <;> rfl

theorem mark (holds : state.Holds line tokens) : state.mark = lineMark line := by
  simp [LineState.mark, lineMark, holds.indentation, holds.tagIndex, holds.hasText]

theorem finish (holds : state.Holds line tokens) : state.finish = stripLine tokens := by
  simp only [LineState.finish, stripLine, standsAlone, holds.held, holds.hasTag, holds.hasContent,
    List.reverse_reverse]
  rfl

theorem addText (holds : state.Holds line tokens) (start : Nat) (c : Char) :
    (state.addText start c).Holds (line ++ [.text start c])
      (tokens ++ [(Piece.text start c).token line]) := by
  constructor
  · simp [LineState.addText, Piece.token, holds.held]
  · simp [LineState.addText, Piece.token, holds.hasTag, Token.isTag]
  · simp [LineState.addText, Piece.token, holds.hasContent, Token.isContent, Kind.writesValue]
  · by_cases blank : isBlank c = true <;>
      simp [LineState.addText, Piece.indent?, holds.indentation, blank]
  · simp [LineState.addText, Piece.isTag, holds.tagIndex]
  · simp [LineState.addText, Piece.isVisible, holds.hasText]

theorem addTag (holds : state.Holds line tokens) {kind : Kind} (isTag : kind ≠ .text)
    (value : String) (start stop : Nat) (inForce : Delimiters) :
    (state.addTag kind value start stop).Holds (line ++ [.tag kind value start stop inForce])
      (tokens ++ [(Piece.tag kind value start stop inForce).token line]) := by
  constructor
  · simp [LineState.addTag, Piece.token, holds.held, holds.mark]
  · simp [LineState.addTag, Piece.token, Token.isTag, isTag]
  · simp [LineState.addTag, Piece.token, holds.hasContent, Token.isContent, isTag]
  · simp [LineState.addTag, Piece.indent?, holds.indentation]
  · simp [LineState.addTag, Piece.isTag, holds.tagIndex]
  · simp [LineState.addTag, Piece.isVisible, holds.hasText]

end LineState.Holds

theorem endsLine_token (line : List Piece) {piece : Piece} (proper : piece.Proper) :
    (piece.token line).endsLine = piece.endsLine := by
  cases piece with
  | text start c =>
    rw [Bool.eq_iff_iff]
    simp [Piece.token, Token.endsLine, Piece.endsLine, ← String.toList_inj]
  | tag kind value start stop inForce =>
    simp [Piece.token, Token.endsLine, Piece.endsLine, show kind ≠ .text from proper]

theorem settle_eq_stripped {state : LineState} {line pieces : List Piece} {tokens : List Token}
    (holds : state.Holds line tokens) (opened : ∀ token ∈ tokens, token.endsLine = false)
    (proper : ∀ piece ∈ pieces, piece.Proper) :
    settle state pieces = (cutAfterLines (tokens ++ rawFrom line pieces)).flatMap stripLine := by
  -- The pieces of the line that is being read are in `line`, their tokens in `tokens`.
  induction pieces generalizing state line tokens with
  | nil => simp [settle, rawFrom, cutAfterLines_of_open opened, holds.finish]
  | cons piece rest ih =>
    have properRest : ∀ piece ∈ rest, piece.Proper :=
      fun piece member => proper piece (by simp [member])
    have ends := endsLine_token line (proper piece (by simp))
    have onward {next : LineState} (goesOn : piece.endsLine = false)
        (after : next.Holds (line ++ [piece]) (tokens ++ [piece.token line])) :
        settle next rest =
          (cutAfterLines (tokens ++ rawFrom line (piece :: rest))).flatMap stripLine := by
      rw [ih after ?_ properRest, rawFrom]
      · simp [goesOn]
      · intro token member
        rcases List.mem_append.1 member with old | new
        · exact opened token old
        · rw [List.mem_singleton.1 new, ends, goesOn]
    cases piece with
    | tag kind value start stop inForce =>
      have isTag : kind ≠ .text := proper (.tag kind value start stop inForce) (by simp)
      simp only [settle, LineState.step, List.nil_append]
      exact onward rfl (holds.addTag isTag value start stop inForce)
    | text start c =>
      have after := holds.addText start c
      by_cases lineFeed : c = '\n'
      · -- The line is settled, and the next one begins with nothing held.
        have closes : (Piece.text start c).endsLine = true := by simp [Piece.endsLine, lineFeed]
        simp only [settle, LineState.step, lineFeed, if_true] at *
        rw [after.finish, ih .start (by simp) properRest, rawFrom, closes]
        rw [cutAfterLines_append opened (ends.trans closes)]
        simp
      · simp only [settle, LineState.step, lineFeed, if_false, List.nil_append]
        exact onward (by simp [Piece.endsLine, lineFeed]) after

theorem filter_isTag_stripLine (line : List Token) :
    (stripLine line).filter Token.isTag = line.filter Token.isTag := by
  unfold stripLine
  split <;> simp

theorem flatten_cutAfterLines (tokens : List Token) : (cutAfterLines tokens).flatten = tokens := by
  induction tokens with
  | nil => rfl
  | cons token rest ih =>
    unfold cutAfterLines
    split
    · simp [ih]
    · split
      next none => exact absurd none (cutAfterLines_ne_nil rest)
      next line lines cut =>
        rw [cut] at ih
        simpa using ih

theorem settle_eq_stripped_lines {pieces : List Piece} (proper : ∀ piece ∈ pieces, piece.Proper) :
    settle {} pieces = (cutAfterLines (rawTokens pieces)).flatMap stripLine := by
  simpa [rawTokens] using settle_eq_stripped LineState.Holds.start (by simp) proper

theorem filter_isTag_settle {pieces : List Piece} (proper : ∀ piece ∈ pieces, piece.Proper) :
    (settle {} pieces).filter Token.isTag = (rawTokens pieces).filter Token.isTag :=
  calc (settle {} pieces).filter Token.isTag
      = (cutAfterLines (rawTokens pieces)).flatMap
          fun line => (stripLine line).filter Token.isTag := by
        rw [settle_eq_stripped_lines proper, List.filter_flatMap]
    _ = (cutAfterLines (rawTokens pieces)).flatten.filter Token.isTag := by
        simp only [filter_isTag_stripLine, List.filter_flatten, List.flatMap_def]
    _ = (rawTokens pieces).filter Token.isTag := by
        rw [flatten_cutAfterLines]

theorem stripLine_sublist (line : List Token) : (stripLine line).Sublist line := by
  unfold stripLine
  split
  · exact List.filter_sublist
  · exact .refl line

theorem settle_sublist {pieces : List Piece} (proper : ∀ piece ∈ pieces, piece.Proper) :
    (settle {} pieces).Sublist (rawTokens pieces) := by
  rw [settle_eq_stripped_lines proper]
  have kept := List.Sublist.flatMap_right (cutAfterLines (rawTokens pieces)) (g := id)
    fun line _ => stripLine_sublist line
  rwa [List.flatMap_id, flatten_cutAfterLines] at kept

theorem exists_piece_of_mem_rawFrom {line pieces : List Piece} {token : Token}
    (member : token ∈ rawFrom line pieces) :
    ∃ piece ∈ pieces, ∃ ahead, token = piece.token ahead := by
  induction pieces generalizing line with
  | nil => cases member
  | cons piece rest ih =>
    rcases List.mem_cons.1 member with rfl | later
    · exact ⟨piece, List.mem_cons_self, line, rfl⟩
    · obtain ⟨other, isLater, found⟩ := ih later
      exact ⟨other, List.mem_cons_of_mem _ isLater, found⟩

theorem tokenize_strips_lines {source : String} {pair : Delimiters} {name : Option String}
    {tokens : List Token} (tokenized : tokenize source pair name = .ok tokens) :
    tokens = (cutAfterLines (rawTokens (scan pair source.toList).pieces)).flatMap stripLine ∧
      tokens.filter Token.isTag =
        (rawTokens (scan pair source.toList).pieces).filter Token.isTag := by
  obtain ⟨⟨inForce, ended⟩, -, rfl⟩ := tokenize_eq_ok_iff.1 tokenized
  have proper := (readsAll_scan ended).proper
  exact ⟨settle_eq_stripped_lines proper, filter_isTag_settle proper⟩

theorem tokenize_strips_lines_of_blank_section :
    ∃ tokens, tokenize " {{#a}} \n x{{/a}}" .standard none = .ok tokens ∧
      tokens = (cutAfterLines
        (rawTokens (scan .standard " {{#a}} \n x{{/a}}".toList).pieces)).flatMap stripLine ∧
      tokens.map Token.value = ["a", " ", "x", "a"] :=
  have tokenized : tokenize " {{#a}} \n x{{/a}}" .standard none = .ok
      [⟨.sectionTag, "a", 1, 7, {}⟩, ⟨.text, " ", 9, 10, {}⟩, ⟨.text, "x", 10, 11, {}⟩,
        ⟨.closeTag, "a", 11, 17, {}⟩] := rfl
  ⟨_, tokenized, (tokenize_strips_lines tokenized).1, rfl⟩

end Mustache

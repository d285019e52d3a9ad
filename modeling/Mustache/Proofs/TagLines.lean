import Mustache.Proofs.PlainText

set_option autoImplicit false

namespace Mustache

/-- A tag between two texts on a line. The tag is read back whatever follows it and leaves the
delimiters as they are; no tag begins in the texts. -/
structure TagLine (pair : Delimiters) where
  before : List Char
  tag : List Char
  kind : Kind
  value : String
  behind : List Char
  opened : pair.opening <+: tag
  read (rest : List Char) : readTag? pair (tag ++ rest) = some ⟨kind, value.toList, tag.length⟩
  keepsPair : kind ≠ .delimiterTag
  clearBefore : OnlyAtEnd pair.opening before
  clearBehind : NoTag pair (behind ++ ['\n'])
  oneLineBefore : '\n' ∉ before
  oneLineBehind : '\n' ∉ behind

section Texts

theorem onlyAtEnd_of_not_mem {c : Char} {word text : List Char} (absent : c ∉ text) :
    OnlyAtEnd (c :: word) text := by
  rintro k early ⟨more, occurs⟩
  apply absent
  obtain ⟨d, rest, left⟩ := List.exists_cons_of_ne_nil
    (show text.drop k ≠ [] by simpa using early)
  rw [List.drop_append_of_le_length (Nat.le_of_lt early), left] at occurs
  obtain ⟨rfl, -⟩ := List.cons.inj occurs
  exact List.mem_of_mem_drop (left ▸ List.mem_cons_self)

theorem textPieces_append (start : Nat) (text more : List Char) :
    textPieces start (text ++ more) =
      textPieces start text ++ textPieces (start + text.length) more := by
  induction text generalizing start with
  | nil => rfl
  | cons c rest ih =>
    rw [List.cons_append, textPieces, textPieces, ih, List.length_cons, List.cons_append,
      Nat.add_assoc, Nat.add_comm 1]

theorem lineMark_textPieces {text : List Char} (allBlank : ∀ c ∈ text, isBlank c = true)
    (start : Nat) : lineMark (textPieces start text) = ⟨String.ofList text, 0, false⟩ := by
  induction text generalizing start with
  | nil => rfl
  | cons c rest ih =>
    rw [List.forall_mem_cons] at allBlank
    have later := ih allBlank.2 (start + 1)
    simp only [lineMark, LineMark.mk.injEq, String.ofList_inj] at later
    simp [lineMark, textPieces, Piece.indent?, Piece.isTag, Piece.isVisible, allBlank.1, later]

theorem isTag_of_mem_textTokens {line : List Piece} {start : Nat} {text : List Char} {token : Token}
    (member : token ∈ rawFrom line (textPieces start text)) : token.isTag = false := by
  simp [Token.isTag, (rawFrom_textPieces text line start).1 token member]

end Texts

namespace TagLine

variable {pair : Delimiters} (line : TagLine pair)

def text : List Char :=
  line.before ++ (line.tag ++ (line.behind ++ ['\n']))

def start : Nat := line.before.length

def stop : Nat := line.start + line.tag.length

def front : List Piece :=
  textPieces 0 line.before ++ [.tag line.kind line.value line.start line.stop pair]

def pieces : List Piece :=
  line.front ++ textPieces line.stop (line.behind ++ ['\n'])

def token : Token where
  kind := line.kind
  value := line.value
  start := line.start
  stop := line.stop
  mark := if line.kind = .partialTag then lineMark (textPieces 0 line.before) else {}

def tokens : List Token :=
  rawFrom [] (textPieces 0 line.before) ++
    line.token :: rawFrom line.front (textPieces line.stop (line.behind ++ ['\n']))

def IsBlank : Prop :=
  line.kind.writesValue = false ∧ (∀ c ∈ line.before, isBlank c = true) ∧
    ∀ c ∈ line.behind, isBlank c = true

theorem readsAll :
    ReadsAll ⟨pair, 0, line.text⟩ line.pieces ⟨pair, line.text.length, []⟩ := by
  have before := readsAll_textPieces line.clearBefore
    (.inr (line.opened.trans (List.prefix_append _ (line.behind ++ ['\n'])))) 0
  have tag := readsAll_tag line.opened (line.read (line.behind ++ ['\n'])) line.keepsPair line.start
  have behind := readsAll_of_noTag line.clearBehind line.stop
  have length : line.stop + (line.behind ++ ['\n']).length = line.text.length := by
    simp only [text, stop, start, List.length_append]
    omega
  rw [Nat.zero_add] at before
  rw [length] at behind
  exact readsAll_append.2 ⟨_, readsAll_append.2 ⟨_, before, tag⟩, behind⟩

theorem scan : scan pair line.text = ⟨line.pieces, .complete pair⟩ := by
  simpa [Reader.scan, Mustache.scan, scanFrom, Scan.prependAll] using line.readsAll.scan

theorem isTag_token : line.token.isTag = true := by
  have proper : line.kind ≠ .text := proper_of_readTag? (line.read [])
  exact decide_eq_true proper

theorem endsLine_front : ∀ piece ∈ line.front, piece.endsLine = false := by
  rw [front, List.forall_mem_append, List.forall_mem_singleton]
  exact ⟨endsLine_textPieces line.oneLineBefore, rfl⟩

theorem rawTokens_pieces : rawTokens line.pieces = line.tokens := by
  have token : (Piece.tag line.kind line.value line.start line.stop pair).token
      (textPieces 0 line.before) = line.token := rfl
  rw [rawTokens, pieces, rawFrom_append line.endsLine_front, List.nil_append, front,
    rawFrom_append (endsLine_textPieces line.oneLineBefore), List.nil_append, rawFrom, rawFrom,
    token, tokens, front, List.append_assoc, List.singleton_append]

theorem settle_pieces : settle {} line.pieces = stripLine line.tokens := by
  -- The line feed is the last token of the line, and the only one that ends it.
  let body : List Piece := line.front ++ textPieces line.stop line.behind
  let lineFeed : Piece := .text (line.stop + line.behind.length) '\n'
  have whole : line.pieces = body ++ [lineFeed] := by
    rw [pieces, textPieces_append, ← List.append_assoc]
    rfl
  have proper := line.readsAll.proper
  have properBody : ∀ piece ∈ body, piece.Proper :=
    fun piece member => proper piece (by simp [whole, member])
  have opened : ∀ piece ∈ body, piece.endsLine = false :=
    List.forall_mem_append.2 ⟨line.endsLine_front, endsLine_textPieces line.oneLineBehind⟩
  have cut : cutAfterLines (rawTokens line.pieces) = [rawTokens line.pieces, []] := by
    rw [rawTokens, whole, rawFrom_append opened]
    exact cutAfterLines_append (endsLine_rawFrom properBody opened []) rfl
  rw [settle_eq_stripped_lines proper, cut, rawTokens_pieces]
  exact List.append_nil _

theorem any_isContent_tokens :
    line.tokens.any Token.isContent = (!line.before.all isBlank || line.kind.writesValue ||
      !line.behind.all isBlank) := by
  have tag : line.token.isContent = line.kind.writesValue := by
    have proper : line.kind ≠ .text := proper_of_readTag? (line.read [])
    simp [Token.isContent, token, proper]
  rw [tokens, List.any_append, List.any_cons, any_isContent_textPieces line.oneLineBefore, tag,
    textPieces_append, rawFrom_append (endsLine_textPieces line.oneLineBehind), List.any_append,
    any_isContent_textPieces line.oneLineBehind]
  have lineFeed (start : Nat) (ahead : List Piece) :
      (rawFrom ahead (textPieces start ['\n'])).any Token.isContent = false := by
    simp [textPieces, rawFrom, Piece.token, Token.isContent, Kind.writesValue]
  rw [lineFeed, Bool.or_false, Bool.or_assoc]

theorem filter_isTag_tokens : line.tokens.filter Token.isTag = [line.token] := by
  have none {line : List Piece} {start : Nat} {text : List Char} :
      (rawFrom line (textPieces start text)).filter Token.isTag = [] := by
    simpa using fun token member => isTag_of_mem_textTokens member
  rw [tokens, List.filter_append, List.filter_cons_of_pos line.isTag_token, none, none]
  rfl

theorem settle_of_isBlank (blank : line.IsBlank) : settle {} line.pieces = [line.token] := by
  obtain ⟨writes, before, behind⟩ := blank
  have isTag : line.tokens.any Token.isTag = true :=
    List.any_eq_true.2 ⟨line.token, by simp [tokens], line.isTag_token⟩
  have alone : standsAlone line.tokens = true := by
    rw [standsAlone, isTag, any_isContent_tokens, writes, List.all_eq_true.2 before,
      List.all_eq_true.2 behind]
    rfl
  rw [settle_pieces, stripLine, if_pos alone, filter_isTag_tokens]

theorem settle_of_not_isBlank (blank : ¬ line.IsBlank) : settle {} line.pieces = line.tokens := by
  have kept : standsAlone line.tokens = false := by
    have content : line.tokens.any Token.isContent = true := by
      rw [any_isContent_tokens, ← Bool.not_eq_false]
      intro none
      apply blank
      simpa [IsBlank, and_comm, and_assoc] using none
    rw [standsAlone, content, Bool.not_true, Bool.and_false]
  rw [settle_pieces, stripLine, kept]
  rfl

theorem parseTemplate_of_nests {nodes : List Node}
    (nests : Nests (squash (settle {} line.pieces)) nodes) :
    parseTemplate (String.ofList line.text) pair = .ok nodes := by
  rw [parseTemplate_eq_ok_iff_nests, String.toList_ofList, line.scan]
  exact ⟨⟨pair, rfl⟩, nests⟩

variable (opens : line.kind.opensBody = false) (closes : line.kind ≠ .closeTag)

include opens closes

theorem parseTemplate_of_isBlank (blank : line.IsBlank) :
    parseTemplate (String.ofList line.text) pair = .ok [.leaf line.token] := by
  apply line.parseTemplate_of_nests
  rw [line.settle_of_isBlank blank]
  exact .leaf opens closes .nil

theorem parseTemplate_of_not_isBlank (blank : ¬ line.IsBlank) :
    ∃ before behind,
      parseTemplate (String.ofList line.text) pair =
        .ok (before ++ .leaf line.token :: behind) ∧
      ∀ (job : Job) (inner : Job.Inner),
        job.renderNodes inner before = pure (String.ofList line.before) ∧
        job.renderNodes inner behind = pure (String.ofList (line.behind ++ ['\n'])) := by
  have notText : line.token.kind ≠ .text := of_decide_eq_true line.isTag_token
  obtain ⟨before, nestsBefore, textBefore⟩ := exists_nests_textPieces [] 0 line.before
  obtain ⟨behind, nestsBehind, textBehind⟩ :=
    exists_nests_textPieces line.front line.stop (line.behind ++ ['\n'])
  refine ⟨before, behind, ?_, fun job inner => ⟨textBefore job inner, textBehind job inner⟩⟩
  apply line.parseTemplate_of_nests
  rw [line.settle_of_not_isBlank blank, tokens, squash_append_tag notText]
  exact nestsBefore.append (.leaf opens closes nestsBehind)

end TagLine

end Mustache

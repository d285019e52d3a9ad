import Mathlib.Data.List.Chain
import Mustache.Proofs.SectionText

set_option autoImplicit false

namespace Mustache

section Slices

variable {source : String} {start middle stop : Nat}

theorem textBetween_append (front : start ≤ middle) (back : middle ≤ stop) :
    textBetween source start middle ++ textBetween source middle stop =
      textBetween source start stop := by
  rw [← String.toList_inj, String.toList_append]
  simp only [toList_textBetween]
  rw [show stop - start = (middle - start) + (stop - middle) by omega, List.take_add,
    List.drop_drop, show start + (middle - start) = middle by omega]

theorem textBetween_singleton {c : Char} (here : source.toList[start]? = some c) :
    textBetween source start (start + 1) = String.singleton c := by
  rw [← String.toList_inj, toList_textBetween, Nat.add_sub_cancel_left,
    List.drop_eq_getElem?_toList_append, here]
  simp

end Slices

/-- Tokens that cover an interval of offsets without gaps. -/
inductive Tiles : Nat → List Token → Nat → Prop
  | nil (offset : Nat) : Tiles offset [] offset
  | cons {token : Token} {rest : List Token} {start stop : Nat} (starts : token.start = start)
      (nonempty : start < token.stop) :
      Tiles token.stop rest stop → Tiles start (token :: rest) stop

namespace Tiles

variable {start stop : Nat} {tokens : List Token}

theorem bounds (tiles : Tiles start tokens stop) :
    start ≤ stop ∧ ∀ token ∈ tokens,
      start ≤ token.start ∧ token.start < token.stop ∧ token.stop ≤ stop := by
  induction tiles with
  | nil offset => simp
  | cons starts nonempty _ ih =>
    refine ⟨by omega, List.forall_mem_cons.2 ⟨by omega, fun token member => ?_⟩⟩
    have bounds := ih.2 token member
    omega

theorem ordered (tiles : Tiles start tokens stop) :
    tokens.Pairwise fun first second => first.stop ≤ second.start := by
  induction tiles with
  | nil offset => exact .nil
  | cons starts nonempty tiles ih =>
    exact List.pairwise_cons.2 ⟨fun token member => (tiles.bounds.2 token member).1, ih⟩

theorem covers (tiles : Tiles start tokens stop) {offset : Nat} (behind : start ≤ offset)
    (before : offset < stop) : ∃ token ∈ tokens, token.start ≤ offset ∧ offset < token.stop := by
  induction tiles with
  | nil => omega
  | @cons token rest start stop starts nonempty tiles ih =>
    by_cases here : offset < token.stop
    · exact ⟨token, List.mem_cons_self, by omega, here⟩
    · obtain ⟨later, member, covered⟩ := ih (by omega) before
      exact ⟨later, List.mem_cons_of_mem _ member, covered⟩

theorem split {front back : List Token} (tiles : Tiles start (front ++ back) stop) :
    ∃ middle, Tiles start front middle ∧ Tiles middle back stop := by
  induction front generalizing start with
  | nil => exact ⟨start, .nil start, tiles⟩
  | cons token front ih =>
    cases tiles with
    | cons starts nonempty tiles =>
      obtain ⟨middle, first, second⟩ := ih tiles
      exact ⟨middle, .cons starts nonempty first, second⟩

theorem start_of_head? (tiles : Tiles start tokens stop) {token : Token}
    (isFirst : tokens.head? = some token) : token.start = start := by
  cases tiles with
  | nil => contradiction
  | cons starts =>
    obtain rfl := Option.some.inj isFirst
    exact starts

theorem joined (tiles : Tiles start tokens stop) :
    tokens.IsChain fun first second => first.stop = second.start := by
  induction tiles with
  | nil offset => exact .nil
  | cons starts nonempty tiles ih =>
    exact ih.cons fun next isNext => (tiles.start_of_head? isNext).symm

theorem stop_of_getLast? (tiles : Tiles start tokens stop) {token : Token}
    (isLast : tokens.getLast? = some token) : token.stop = stop := by
  induction tiles with
  | nil => contradiction
  | @cons first rest start stop starts nonempty tiles ih =>
    cases rest with
    | nil =>
      obtain rfl := Option.some.inj isLast
      cases tiles
      rfl
    | cons next rest => exact ih isLast

end Tiles

section Raw

variable {first last : Reader} {pieces : List Piece}

theorem start_token (line : List Piece) (piece : Piece) :
    (piece.token line).start = piece.start := by
  cases piece <;> rfl

theorem stop_token (line : List Piece) (piece : Piece) : (piece.token line).stop = piece.stop := by
  cases piece <;> rfl

theorem ReadsAll.tiles (run : ReadsAll first pieces last) (line : List Piece) :
    Tiles first.offset (rawFrom line pieces) last.offset := by
  induction run generalizing line with
  | nil reader => exact .nil _
  | @cons first middle last piece pieces step run ih =>
    obtain ⟨starts, stops, forward, -⟩ := step.offsets
    rw [← start_token line] at starts
    rw [← stop_token line] at stops
    have later := ih (if piece.endsLine then [] else line ++ [piece])
    rw [← stops] at later
    exact .cons starts (by omega) later

theorem ReadsAll.getElem?_of_text (run : ReadsAll first pieces last) {start : Nat} {c : Char}
    (member : .text start c ∈ pieces) :
    first.offset ≤ start ∧ first.rest[start - first.offset]? = some c := by
  induction run with
  | nil reader => cases member
  | @cons first middle last piece pieces step run ih =>
    obtain ⟨-, -, forward, -, rest⟩ := step.offsets
    rcases List.mem_cons.1 member with rfl | later
    · cases step with
      | text plain => simp
    · obtain ⟨behind, found⟩ := ih later
      rw [rest, List.getElem?_drop] at found
      refine ⟨by omega, ?_⟩
      rwa [show middle.offset - first.offset + (start - middle.offset) = start - first.offset by
        omega] at found

end Raw

/-- Tokens in the order of the source: each takes a part of the source, and texts say what stands in
their parts. -/
structure InPlace (source : String) (tokens : List Token) : Prop where
  nonempty : ∀ token ∈ tokens, token.start < token.stop
  inside : ∀ token ∈ tokens, token.stop ≤ source.length
  ordered : tokens.Pairwise fun first second => first.stop ≤ second.start
  slices : ∀ token ∈ tokens, token.kind = .text →
    token.value = textBetween source token.start token.stop

/-- No two texts that follow each other have anything between them. -/
def Unbroken (tokens : List Token) : Prop :=
  tokens.IsChain fun first second =>
    first.kind = .text → second.kind = .text → first.stop = second.start

/-- No two texts follow each other. -/
def TextsApart (tokens : List Token) : Prop :=
  tokens.IsChain fun first second => ¬ (first.kind = .text ∧ second.kind = .text)

namespace InPlace

variable {source : String} {tokens rest : List Token} {token last next : Token}

theorem sublist (inPlace : InPlace source tokens) (part : rest.Sublist tokens) :
    InPlace source rest where
  nonempty token member := inPlace.nonempty token (part.subset member)
  inside token member := inPlace.inside token (part.subset member)
  ordered := inPlace.ordered.sublist part
  slices token member := inPlace.slices token (part.subset member)

theorem merge (inPlace : InPlace source (last :: next :: rest)) (isText : last.kind = .text)
    (nextIsText : next.kind = .text) (meet : last.stop = next.start) :
    InPlace source
      ({ last with value := last.value ++ next.value, stop := next.stop } :: rest) := by
  have behind := inPlace.sublist (List.sublist_cons_self last _)
  have others := behind.sublist (List.sublist_cons_self next _)
  have starts := inPlace.nonempty last (by simp)
  have goesOn := inPlace.nonempty next (by simp)
  constructor
  · refine List.forall_mem_cons.2 ⟨?_, others.nonempty⟩
    change last.start < next.stop
    omega
  · exact List.forall_mem_cons.2 ⟨inPlace.inside next (by simp), others.inside⟩
  · exact List.pairwise_cons.2 ⟨(List.pairwise_cons.1 behind.ordered).1, others.ordered⟩
  · refine List.forall_mem_cons.2 ⟨fun _ => ?_, others.slices⟩
    change last.value ++ next.value = textBetween source last.start next.stop
    rw [inPlace.slices last (by simp) isText, inPlace.slices next (by simp) nextIsText, ← meet,
      textBetween_append (by omega) (by omega)]

end InPlace

section Squashing

variable {source : String} {tokens rest : List Token} {last : Token}

theorem exists_kind_of_head?_squashFrom (last : Token) (tokens : List Token) :
    ∃ head, (squash.squashFrom last tokens).head? = some head ∧ head.kind = last.kind := by
  induction tokens generalizing last with
  | nil => exact ⟨last, rfl, rfl⟩
  | cons token rest ih =>
    unfold squash.squashFrom
    split
    next =>
      obtain ⟨head, isHead, kind⟩ := ih { last with
        value := last.value ++ token.value, stop := token.stop }
      exact ⟨head, isHead, kind⟩
    next => exact ⟨last, rfl, rfl⟩

theorem textsApart_squashFrom (last : Token) (tokens : List Token) :
    TextsApart (squash.squashFrom last tokens) := by
  induction tokens generalizing last with
  | nil => exact .singleton _
  | cons token rest ih =>
    unfold squash.squashFrom
    split
    next => exact ih _
    next differ =>
      refine (ih token).cons fun next isNext => ?_
      obtain ⟨head, isHead, kind⟩ := exists_kind_of_head?_squashFrom token rest
      obtain rfl : head = next := Option.some.inj (isHead.symm.trans isNext)
      rwa [kind]

theorem textsApart_squash (tokens : List Token) : TextsApart (squash tokens) := by
  cases tokens with
  | nil => exact .nil
  | cons token rest => exact textsApart_squashFrom token rest

theorem exists_start_of_mem_squashFrom {token : Token}
    (member : token ∈ squash.squashFrom last tokens) :
    ∃ other ∈ last :: tokens, other.start = token.start := by
  induction tokens generalizing last with
  | nil =>
    obtain rfl := List.mem_singleton.1 member
    exact ⟨token, List.mem_cons_self, rfl⟩
  | cons next rest ih =>
    unfold squash.squashFrom at member
    split at member
    next =>
      obtain ⟨other, isOther, starts⟩ := ih member
      rcases List.mem_cons.1 isOther with rfl | later
      · exact ⟨last, List.mem_cons_self, starts⟩
      · exact ⟨other, by simp [later], starts⟩
    next =>
      rcases List.mem_cons.1 member with rfl | later
      · exact ⟨token, List.mem_cons_self, rfl⟩
      · obtain ⟨other, isOther, starts⟩ := ih later
        exact ⟨other, List.mem_cons_of_mem _ isOther, starts⟩

theorem InPlace.squashFrom (inPlace : InPlace source (last :: tokens))
    (unbroken : Unbroken (last :: tokens)) : InPlace source (squash.squashFrom last tokens) := by
  induction tokens generalizing last with
  | nil => exact inPlace
  | cons token rest ih =>
    have behind := inPlace.sublist (List.sublist_cons_self last _)
    obtain ⟨meet, onward⟩ := List.isChain_cons_cons.1 unbroken
    unfold squash.squashFrom
    split
    next texts =>
      -- The run that has been merged ends where the next token begins.
      refine ih (inPlace.merge texts.1 texts.2 (meet texts.1 texts.2)) ?_
      exact onward.tail.cons fun next isNext _ => onward.rel_head? isNext texts.2
    next =>
      have later := ih behind onward
      constructor
      · exact List.forall_mem_cons.2 ⟨inPlace.nonempty last (by simp), later.nonempty⟩
      · exact List.forall_mem_cons.2 ⟨inPlace.inside last (by simp), later.inside⟩
      · refine List.pairwise_cons.2 ⟨fun next member => ?_, later.ordered⟩
        obtain ⟨other, isOther, starts⟩ := exists_start_of_mem_squashFrom member
        exact starts ▸ (List.pairwise_cons.1 inPlace.ordered).1 other isOther
      · exact List.forall_mem_cons.2 ⟨inPlace.slices last (by simp), later.slices⟩

theorem InPlace.squash (inPlace : InPlace source tokens) (unbroken : Unbroken tokens) :
    InPlace source (squash tokens) := by
  cases tokens with
  | nil => exact inPlace
  | cons token rest => exact inPlace.squashFrom unbroken

end Squashing

section Lines

variable {start stop : Nat}

theorem exists_tag_of_standsAlone {line : List Token} (alone : standsAlone line = true) :
    stripLine line = line.filter Token.isTag ∧ line.filter Token.isTag ≠ [] := by
  refine ⟨if_pos alone, ?_⟩
  obtain ⟨token, member, isTag⟩ := List.any_eq_true.1 (Bool.and_eq_true_iff.1 alone).1
  exact List.ne_nil_of_mem (List.mem_filter.2 ⟨member, isTag⟩)

theorem kind_of_mem_filter_isTag {line : List Token} {token : Token}
    (member : token ∈ line.filter Token.isTag) : token.kind ≠ .text := by
  simpa [Token.isTag] using (List.mem_filter.1 member).2

theorem unbroken_stripped {lines : List (List Token)} (tiles : Tiles start lines.flatten stop) :
    Unbroken (lines.flatMap stripLine) ∧
      ∀ token, (lines.flatMap stripLine).head? = some token → token.kind = .text →
        token.start = start := by
  induction lines generalizing start with
  | nil => exact ⟨.nil, by simp⟩
  | cons line lines ih =>
    obtain ⟨middle, ofLine, ofLines⟩ := tiles.split
    obtain ⟨unbroken, starts⟩ := ih ofLines
    rw [List.flatMap_cons]
    cases alone : standsAlone line with
    | true =>
      obtain ⟨stripped, someTag⟩ := exists_tag_of_standsAlone alone
      rw [stripped]
      constructor
      · refine .append (List.Pairwise.isChain ?_) unbroken ?_
        · exact List.pairwise_of_forall_mem_list fun first member _ _ isText =>
            absurd isText (kind_of_mem_filter_isTag member)
        · intro first isLast _ _ isText
          exact absurd isText (kind_of_mem_filter_isTag (List.mem_of_getLast? isLast))
      · intro token isHead isText
        rw [List.head?_append_of_ne_nil _ someTag] at isHead
        exact absurd isText (kind_of_mem_filter_isTag (List.mem_of_head? isHead))
    | false =>
      rw [show stripLine line = line from if_neg (by simp [alone])]
      constructor
      · refine .append (ofLine.joined.imp fun _ _ meet _ _ => meet) unbroken ?_
        intro first isLast second isHead _ isText
        rw [ofLine.stop_of_getLast? isLast, starts second isHead isText]
      · intro token isHead isText
        cases line with
        | nil =>
          cases ofLine
          exact starts token isHead isText
        | cons first line => exact ofLine.start_of_head? isHead

end Lines

section Sources

variable {source : String} {pair inForce : Delimiters}

theorem inPlace_rawTokens (ended : (scan pair source.toList).ending = .complete inForce) :
    InPlace source (rawTokens (scan pair source.toList).pieces) := by
  have run := readsAll_scan ended
  have tiles := run.tiles []
  refine ⟨fun token member => (tiles.bounds.2 token member).2.1, fun token member => ?_,
    tiles.ordered, fun token member isText => ?_⟩
  · rw [← String.length_toList]
    exact (tiles.bounds.2 token member).2.2
  · obtain ⟨piece, isPiece, ahead, rfl⟩ := exists_piece_of_mem_rawFrom member
    cases piece with
    | text start c => exact (textBetween_singleton (run.getElem?_of_text isPiece).2).symm
    | tag kind value start stop inForce => exact absurd isText (run.proper _ isPiece)

theorem inPlace_settle (ended : (scan pair source.toList).ending = .complete inForce) :
    InPlace source (settle {} (scan pair source.toList).pieces) :=
  (inPlace_rawTokens ended).sublist (settle_sublist (readsAll_scan ended).proper)

theorem unbroken_settle (ended : (scan pair source.toList).ending = .complete inForce) :
    Unbroken (settle {} (scan pair source.toList).pieces) := by
  have run := readsAll_scan ended
  have tiles := run.tiles []
  rw [← flatten_cutAfterLines (rawFrom [] _)] at tiles
  rw [settle_eq_stripped_lines run.proper]
  exact (unbroken_stripped tiles).1

def StrippedAt (source : String) (lines : List (List Token)) (offset : Nat) : Prop :=
  ∃ line ∈ lines, standsAlone line = true ∧
    ∃ token ∈ line, token.kind = .text ∧ token.start = offset ∧
      ∃ c, source.toList[offset]? = some c ∧ isBlank c = true

theorem strippedAt_of_uncovered (ended : (scan pair source.toList).ending = .complete inForce)
    {offset : Nat} (within : offset < source.length)
    (uncovered : ∀ token ∈ settle {} (scan pair source.toList).pieces,
      ¬ (token.start ≤ offset ∧ offset < token.stop)) :
    StrippedAt source (cutAfterLines (rawTokens (scan pair source.toList).pieces)) offset := by
  have run := readsAll_scan ended
  rw [← String.length_toList] at within
  -- The raw stream has a token there, which its line has lost.
  obtain ⟨token, raw, covered⟩ := (run.tiles []).covers (Nat.zero_le offset) within
  have onLine := raw
  rw [← flatten_cutAfterLines (rawFrom [] _)] at onLine
  obtain ⟨line, isLine, onLine⟩ := List.mem_flatten.1 onLine
  have lost : token ∉ stripLine line := by
    intro kept
    rw [settle_eq_stripped_lines run.proper] at uncovered
    exact uncovered token (List.mem_flatMap.2 ⟨line, isLine, kept⟩) covered
  unfold stripLine at lost
  split at lost
  next alone =>
    have isText : token.kind = .text := by simpa [onLine, Token.isTag] using lost
    have noContent : token.isContent = false := by
      have none := (Bool.and_eq_true_iff.1 alone).2
      rw [Bool.not_eq_true', List.any_eq_false] at none
      simpa using none token onLine
    obtain ⟨piece, isPiece, ahead, rfl⟩ := exists_piece_of_mem_rawFrom raw
    cases piece with
    | tag kind value start stop inForce => exact absurd isText (run.proper _ isPiece)
    | text start c =>
      obtain rfl : start = offset := by
        simp only [Piece.token] at covered
        omega
      have blank : isBlank c = true := by
        simpa [Piece.token, Token.isContent, Kind.writesValue] using noContent
      exact ⟨line, isLine, alone, _, onLine, rfl, rfl, c, (run.getElem?_of_text isPiece).2, blank⟩
  next => exact absurd onLine lost

end Sources

/-- The end of what a node reads, the close tag of a section apart. -/
def Node.reach : Node → Nat
  | leaf token => token.stop
  | block _ _ closeStart => closeStart

/-- Among siblings, no two texts follow each other. -/
def SiblingsApart (nodes : List Node) : Prop :=
  TextsApart (nodes.map Node.token)

/-- A section in its source: its tag, its body and its close tag follow each other, and what is in
the section stands between its tags. -/
structure SectionInPlace (source : String) (pair : Delimiters) (opener : Token)
    (children : List Node) (closeStart : Nat) : Prop where
  nonempty : opener.start < opener.stop
  before : opener.stop ≤ closeStart
  closed : (pairAt pair (scan pair source.toList).pieces closeStart).opening <+:
    source.toList.drop closeStart
  inside : ∀ node, Node.Within node children →
    opener.stop ≤ node.token.start ∧ node.token.stop ≤ node.reach ∧ node.reach ≤ closeStart
  apart : SiblingsApart children

section Trees

variable {source : String} {pair : Delimiters} {name : Option String} {tokens : List Token}
  {nodes children : List Node} {opener : Token} {closeStart : Nat}

theorem Nests.head?_token (nests : Nests tokens nodes) :
    (nodes.map Node.token).head? = tokens.head? := by
  cases nests <;> rfl

theorem Nests.siblingsApart (nests : Nests tokens nodes) (apart : TextsApart tokens) :
    SiblingsApart nodes := by
  induction nests with
  | nil => exact .nil
  | leaf opens closes nests ih =>
    refine (ih apart.tail).cons fun next isNext => ?_
    rw [nests.head?_token] at isNext
    exact apart.rel_head? isNext
  | @block opener close inner rest children nodes opens closes named nested nests _ ihRest =>
    refine (ihRest apart.tail.right_of_append.tail).cons fun next _ texts => ?_
    have isText : opener.kind = .text := texts.1
    rw [isText] at opens
    contradiction

theorem InPlace.around {before inner after : List Token} {close : Token}
    (inPlace : InPlace source (before ++ opener :: (inner ++ close :: after))) :
    InPlace source inner ∧ opener.start < opener.stop ∧ opener.stop ≤ close.start ∧
      ∀ token ∈ inner, opener.stop ≤ token.start ∧ token.stop ≤ close.start := by
  have behind := (List.pairwise_append.1 inPlace.ordered).2.1
  obtain ⟨follow, inOrder⟩ := List.pairwise_cons.1 behind
  refine ⟨inPlace.sublist ?_, inPlace.nonempty opener (by simp), follow close (by simp), ?_⟩
  · exact ((List.sublist_append_left inner _).cons opener).trans
      (List.sublist_append_right before _)
  · intro token member
    exact ⟨follow token (by simp [member]),
      (List.pairwise_append.1 inOrder).2.2 token member close (by simp)⟩

theorem SectionInPlace.closed_of_within (parsed : parseTemplate source pair name = .ok nodes)
    (within : Node.Within (.block opener children closeStart) nodes) :
    (pairAt pair (scan pair source.toList).pieces closeStart).opening <+:
      source.toList.drop closeStart := by
  obtain ⟨⟨inForce, ended⟩, -⟩ := parseTemplate_eq_ok_iff.1 parsed
  obtain ⟨ahead, between, rest, first, last, inner, close, pieces, -, -, isClose, -, -, rfl⟩ :=
    exists_section_pieces parsed within
  have run := readsAll_scan ended
  rw [pieces, ← List.cons_append, ← List.append_assoc] at run ⊢
  obtain ⟨middle, before, behind⟩ := readsAll_append.1 run
  obtain ⟨after, step, -⟩ := readsAll_cons.1 behind
  have starts : middle.offset = close.start :=
    step.offsets.1.symm.trans (start_of_bareTag? isClose).1
  have inForce := before.pairAt behind
  have text := before.offsets.2.2
  rw [starts] at inForce text
  rw [inForce, ← Nat.sub_zero close.start, ← text]
  cases step with
  | text plain => contradiction
  | tag opened read after => exact List.isPrefixOf_iff_prefix.1 opened

theorem sectionInPlace_of_within (parsed : parseTemplate source pair name = .ok nodes)
    (within : Node.Within (.block opener children closeStart) nodes) :
    SectionInPlace source pair opener children closeStart := by
  obtain ⟨⟨inForce, ended⟩, -, nests⟩ := parseTemplate_eq_ok_iff.1 parsed
  have inPlace := (inPlace_settle ended).squash (unbroken_settle ended)
  have apart := textsApart_squash (settle {} (scan pair source.toList).pieces)
  obtain ⟨before, inner, close, after, split, nested, -, -, rfl⟩ := nests.exists_section within
  rw [split] at inPlace apart
  obtain ⟨innerInPlace, nonempty, beforeClose, around⟩ := inPlace.around
  refine ⟨nonempty, beforeClose, SectionInPlace.closed_of_within parsed within, ?_,
    nested.siblingsApart apart.right_of_append.tail.left_of_append⟩
  intro node inside
  have place := around node.token (nested.token_mem inside)
  cases node with
  | leaf token => exact ⟨place.1, Nat.le_refl _, place.2⟩
  | block opener children closeStart =>
    obtain ⟨before, within, last, after, rfl, -, -, -, rfl⟩ := nested.exists_section inside
    have lastEnds := (around last (by simp)).2
    have lastTakes := innerInPlace.nonempty last (by simp)
    exact ⟨place.1, innerInPlace.around.2.2.1, by simp only [Node.reach]; omega⟩

theorem parseTemplate_accounts (parsed : parseTemplate source pair name = .ok nodes) :
    (∃ tokens, tokenize source pair name = .ok tokens ∧ InPlace source tokens ∧
      ∀ offset < source.length,
        (∀ token ∈ tokens, ¬ (token.start ≤ offset ∧ offset < token.stop)) →
        StrippedAt source (cutAfterLines (rawTokens (scan pair source.toList).pieces)) offset) ∧
    SiblingsApart nodes ∧
    (∀ token, Node.Within (.leaf token) nodes → token.kind = .text →
      token.value = textBetween source token.start token.stop) ∧
    ∀ opener children closeStart, Node.Within (.block opener children closeStart) nodes →
      SectionInPlace source pair opener children closeStart := by
  obtain ⟨⟨inForce, ended⟩, matched, nests⟩ := parseTemplate_eq_ok_iff.1 parsed
  refine ⟨⟨_, tokenize_eq_ok_iff.2 ⟨⟨inForce, ended⟩, matched, rfl⟩, inPlace_settle ended,
    fun offset => strippedAt_of_uncovered ended⟩, ?_, ?_, ?_⟩
  · exact nests.siblingsApart (textsApart_squash _)
  · intro token within
    exact ((inPlace_settle ended).squash (unbroken_settle ended)).slices token
      (nests.token_mem within)
  · intro opener children closeStart within
    exact sectionInPlace_of_within parsed within

end Trees

theorem parseTemplate_accounts_of_blank_line :
    parseTemplate "a\n {{#s}} \nxy{{/s}}b" .standard none = .ok
        [.leaf ⟨.text, "a\n", 0, 2, {}⟩,
          .block ⟨.sectionTag, "s", 3, 9, {}⟩ [.leaf ⟨.text, "xy", 11, 13, {}⟩] 13,
          .leaf ⟨.text, "b", 19, 20, {}⟩] ∧
      SectionInPlace "a\n {{#s}} \nxy{{/s}}b" .standard ⟨.sectionTag, "s", 3, 9, {}⟩
        [.leaf ⟨.text, "xy", 11, 13, {}⟩] 13 ∧
      StrippedAt "a\n {{#s}} \nxy{{/s}}b"
        (cutAfterLines (rawTokens (scan .standard "a\n {{#s}} \nxy{{/s}}b".toList).pieces)) 10 := by
  have parsed : parseTemplate "a\n {{#s}} \nxy{{/s}}b" .standard none = .ok
      [.leaf ⟨.text, "a\n", 0, 2, {}⟩,
        .block ⟨.sectionTag, "s", 3, 9, {}⟩ [.leaf ⟨.text, "xy", 11, 13, {}⟩] 13,
        .leaf ⟨.text, "b", 19, 20, {}⟩] := rfl
  obtain ⟨⟨tokens, tokenized, -, stripped⟩, -, -, sections⟩ := parseTemplate_accounts parsed
  refine ⟨parsed, sections _ _ _ (.tail (.head _ _)), stripped 10 (by decide) ?_⟩
  obtain rfl : tokens =
      [⟨.text, "a", 0, 1, {}⟩, ⟨.text, "\n", 1, 2, {}⟩, ⟨.sectionTag, "s", 3, 9, {}⟩,
        ⟨.text, "x", 11, 12, {}⟩, ⟨.text, "y", 12, 13, {}⟩, ⟨.closeTag, "s", 13, 19, {}⟩,
        ⟨.text, "b", 19, 20, {}⟩] := Except.ok.inj (tokenized.symm.trans rfl)
  simp

end Mustache

import Mustache.Proofs.SectionText
import Mustache.Proofs.Visible

set_option autoImplicit false

namespace Mustache

section Splits

theorem exists_split_of_squash {raw before after : List Token} {tag : Token}
    (isTag : tag.kind ≠ .text) (split : squash raw = before ++ tag :: after) :
    ∃ rawBefore rawAfter, raw = rawBefore ++ tag :: rawAfter ∧ squash rawBefore = before ∧
      squash rawAfter = after := by
  cases raw with
  | nil => simp [squash] at split
  | cons last rest =>
    change squash.squashFrom last rest = _ at split
    induction rest generalizing last before with
    | nil =>
      obtain ⟨rfl, rfl, rfl⟩ : before = [] ∧ last = tag ∧ after = [] := by
        cases before <;> simp_all [squash.squashFrom]
      exact ⟨[], [], rfl, rfl, rfl⟩
    | cons token rest ih =>
      unfold squash.squashFrom at split
      split at split
      next both =>
        -- The two first tokens are merged, so the tag is behind them.
        obtain ⟨rawBefore, rawAfter, whole, front, back⟩ := ih _ split
        cases rawBefore with
        | nil =>
          obtain ⟨rfl, -⟩ := List.cons.inj whole
          exact absurd both.1 isTag
        | cons first rawBefore =>
          obtain ⟨rfl, rfl⟩ := List.cons.inj whole
          refine ⟨last :: token :: rawBefore, rawAfter, rfl, ?_, back⟩
          rw [← front]
          change squash.squashFrom last (token :: rawBefore) = squash.squashFrom _ rawBefore
          rw [squash.squashFrom, if_pos both]
      next other =>
        cases before with
        | nil =>
          obtain ⟨rfl, rfl⟩ := List.cons.inj split
          exact ⟨[], token :: rest, rfl, rfl, rfl⟩
        | cons first before =>
          obtain ⟨rfl, behind⟩ := List.cons.inj split
          obtain ⟨rawBefore, rawAfter, whole, front, back⟩ := ih _ behind
          refine ⟨last :: rawBefore, rawAfter, by rw [whole, List.cons_append], ?_, back⟩
          rw [← front]
          cases rawBefore with
          | nil => rfl
          | cons next rawBefore =>
            obtain ⟨rfl, -⟩ := List.cons.inj whole
            change squash.squashFrom last (token :: rawBefore) = _
            rw [squash.squashFrom, if_neg other]
            rfl

theorem exists_split_of_rawFrom {pieces line : List Piece} {before after : List Token}
    {token : Token} (split : rawFrom line pieces = before ++ token :: after) :
    ∃ ahead piece rest line' line'', pieces = ahead ++ piece :: rest ∧
      before = rawFrom line ahead ∧ token = piece.token line' ∧ after = rawFrom line'' rest := by
  induction pieces generalizing line before with
  | nil => simp [rawFrom] at split
  | cons piece pieces ih =>
    cases before with
    | nil =>
      obtain ⟨rfl, rfl⟩ := List.cons.inj split
      exact ⟨[], piece, pieces, line, _, rfl, rfl, rfl, rfl⟩
    | cons first before =>
      obtain ⟨rfl, behind⟩ := List.cons.inj split
      obtain ⟨ahead, found, rest, line', line'', rfl, rfl, isToken, back⟩ := ih behind
      exact ⟨piece :: ahead, found, rest, line', line'', rfl, rfl, isToken, back⟩

end Splits

section Sections

variable {source : String} {pair : Delimiters} {nodes children : List Node} {opener : Token}
  {closeStart : Nat}

theorem exists_pieces_of_section (parsed : parseTemplate source pair = .ok nodes)
    (visible : ∀ piece ∈ (scan pair source.toList).pieces, piece.Visible)
    (within : Node.Within (.block opener children closeStart) nodes) :
    ∃ ahead inForce between close rest,
      (scan pair source.toList).pieces =
        ahead ++ .tag opener.kind opener.value opener.start opener.stop inForce ::
          (between ++ close :: rest) ∧
      close.start = closeStart ∧ Nests (between.map Piece.letter) (spelled unmarked children) := by
  obtain ⟨⟨last, ended⟩, -, nests⟩ := parseTemplate_eq_ok_iff.1 parsed
  have proper := (readsAll_scan ended).proper
  rw [settle_of_visible visible proper] at nests
  obtain ⟨before, inner, close, after, split, nested, opens, closes, rfl⟩ :=
    nests.exists_section within
  have openerIsTag : opener.kind ≠ .text := by simpa [Token.isTag] using isTag_of_opensBody opens
  have closeIsTag : close.kind ≠ .text := by simp [closes]
  obtain ⟨rawBefore, rawBehind, whole, -, behind⟩ := exists_split_of_squash openerIsTag split
  obtain ⟨rawInner, rawAfter, rfl, isInner, -⟩ := exists_split_of_squash closeIsTag behind
  obtain ⟨ahead, first, others, line, line', pieces, -, isOpener, inside⟩ :=
    exists_split_of_rawFrom whole
  obtain ⟨between, final, rest, line'', -, rfl, isBetween, isClose, -⟩ :=
    exists_split_of_rawFrom inside.symm
  cases first with
  | text start c => exact absurd (congrArg Token.kind isOpener) openerIsTag
  | tag kind value start stop inForce =>
    have properBetween : ∀ piece ∈ between, piece.Proper :=
      fun piece member => proper piece (by simp [pieces, member])
    refine ⟨ahead, inForce, between, final, rest, by rw [pieces, isOpener]; rfl, ?_, ?_⟩
    · rw [isClose]
      cases final <;> rfl
    · have spelling := nested.spelled unmarked
      rwa [← isInner, spell_squash, isBetween, spell_rawFrom properBetween] at spelling

theorem Reads.pair_eq_inForce {first last : Reader} {kind : Kind} {value : String}
    {start stop : Nat} {inForce : Delimiters}
    (step : Reads first (.tag kind value start stop inForce) last) (other : kind ≠ .delimiterTag) :
    last.pair = inForce := by
  have kept := step.pairAfter
  rw [Piece.pairAfter, if_neg other] at kept
  rw [← kept]
  cases step with
  | tag => rfl

theorem ReadsAll.pairAt_stop {first last : Reader} {ahead rest : List Piece} {kind : Kind}
    {value : String} {start stop : Nat} {inForce : Delimiters}
    (run : ReadsAll first (ahead ++ .tag kind value start stop inForce :: rest) last)
    (other : kind ≠ .delimiterTag) :
    Mustache.pairAt first.pair (ahead ++ .tag kind value start stop inForce :: rest) stop =
      inForce := by
  rw [List.append_cons] at run ⊢
  obtain ⟨middle, before, after⟩ := readsAll_append.1 run
  obtain ⟨_, -, tagRun⟩ := readsAll_append.1 before
  obtain ⟨behind, step, ended⟩ := readsAll_cons.1 tagRun
  obtain rfl := readsAll_nil.1 ended
  have stops : behind.offset = stop := step.offsets.2.1.symm
  have found := before.pairAt after
  rw [stops] at found
  exact found.trans (step.pair_eq_inForce other)

theorem exists_parseTemplate_of_section (parsed : parseTemplate source pair = .ok nodes)
    (visible : ∀ piece ∈ (scan pair source.toList).pieces, piece.Visible)
    (within : Node.Within (.block opener children closeStart) nodes)
    (inForce : ∀ pair', .tag opener.kind opener.value opener.start opener.stop pair' ∈
      (scan pair source.toList).pieces → pair' = pair) :
    ∃ body, parseTemplate (textBetween source opener.stop closeStart) pair = .ok body ∧
      spelled unmarked body = spelled unmarked children ∧
      ∀ piece ∈ (scan pair (textBetween source opener.stop closeStart).toList).pieces,
        piece.moved opener.stop ∈ (scan pair source.toList).pieces := by
  obtain ⟨⟨last, ended⟩, -, nests⟩ := parseTemplate_eq_ok_iff.1 parsed
  obtain ⟨_, _, _, _, -, -, opens, -⟩ := nests.exists_section within
  obtain ⟨ahead, pair', between, close, rest, pieces, rfl, nested⟩ :=
    exists_pieces_of_section parsed visible within
  have isPair : pair' = pair := inForce pair' (by simp [pieces])
  have run := readsAll_scan ended
  rw [pieces] at run
  have notDelimiter : opener.kind ≠ .delimiterTag := by
    intro isDelimiter
    rw [isDelimiter] at opens
    contradiction
  obtain ⟨atBody, atClose, inside, bodyStart, bodyStop, text, bodyPair⟩ := run.exists_between
  rw [Piece.stop, run.pairAt_stop notDelimiter, isPair] at bodyPair
  -- The body is scanned on its own as it is scanned between the two tags.
  have alone := inside.alone.scan
  simp only [Reader.scan, bodyStart, bodyStop, text, bodyPair, scanFrom, Scan.prependAll,
    List.append_nil, Nat.sub_zero, Piece.stop] at alone
  rw [← toList_textBetween] at alone
  have there := scanFrom_add pair 0 0 opener.stop
    (textBetween source opener.stop close.start).toList
  rw [Nat.zero_add, alone] at there
  have moved : between = (scan pair (textBetween source opener.stop close.start).toList).pieces.map
      (Piece.moved opener.stop) := congrArg Scan.pieces there
  have endedThere := (congrArg Scan.ending there).symm
  have among : ∀ piece ∈ (scan pair (textBetween source opener.stop close.start).toList).pieces,
      piece.moved opener.stop ∈ (scan pair source.toList).pieces := by
    intro piece member
    have isBetween : piece.moved opener.stop ∈ between := by
      rw [moved]
      exact List.mem_map_of_mem member
    simp [pieces, isBetween]
  rw [moved, map_letter_moved] at nested
  obtain ⟨body, parsedBody, spelling⟩ := parseTemplate_of_letters endedThere
    (fun piece member => visible_moved.1 (visible _ (among piece member))) nested
  exact ⟨body, parsedBody, spelling, among⟩

end Sections

end Mustache

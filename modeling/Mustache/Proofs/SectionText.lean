import Mustache.Proofs.Nesting
import Mustache.Render

set_option autoImplicit false

namespace Mustache

def Piece.pairAfter (pair : Delimiters) : Piece → Delimiters
  | text _ _ => pair
  | tag kind value _ _ _ =>
      if kind = .delimiterTag then
        match Delimiters.ofText value.toList with
        | .ok next => next
        | .error _ => pair
      else pair

/-- The delimiters in force after the pieces that end at or before an offset. -/
def pairAt (pair : Delimiters) (pieces : List Piece) (offset : Nat) : Delimiters :=
  (pieces.filter fun piece => piece.stop ≤ offset).foldl Piece.pairAfter pair

section Readers

variable {first last : Reader} {piece : Piece} {pieces : List Piece}

theorem Reads.pairAfter (step : Reads first piece last) :
    piece.pairAfter first.pair = last.pair := by
  cases step with
  | text plain => rfl
  | tag opened read after =>
    unfold Tag.pairAfter at after
    split at after
    next isDelimiter => simp [Piece.pairAfter, Tag.piece, isDelimiter, after]
    next other =>
      obtain rfl := Except.ok.inj after
      simp [Piece.pairAfter, Tag.piece, other]

theorem ReadsAll.pairAfter (run : ReadsAll first pieces last) :
    pieces.foldl Piece.pairAfter first.pair = last.pair := by
  induction run with
  | nil reader => rfl
  | cons step run ih => rw [List.foldl_cons, step.pairAfter, ih]

theorem ReadsAll.stop_bounds (run : ReadsAll first pieces last) :
    ∀ piece ∈ pieces, first.offset < piece.stop ∧ piece.stop ≤ last.offset := by
  induction run with
  | nil reader => simp
  | cons step run ih =>
    obtain ⟨-, stop, forward, -⟩ := step.offsets
    obtain ⟨onward, -⟩ := run.offsets
    intro piece member
    rcases List.mem_cons.1 member with rfl | later
    · omega
    · have bounds := ih piece later
      omega

theorem ReadsAll.pairAt {middle : Reader} {after : List Piece}
    (run : ReadsAll first pieces middle) (onward : ReadsAll middle after last) :
    pairAt first.pair (pieces ++ after) middle.offset = middle.pair := by
  -- What the first run takes ends at or before its end, what follows ends later.
  have before : (pieces.filter fun piece => piece.stop ≤ middle.offset) = pieces := by
    rw [List.filter_eq_self]
    intro piece member
    simpa using (run.stop_bounds piece member).2
  have none : (after.filter fun piece => piece.stop ≤ middle.offset) = [] := by
    rw [List.filter_eq_nil_iff]
    intro piece member
    simpa using (onward.stop_bounds piece member).1
  rw [Mustache.pairAt, List.filter_append, before, none, List.append_nil, run.pairAfter]

theorem ReadsAll.exists_between {ahead between rest : List Piece} {opener close : Piece}
    (run : ReadsAll first (ahead ++ opener :: (between ++ close :: rest)) last) :
    ∃ middle after, ReadsAll middle between after ∧ middle.offset = opener.stop ∧
      after.offset = close.start ∧
      middle.rest = first.rest.drop (opener.stop - first.offset) ∧
      middle.pair =
        Mustache.pairAt first.pair (ahead ++ opener :: (between ++ close :: rest)) opener.stop := by
  rw [List.append_cons] at run ⊢
  obtain ⟨middle, toMiddle, fromMiddle⟩ := readsAll_append.1 run
  obtain ⟨_, -, runOpener⟩ := readsAll_append.1 toMiddle
  obtain ⟨_, stepOpener, ended⟩ := readsAll_cons.1 runOpener
  obtain rfl := readsAll_nil.1 ended
  obtain ⟨after, inside, fromClose⟩ := readsAll_append.1 fromMiddle
  obtain ⟨_, stepClose, -⟩ := readsAll_cons.1 fromClose
  have begins := stepOpener.offsets.2.1
  have text := toMiddle.offsets.2.2
  have inForce := (toMiddle.pairAt fromMiddle).symm
  rw [← begins] at text inForce
  exact ⟨_, after, inside, begins.symm, stepClose.offsets.1.symm, text, inForce⟩

end Readers

theorem toList_textBetween (text : String) (start stop : Nat) :
    (textBetween text start stop).toList = (text.toList.drop start).take (stop - start) := by
  rw [textBetween, String.toList_ofList, List.drop_take]

theorem exists_split_of_filterMap {α β : Type} {f : α → Option β} {items : List α}
    {before inner after : List β} {opener close : β}
    (kept : items.filterMap f = before ++ opener :: (inner ++ close :: after)) :
    ∃ (ahead : List α) (first : α) (between : List α) (last : α) (rest : List α),
      items = ahead ++ first :: (between ++ last :: rest) ∧ f first = some opener ∧
        between.filterMap f = inner ∧ f last = some close := by
  obtain ⟨start, others, rfl, -, fromOpener⟩ := List.filterMap_eq_append_iff.1 kept
  obtain ⟨skipped, first, more, rfl, -, isOpener, fromInner⟩ :=
    List.filterMap_eq_cons_iff.1 fromOpener
  obtain ⟨middle, ending, rfl, isInner, fromClose⟩ := List.filterMap_eq_append_iff.1 fromInner
  obtain ⟨blank, last, rest, rfl, allBlank, isClose, -⟩ := List.filterMap_eq_cons_iff.1 fromClose
  -- What the filter drops in front of either item goes to the part before it.
  refine ⟨start ++ skipped, first, middle ++ blank, last, rest, by simp, isOpener, ?_, isClose⟩
  rw [List.filterMap_append, List.filterMap_eq_nil_iff.2 allBlank, isInner, List.append_nil]

theorem start_of_bareTag? {piece : Piece} {token : Token} (isTag : piece.bareTag? = some token) :
    piece.start = token.start ∧ piece.stop = token.stop := by
  cases piece with
  | text start c => simp [Piece.bareTag?] at isTag
  | tag kind value start stop inForce =>
    obtain rfl := Option.some.inj isTag
    exact ⟨rfl, rfl⟩

theorem filterMap_bareTag?_moved (distance : Nat) (pieces : List Piece) :
    (pieces.map (Piece.moved distance)).filterMap Piece.bareTag? =
      (pieces.filterMap Piece.bareTag?).map (Token.moved distance) := by
  induction pieces with
  | nil => rfl
  | cons piece rest ih =>
    cases piece with
    | text start c => simpa [Piece.moved] using ih
    | tag kind value start stop inForce => simp [Piece.moved, ih, Token.moved]

theorem parseTemplate_of_bareTags {text : String} {pair inForce : Delimiters} {distance : Nat}
    {pieces : List Piece} {forest : List Node}
    (scanned : scanFrom pair 0 distance text.toList = ⟨pieces, .complete inForce⟩)
    (nests : Nests (pieces.filterMap Piece.bareTag?) forest) (name : Option String) :
    ∃ nodes, parseTemplate text pair name = .ok nodes ∧
      movedAll distance (outlines nodes) = forest := by
  have there := scanFrom_add pair 0 0 distance text.toList
  rw [Nat.zero_add, scanned] at there
  have moved : pieces = (scan pair text.toList).pieces.map (Piece.moved distance) :=
    congrArg Scan.pieces there
  have ended : (scan pair text.toList).ending = .complete inForce :=
    (congrArg Scan.ending there).symm
  have proper := (readsAll_scan ended).proper
  rw [moved, filterMap_bareTag?_moved] at nests
  -- Whether sections match is seen from the tags alone, wherever they stand.
  have matched : openAfterAll [] (scan pair text.toList).pieces = .ok [] := by
    rw [openAfterAll_eq_ok_iff,
      ← openNames_map (f := Token.moved distance) (fun _ => rfl) (fun _ => rfl)]
    exact openNames_of_nests nests
  obtain ⟨nodes, nested⟩ := exists_nests_squash_settle proper matched
  refine ⟨nodes, parseTemplate_eq_ok_iff.2 ⟨⟨inForce, ended⟩, matched, nested⟩, ?_⟩
  have outlined := nested.outlines.moved distance
  rw [bareTags_squash, bareTags_settle proper] at outlined
  exact outlined.unique nests

theorem exists_section_pieces {source : String} {pair : Delimiters} {name : Option String}
    {nodes children : List Node} {opener : Token} {closeStart : Nat}
    (parsed : parseTemplate source pair name = .ok nodes)
    (within : Node.Within (.block opener children closeStart) nodes) :
    ∃ (ahead between rest : List Piece) (first last : Piece) (inner : List Token) (close : Token),
      (scan pair source.toList).pieces = ahead ++ first :: (between ++ last :: rest) ∧
        first.bareTag? = some opener.bare ∧ between.filterMap Piece.bareTag? = bareTags inner ∧
        last.bareTag? = some close.bare ∧ Nests inner children ∧ close.kind = .closeTag ∧
        close.start = closeStart := by
  obtain ⟨⟨inForce, ended⟩, -, nests⟩ := parseTemplate_eq_ok_iff.1 parsed
  obtain ⟨before, inner, close, after, split, nested, opens, closes, closeStarts⟩ :=
    nests.exists_section within
  have tags := bareTags_settle (readsAll_scan ended).proper
  rw [← bareTags_squash, split, bareTags_append, bareTags_cons_of_isTag (isTag_of_opensBody opens),
    bareTags_append, bareTags_cons_of_isTag (isTag_of_closeTag closes)] at tags
  obtain ⟨ahead, first, between, last, rest, pieces, isOpener, isInner, isClose⟩ :=
    exists_split_of_filterMap tags.symm
  exact ⟨ahead, between, rest, first, last, inner, close, pieces, isOpener, isInner, isClose,
    nested, closes, closeStarts⟩

theorem parseTemplate_section_text {source : String} {pair : Delimiters} {name : Option String}
    {nodes children : List Node} {opener : Token} {closeStart : Nat}
    (parsed : parseTemplate source pair name = .ok nodes)
    (within : Node.Within (.block opener children closeStart) nodes) :
    ∃ body,
      parseTemplate (textBetween source opener.stop closeStart)
        (pairAt pair (scan pair source.toList).pieces opener.stop) name = .ok body ∧
      movedAll opener.stop (outlines body) = outlines children := by
  obtain ⟨⟨inForce, ended⟩, -⟩ := parseTemplate_eq_ok_iff.1 parsed
  have run := readsAll_scan ended
  obtain ⟨ahead, between, rest, first, last, inner, close, pieces, isOpener, isInner, isClose,
    nested, -, rfl⟩ := exists_section_pieces parsed within
  rw [pieces] at run
  obtain ⟨atBody, atClose, inside, bodyStart, bodyStop, text, inForce⟩ := run.exists_between
  rw [(start_of_bareTag? isOpener).2] at bodyStart text inForce
  rw [(start_of_bareTag? isClose).1] at bodyStop
  -- The body is scanned on its own as it is scanned between the two tags.
  have alone := inside.alone.scan
  simp only [Reader.scan, bodyStart, bodyStop, text, scanFrom, Scan.prependAll, List.append_nil,
    Nat.sub_zero] at alone
  rw [← toList_textBetween] at alone
  replace inForce : atBody.pair = pairAt pair _ opener.stop := inForce
  rw [pieces, ← inForce]
  exact parseTemplate_of_bareTags alone (isInner ▸ nested.outlines) name

theorem parseTemplate_section_text_between_changes :
    ∃ nodes,
      parseTemplate "{{=<% %>=}}<%#a%>x<%=| |=%>|b||/a|" .standard none = .ok nodes ∧
      Node.Within (.block ⟨.sectionTag, "a", 11, 17, {}⟩
        [.leaf ⟨.text, "x", 17, 18, {}⟩, .leaf ⟨.delimiterTag, "| |", 18, 27, {}⟩,
          .leaf ⟨.escaped, "b", 27, 30, {}⟩] 30) nodes ∧
      ∃ body,
        parseTemplate (textBetween "{{=<% %>=}}<%#a%>x<%=| |=%>|b||/a|" 17 30)
          (pairAt .standard
            (scan .standard "{{=<% %>=}}<%#a%>x<%=| |=%>|b||/a|".toList).pieces 17) none =
          .ok body ∧
        movedAll 17 (outlines body) =
          outlines [.leaf ⟨.text, "x", 17, 18, {}⟩, .leaf ⟨.delimiterTag, "| |", 18, 27, {}⟩,
            .leaf ⟨.escaped, "b", 27, 30, {}⟩] :=
  have parsed : parseTemplate "{{=<% %>=}}<%#a%>x<%=| |=%>|b||/a|" .standard none = .ok
      [.leaf ⟨.delimiterTag, "<% %>", 0, 11, {}⟩,
        .block ⟨.sectionTag, "a", 11, 17, {}⟩
          [.leaf ⟨.text, "x", 17, 18, {}⟩, .leaf ⟨.delimiterTag, "| |", 18, 27, {}⟩,
            .leaf ⟨.escaped, "b", 27, 30, {}⟩] 30] := rfl
  have within := Node.Within.tail (.head _ [])
  ⟨_, parsed, within, parseTemplate_section_text parsed within⟩

end Mustache

import Mustache.Proofs.Reading

set_option autoImplicit false

namespace Mustache

inductive SectionTag where
  | opens (name : String) (start : Nat)
  | closes (name : String) (start : Nat)
  deriving DecidableEq, Repr

def Piece.sectionTag? : Piece → Option SectionTag
  | text _ _ => none
  | tag kind value start _ _ =>
      if kind.opensBody then some (.opens value start)
      else if kind = .closeTag then some (.closes value start)
      else none

def sectionTags (pieces : List Piece) : List SectionTag :=
  pieces.filterMap Piece.sectionTag?

inductive Balanced : List SectionTag → Prop
  | nil : Balanced []
  | around {name : String} {start stop : Nat} {inner rest : List SectionTag} :
      Balanced inner → Balanced rest →
      Balanced (.opens name start :: (inner ++ .closes name stop :: rest))

/-- The names of the sections that a sequence of tags leaves open, innermost first. What stands
behind the tag of each is balanced. -/
inductive LeavesOpen : List SectionTag → List String → Prop
  | balanced {tags : List SectionTag} : Balanced tags → LeavesOpen tags []
  | opener {before inner : List SectionTag} {names : List String} {name : String} {start : Nat} :
      LeavesOpen before names → Balanced inner →
      LeavesOpen (before ++ .opens name start :: inner) (name :: names)

def Extendable (tags : List SectionTag) : Prop :=
  ∃ more, Balanced (tags ++ more)

/-- The open sections after one more tag, innermost first. -/
def openAfterTag (opened : List String) : SectionTag → Except Mismatch (List String)
  | .opens name _ => .ok (name :: opened)
  | .closes name start =>
      match opened with
      | [] => .error ⟨.unopenedSection name, start⟩
      | innermost :: outer =>
          if innermost = name then .ok outer
          else .error ⟨.mismatchedClose innermost name, start⟩

theorem openAfterAll_eq_foldlM (opened : List String) (pieces : List Piece) :
    openAfterAll opened pieces = (sectionTags pieces).foldlM openAfterTag opened := by
  induction pieces generalizing opened with
  | nil => rfl
  | cons piece rest ih =>
    have onward (tag : SectionTag) (isTag : piece.sectionTag? = some tag)
        (same : openAfter opened piece = openAfterTag opened tag) :
        openAfterAll opened (piece :: rest) =
          (sectionTags (piece :: rest)).foldlM openAfterTag opened := by
      rw [openAfterAll, sectionTags, List.filterMap_cons_some isTag, List.foldlM_cons, same]
      cases openAfterTag opened tag with
      | error mismatch => rfl
      | ok after => exact ih after
    have skipped (other : piece.sectionTag? = none) (same : openAfter opened piece = .ok opened) :
        openAfterAll opened (piece :: rest) =
          (sectionTags (piece :: rest)).foldlM openAfterTag opened := by
      rw [openAfterAll, sectionTags, List.filterMap_cons_none other, same]
      exact ih opened
    cases piece with
    | text start c => exact skipped rfl rfl
    | tag kind value start stop inForce =>
      by_cases opens : kind.opensBody = true
      · exact onward (.opens value start) (by simp [Piece.sectionTag?, opens])
          (by simp [openAfter, opens, openAfterTag])
      by_cases closes : kind = .closeTag
      · subst closes
        exact onward (.closes value start) rfl rfl
      · exact skipped (by simp [Piece.sectionTag?, opens, closes])
          (by simp [openAfter, opens, closes])

section Grammar

variable {tags more before inner : List SectionTag} {names : List String} {name : String}

theorem openAfterTag_closes (opened : List String) (start : Nat) :
    openAfterTag (name :: opened) (.closes name start) = .ok opened := by
  simp [openAfterTag]

theorem Balanced.foldlM (balanced : Balanced tags) (opened : List String) :
    tags.foldlM openAfterTag opened = .ok opened := by
  induction balanced generalizing opened with
  | nil => rfl
  | @around name start stop inner rest _ _ ihInner ihRest =>
    rw [List.foldlM_cons]
    change (inner ++ .closes name stop :: rest).foldlM openAfterTag (name :: opened) = _
    rw [List.foldlM_append, ihInner]
    change (SectionTag.closes name stop :: rest).foldlM openAfterTag (name :: opened) = _
    rw [List.foldlM_cons, openAfterTag_closes]
    exact ihRest opened

theorem Balanced.append (balanced : Balanced tags) (later : Balanced more) :
    Balanced (tags ++ more) := by
  induction balanced with
  | nil => exact later
  | around first _ _ ihRest =>
    rw [List.cons_append, List.append_assoc, List.cons_append]
    exact .around first ihRest

theorem LeavesOpen.append (leaves : LeavesOpen tags names) (balanced : Balanced more) :
    LeavesOpen (tags ++ more) names := by
  cases leaves with
  | balanced front => exact .balanced (front.append balanced)
  | opener outer inside =>
    rw [List.append_assoc, List.cons_append]
    exact .opener outer (inside.append balanced)

theorem balanced_iff_leavesOpen_nil : Balanced tags ↔ LeavesOpen tags [] := by
  constructor
  · exact .balanced
  · intro leaves
    cases leaves with
    | balanced balanced => exact balanced

theorem LeavesOpen.close (leaves : LeavesOpen tags (name :: names)) (start : Nat) :
    LeavesOpen (tags ++ [.closes name start]) names := by
  cases leaves with
  | opener outer inside =>
    rw [List.append_assoc, List.cons_append]
    exact outer.append (.around inside .nil)

theorem LeavesOpen.step {tag : SectionTag} {after : List String} (leaves : LeavesOpen tags names)
    (fits : openAfterTag names tag = .ok after) : LeavesOpen (tags ++ [tag]) after := by
  cases tag with
  | opens name start =>
    obtain rfl := Except.ok.inj fits
    exact .opener leaves .nil
  | closes name start =>
    cases names with
    | nil => contradiction
    | cons innermost outer =>
      by_cases same : innermost = name
      · subst same
        rw [openAfterTag_closes] at fits
        obtain rfl := Except.ok.inj fits
        exact leaves.close start
      · simp [openAfterTag, same] at fits

theorem LeavesOpen.foldlM (leaves : LeavesOpen tags names) :
    tags.foldlM openAfterTag [] = .ok names := by
  induction leaves with
  | balanced balanced => exact balanced.foldlM []
  | opener _ inside ih =>
    rw [List.foldlM_append, ih]
    exact inside.foldlM _

theorem LeavesOpen.run {after : List String} (leaves : LeavesOpen tags names)
    (done : more.foldlM openAfterTag names = .ok after) : LeavesOpen (tags ++ more) after := by
  induction more generalizing tags names with
  | nil =>
    obtain rfl := Except.ok.inj done
    rwa [List.append_nil]
  | cons tag rest ih =>
    rw [List.foldlM_cons] at done
    cases fits : openAfterTag names tag with
    | error mismatch =>
      rw [fits] at done
      contradiction
    | ok middle =>
      rw [fits] at done
      rw [List.append_cons]
      exact ih (leaves.step fits) done

theorem leavesOpen_iff : LeavesOpen tags names ↔ tags.foldlM openAfterTag [] = .ok names :=
  ⟨LeavesOpen.foldlM, LeavesOpen.run (.balanced .nil)⟩

theorem balanced_iff : Balanced tags ↔ tags.foldlM openAfterTag [] = .ok [] :=
  balanced_iff_leavesOpen_nil.trans leavesOpen_iff

theorem foldlM_closes (names : List String) :
    (names.map (SectionTag.closes · 0)).foldlM openAfterTag names = .ok [] := by
  induction names with
  | nil => rfl
  | cons name outer ih =>
    rw [List.map_cons, List.foldlM_cons, openAfterTag_closes]
    exact ih

theorem extendable_iff : Extendable tags ↔ ∃ names, LeavesOpen tags names := by
  constructor
  · rintro ⟨more, balanced⟩
    rw [balanced_iff, List.foldlM_append] at balanced
    cases done : tags.foldlM openAfterTag [] with
    | error mismatch =>
      rw [done] at balanced
      contradiction
    | ok names => exact ⟨names, leavesOpen_iff.2 done⟩
  · rintro ⟨names, leaves⟩
    refine ⟨names.map (SectionTag.closes · 0), balanced_iff.2 ?_⟩
    rw [List.foldlM_append, leaves.foldlM]
    exact foldlM_closes names

theorem extendable_nil : Extendable [] :=
  ⟨[], .nil⟩

theorem exists_shortest_of_not_extendable (stuck : ¬ Extendable (before ++ tags))
    (extendable : Extendable before) :
    ∃ front tag after, tags = front ++ tag :: after ∧ Extendable (before ++ front) ∧
      ¬ Extendable (before ++ front ++ [tag]) := by
  induction tags generalizing before with
  | nil =>
    rw [List.append_nil] at stuck
    contradiction
  | cons tag rest ih =>
    by_cases goesOn : Extendable (before ++ [tag])
    · rw [List.append_cons] at stuck
      obtain ⟨front, last, after, rfl, within, ends⟩ := ih stuck goesOn
      rw [← List.append_cons] at within ends
      exact ⟨tag :: front, last, after, rfl, within, ends⟩
    · exact ⟨[], tag, rest, rfl, by rwa [List.append_nil], by rwa [List.append_nil]⟩

end Grammar

section Sources

variable {source : String} {pair inForce : Delimiters} {tags : List SectionTag}

def judge (source : String) (name : Option String) (tokens : List Token) (tags : List SectionTag) :
    Except Fault (List Token) :=
  match tags.foldlM openAfterTag [] with
  | .error mismatch => .error (parseFault source name mismatch.cause mismatch.offset)
  | .ok opened =>
      match opened.reverse with
      | [] => .ok tokens
      | outermost :: inner =>
          .error (parseFault source name (.unclosedSections outermost inner) source.length)

theorem tokenize_eq_judge (name : Option String)
    (ended : (scan pair source.toList).ending = .complete inForce) :
    tokenize source pair name =
      judge source name (settle {} (scan pair source.toList).pieces)
        (sectionTags (scan pair source.toList).pieces) := by
  rw [judge, ← openAfterAll_eq_foldlM, ← String.length_toList]
  unfold tokenize
  dsimp only
  cases openAfterAll [] (scan pair source.toList).pieces with
  | error mismatch => rfl
  | ok opened =>
    generalize (scan pair source.toList).ending = ending at ended
    subst ended
    rfl

/-- A source is refused with a code, at an offset, and with the names of a section and of a close
tag. -/
def Refused {α : Type} (outcome : Except Fault α) (code : FaultCode) (offset : Nat)
    (tag closing : Option String) : Prop :=
  ∃ fault : ParseFault, outcome = .error (.parse fault) ∧ fault.code = code ∧
    fault.offset = offset ∧ fault.tag? = tag ∧ fault.closing? = closing

/-- The refusal of a close tag behind which these sections are open. -/
def RefusedClose {α : Type} (outcome : Except Fault α) (closing : String) (offset : Nat) :
    List String → Prop
  | [] => Refused outcome .unopenedSection offset (some closing) none
  | innermost :: _ => Refused outcome .unclosedSection offset (some innermost) (some closing)

variable (name : Option String) (tokens : List Token)

theorem refusedClose_of_openAfterTag {opened : List String} {tag : SectionTag}
    {mismatch : Mismatch} (misfit : openAfterTag opened tag = .error mismatch) :
    ∃ closing, tag = .closes closing mismatch.offset ∧
      RefusedClose (.error (parseFault source name mismatch.cause mismatch.offset) :
        Except Fault (List Token)) closing mismatch.offset opened := by
  cases tag with
  | opens name start => contradiction
  | closes closing start =>
    cases opened with
    | nil =>
      obtain rfl := Except.error.inj misfit
      exact ⟨closing, rfl, _, rfl, rfl, rfl, rfl, rfl⟩
    | cons innermost outer =>
      by_cases same : innermost = closing
      · simp [openAfterTag, same] at misfit
      · simp only [openAfterTag, same, if_false, Except.error.injEq] at misfit
        subst misfit
        exact ⟨closing, rfl, _, rfl, rfl, rfl, rfl, rfl⟩

theorem judge_eq_ok_iff :
    (∃ found, judge source name tokens tags = .ok found) ↔ Balanced tags := by
  rw [balanced_iff, judge]
  cases tags.foldlM openAfterTag [] with
  | error mismatch => simp
  | ok opened =>
    dsimp only
    rw [Except.ok.injEq, ← List.reverse_eq_nil_iff]
    cases opened.reverse <;> simp

theorem judge_misfit {before after : List SectionTag} {tag : SectionTag}
    (extendable : Extendable before) (stuck : ¬ Extendable (before ++ [tag])) :
    ∃ closing start opened, tag = .closes closing start ∧ LeavesOpen before opened ∧
      RefusedClose (judge source name tokens (before ++ tag :: after)) closing start opened := by
  obtain ⟨opened, leaves⟩ := extendable_iff.1 extendable
  cases fits : openAfterTag opened tag with
  | ok names => exact absurd (extendable_iff.2 ⟨names, leaves.step fits⟩) stuck
  | error mismatch =>
    have failed : (before ++ tag :: after).foldlM openAfterTag [] = .error mismatch := by
      rw [List.foldlM_append, leaves.foldlM]
      change (tag :: after).foldlM openAfterTag opened = _
      rw [List.foldlM_cons, fits]
      rfl
    obtain ⟨closing, isClose, refused⟩ := refusedClose_of_openAfterTag name fits
    rw [judge, failed]
    exact ⟨closing, mismatch.offset, opened, isClose, leaves, refused⟩

theorem judge_left_open (extendable : Extendable tags) (unbalanced : ¬ Balanced tags) :
    ∃ opened outermost, LeavesOpen tags opened ∧ opened.getLast? = some outermost ∧
      Refused (judge source name tokens tags) .unclosedSection source.length (some outermost)
        none := by
  obtain ⟨opened, leaves⟩ := extendable_iff.1 extendable
  rw [judge, leaves.foldlM]
  dsimp only
  cases left : opened.reverse with
  | nil =>
    rw [List.reverse_eq_nil_iff] at left
    exact absurd (balanced_iff_leavesOpen_nil.2 (left ▸ leaves)) unbalanced
  | cons outermost inner =>
    refine ⟨opened, outermost, leaves, ?_, _, rfl, rfl, rfl, rfl, rfl⟩
    rw [List.getLast?_eq_head?_reverse, left, List.head?_cons]

theorem tokenize_accepts_balanced (ended : (scan pair source.toList).ending = .complete inForce)
    (isTags : sectionTags (scan pair source.toList).pieces = tags) :
    ((∃ found, tokenize source pair name = .ok found) ↔ Balanced tags) ∧
    (∀ before tag after, tags = before ++ tag :: after → Extendable before →
      ¬ Extendable (before ++ [tag]) →
      ∃ closing start opened, tag = .closes closing start ∧ LeavesOpen before opened ∧
        RefusedClose (tokenize source pair name) closing start opened) ∧
    (¬ Extendable tags → ∃ before tag after, tags = before ++ tag :: after ∧ Extendable before ∧
      ¬ Extendable (before ++ [tag])) ∧
    (Extendable tags → ¬ Balanced tags →
      ∃ opened outermost, LeavesOpen tags opened ∧ opened.getLast? = some outermost ∧
        Refused (tokenize source pair name) .unclosedSection source.length (some outermost)
          none) := by
  rw [tokenize_eq_judge name ended, isTags]
  refine ⟨judge_eq_ok_iff name _, ?_, ?_, judge_left_open name _⟩
  · rintro before tag after rfl extendable stuck
    exact judge_misfit name _ extendable stuck
  · intro stuck
    rw [← List.nil_append tags] at stuck
    exact exists_shortest_of_not_extendable stuck extendable_nil

end Sources

theorem tokenize_accepts_balanced_but_crossed :
    (scan .standard "{{#a}}{{^b}}x{{/b}}{{/c}}{{/a}}".toList).ending = .complete .standard ∧
      sectionTags (scan .standard "{{#a}}{{^b}}x{{/b}}{{/c}}{{/a}}".toList).pieces =
        [.opens "a" 0, .opens "b" 6, .closes "b" 13, .closes "c" 19, .closes "a" 25] ∧
      Refused (tokenize "{{#a}}{{^b}}x{{/b}}{{/c}}{{/a}}" .standard none) .unclosedSection 19
        (some "a") (some "c") := by
  have ended : (scan .standard "{{#a}}{{^b}}x{{/b}}{{/c}}{{/a}}".toList).ending =
      .complete .standard := rfl
  have isTags : sectionTags (scan .standard "{{#a}}{{^b}}x{{/b}}{{/c}}{{/a}}".toList).pieces =
      [.opens "a" 0, .opens "b" 6, .closes "b" 13, .closes "c" 19, .closes "a" 25] := rfl
  have extendable : Extendable [.opens "a" 0, .opens "b" 6, .closes "b" 13] :=
    extendable_iff.2 ⟨["a"], leavesOpen_iff.2 rfl⟩
  have stuck : ¬ Extendable [.opens "a" 0, .opens "b" 6, .closes "b" 13, .closes "c" 19] := by
    rintro goesOn
    obtain ⟨names, leaves⟩ := extendable_iff.1 goesOn
    cases leaves.foldlM
  obtain ⟨-, refuses, -⟩ := tokenize_accepts_balanced none ended isTags
  obtain ⟨closing, start, opened, isClose, leaves, refused⟩ :=
    refuses [.opens "a" 0, .opens "b" 6, .closes "b" 13] (.closes "c" 19) [.closes "a" 25] rfl
      extendable stuck
  cases isClose
  cases leaves.foldlM
  exact ⟨ended, isTags, refused⟩

end Mustache

import Mustache.Proofs.Extension
import Mustache.Proofs.Nesting
import Mustache.Render

set_option autoImplicit false

namespace Mustache

/-- No run of digits in the text is longer than a number may be. -/
def Readable (text : List Char) : Prop :=
  ∀ run, run <:+: text → (∀ c ∈ run, (digitValue? c).isSome = true) → run.length ≤ digitLimit

section Texts

variable {text before after : List Char}

theorem Readable.part (readable : Readable text) {part : List Char} (inside : part <:+: text) :
    Readable part :=
  fun run member digits => readable run (member.trans inside) digits

theorem readable_nil : Readable [] := by
  intro run inside _
  rw [List.infix_nil.1 inside]
  exact Nat.zero_le _

theorem Readable.around {c : Char} (notDigit : digitValue? c = none) (front : Readable before)
    (back : Readable after) : Readable (before ++ c :: after) := by
  intro run inside digits
  have outside : c ∉ run := by
    intro member
    have digit := digits c member
    simp [notDigit] at digit
  -- A run does not reach across what is not a digit, so it is in front of it or behind it.
  rcases List.infix_append_iff.1 inside with inFront | inBack | ⟨first, second, rfl, ends, begins⟩
  · exact front run inFront digits
  · rcases List.infix_cons_iff.1 inBack with begins | inBack
    · rcases List.prefix_cons_iff.1 begins with rfl | ⟨rest, rfl, -⟩
      · exact Nat.zero_le _
      · simp at outside
    · exact back run inBack digits
  · rcases List.prefix_cons_iff.1 begins with rfl | ⟨rest, rfl, -⟩
    · rw [List.append_nil] at digits ⊢
      exact front first ends.isInfix digits
    · simp at outside

theorem Readable.behind {margin : List Char} (plain : ∀ c ∈ margin, digitValue? c = none)
    (readable : Readable text) : Readable (margin ++ text) := by
  induction margin with
  | nil => exact readable
  | cons c rest ih =>
    rw [List.forall_mem_cons] at plain
    exact readable_nil.around plain.1 (ih plain.2)

theorem readable_joinWith {mark : Char} (notDigit : digitValue? mark = none)
    {pieces : List (List Char)} (readable : ∀ piece ∈ pieces, Readable piece) :
    Readable (joinWith mark pieces) := by
  induction pieces with
  | nil => exact readable_nil
  | cons piece rest ih =>
    rw [List.forall_mem_cons] at readable
    cases rest with
    | nil => exact readable.1
    | cons next others => exact readable.1.around notDigit (ih readable.2)

theorem infix_of_mem_cutAt {mark : Char} {piece : List Char} (member : piece ∈ cutAt mark text) :
    piece <:+: text := by
  rw [← joinWith_cutAt mark text]
  generalize cutAt mark text = pieces at member
  induction pieces with
  | nil => cases member
  | cons first rest ih =>
    cases rest with
    | nil =>
      rw [List.mem_singleton.1 member]
      exact List.infix_refl _
    | cons next others =>
      rw [joinWith_cons_of_ne_nil _ _ (by simp)]
      rcases List.mem_cons.1 member with rfl | later
      · exact (List.prefix_append _ _).isInfix
      · exact (ih later).trans ((List.suffix_cons mark _).trans (List.suffix_append _ _)).isInfix

theorem Readable.cutAt (readable : Readable text) (mark : Char) :
    ∀ piece ∈ cutAt mark text, Readable piece :=
  fun _ member => readable.part (infix_of_mem_cutAt member)

theorem readable_indentLines {margin : List Char} (plain : ∀ c ∈ margin, digitValue? c = none)
    {lines : List (List Char)} (readable : ∀ line ∈ lines, Readable line) :
    ∀ line ∈ indentLines margin lines, Readable line := by
  intro line member
  obtain ⟨original, isLine, rfl⟩ := List.mem_map.1 member
  split
  · exact readable original isLine
  · exact (readable original isLine).behind plain

theorem readable_indentPartial {source : String} (readable : Readable source.toList)
    (indentation : String) (hasText : Bool) :
    Readable (indentPartial source indentation hasText).toList := by
  have plain : ∀ c ∈ indentation.toList.filter (fun c => c = ' ' ∨ c = '\t'),
      digitValue? c = none := by
    intro c member
    rcases of_decide_eq_true (List.mem_filter.1 member).2 with rfl | rfl <;> decide
  have lines := readable.cutAt '\n'
  -- Lines get a prefix of blanks, and a line feed stands between them.
  unfold indentPartial
  rw [String.toList_ofList]
  refine readable_joinWith (by decide) ?_
  split
  · intro line member
    rcases List.mem_append.1 member with first | later
    · exact lines line (List.mem_of_mem_take first)
    · exact readable_indentLines plain (fun line member => lines line (List.mem_of_mem_drop member))
        line later
  · exact readable_indentLines plain lines

theorem readable_partialSource {source : String} (readable : Readable source.toList)
    (token : Token) : Readable (Job.partialSource token source).toList := by
  unfold Job.partialSource
  split
  · exact readable_indentPartial readable _ _
  · exact readable

end Texts

section Tags

theorem value_within_of_readTag? {pair : Delimiters} {text : List Char} {tag : Tag}
    (found : readTag? pair text = some tag) : tag.value <:+: text := by
  have inside (cursor : Cursor) (pattern : Pattern) (ends : cursor.rest <:+ text) :
      (cursor.takeUntil pattern).1 <:+: text :=
    (List.take_prefix _ _).isInfix.trans ends.isInfix
  have ends : ((((Cursor.start text).skip pair.openPattern).take .sigil).2.skip .blanks).rest <:+
      text :=
    (List.drop_suffix _ _).trans ((List.drop_suffix _ _).trans (List.drop_suffix _ _))
  rw [readTag?_eq_map, Option.map_eq_some_iff] at found
  obtain ⟨n, -, rfl⟩ := found
  change (readValue pair _ _).1 <:+: text
  unfold readValue
  split
  · exact inside _ _ ends
  · split
    · exact inside _ _ ends
    · exact inside _ _ ends

theorem ReadsAll.value_within {first last : Reader} {pieces : List Piece}
    (run : ReadsAll first pieces last) :
    ∀ tag ∈ pieces.filterMap Piece.bareTag?, tag.value.toList <:+: first.rest := by
  induction run with
  | nil reader => simp
  | @cons first middle last piece pieces step run ih =>
    have later : ∀ tag ∈ pieces.filterMap Piece.bareTag?, tag.value.toList <:+: first.rest :=
      fun tag member => (ih tag member).trans step.rest_suffix.isInfix
    cases step with
    | text plain => exact later
    | tag opened read after =>
      rw [Tag.piece, filterMap_bareTag?_tag, List.forall_mem_cons]
      refine ⟨?_, later⟩
      rw [String.toList_ofList]
      exact value_within_of_readTag? read

theorem readable_of_within {source : String} {pair : Delimiters} {name : Option String}
    {nodes : List Node} (parsed : parseTemplate source pair name = .ok nodes)
    (readable : Readable source.toList) {node : Node} (within : Node.Within node nodes)
    (isTag : node.token.isTag = true) : Readable node.token.value.toList := by
  obtain ⟨⟨inForce, ended⟩, -⟩ := parseTemplate_eq_ok_iff.1 parsed
  obtain ⟨piece, member, bare⟩ := exists_piece_of_within parsed within isTag
  exact readable.part ((readsAll_scan ended).value_within node.token.bare
    (List.mem_filterMap.2 ⟨piece, member, bare⟩))

end Tags

section Lookups

theorem isSome_of_readDigits? {text : List Char} {total n : Nat}
    (read : readDigits? total text = some n) : ∀ c ∈ text, (digitValue? c).isSome = true := by
  induction text generalizing total with
  | nil => simp
  | cons c rest ih =>
    obtain ⟨digit, here, later⟩ := Option.bind_eq_some_iff.1 read
    rw [List.forall_mem_cons]
    exact ⟨by simp [here], ih later⟩

/-- An outcome that fails, if it does, of a number that does not fit. -/
def FailsOfNumbers {α : Type} (fitting : Prop) (outcome : Except HostFault α) : Prop :=
  ∀ fault, outcome = .error fault → fault = .tooManyDigits ∧ ¬ fitting

namespace FailsOfNumbers

variable {α β : Type} {fitting : Prop}

theorem ok (value : α) : FailsOfNumbers fitting (.ok value) :=
  fun _ failed => by cases failed

theorem long (unfit : ¬ fitting) :
    FailsOfNumbers fitting (.error .tooManyDigits : Except HostFault α) :=
  fun _ failed => ⟨(Except.error.inj failed).symm, unfit⟩

theorem map {outcome : Except HostFault α} (fails : FailsOfNumbers fitting outcome) (f : α → β) :
    FailsOfNumbers fitting (outcome.map f) := by
  cases outcome with
  | error fault => exact fun other failed => fails other (by rw [← Except.error.inj failed])
  | ok value => exact .ok _

theorem bind {outcome : Except HostFault α} {next : α → Except HostFault β}
    (fails : FailsOfNumbers fitting outcome)
    (onward : ∀ value, FailsOfNumbers fitting (next value)) :
    FailsOfNumbers fitting (outcome >>= next) := by
  cases outcome with
  | error fault => exact fun other failed => fails other (by rw [← Except.error.inj failed])
  | ok value => exact onward value

theorem mono {part : Prop} {outcome : Except HostFault α} (fails : FailsOfNumbers part outcome)
    (fits : fitting → part) : FailsOfNumbers fitting outcome :=
  fun fault failed => (fails fault failed).imp_right fun long isSo => long (fits isSo)

section Both

variable {first second : Bool} {outcome : Except HostFault α}

theorem left (fails : FailsOfNumbers (first = true) outcome) :
    FailsOfNumbers ((first && second) = true) outcome :=
  fails.mono fun both => (Bool.and_eq_true_iff.1 both).1

theorem right (fails : FailsOfNumbers (second = true) outcome) :
    FailsOfNumbers ((first && second) = true) outcome :=
  fails.mono fun both => (Bool.and_eq_true_iff.1 both).2

end Both

end FailsOfNumbers

theorem indexBelow_fails (size : Nat) (name : String) :
    FailsOfNumbers (Readable name.toList) (indexBelow size name) := by
  intro fault failed
  unfold indexBelow at failed
  split at failed
  next => cases failed
  next index isNumber =>
    split at failed
    next long =>
      refine ⟨(Except.error.inj failed).symm, fun readable => ?_⟩
      unfold decimalNumber? at isNumber
      split at isNumber
      next => cases isNumber
      next =>
        have bound := readable _ (List.infix_refl _) (isSome_of_readDigits? isNumber)
        rw [String.length_toList] at bound
        omega
    next => split at failed <;> cases failed

theorem hasMember_fails (size : Nat) (name : String) :
    FailsOfNumbers (Readable name.toList) (hasMember size name) := by
  unfold hasMember
  split
  · exact .ok _
  · exact (indexBelow_fails size name).map _

namespace Value

theorem hasKey_fails (view : Value) (name : String) :
    FailsOfNumbers (Readable name.toList) (view.hasKey name) := by
  cases view with
  | list items => exact hasMember_fails _ name
  | tuple items => exact hasMember_fails _ name
  | _ => exact .ok _

theorem hasOwnMember_fails (view : Value) (name : String) :
    FailsOfNumbers (Readable name.toList) (view.hasOwnMember name) := by
  cases view with
  | str s => exact hasMember_fails _ name
  | _ => exact .ok _

theorem sequenceMember_fails (items : List Value) (name : String) :
    FailsOfNumbers (Readable name.toList) (sequenceMember items name) := by
  unfold sequenceMember
  split
  · exact .ok _
  · exact (indexBelow_fails _ name).map _

theorem member_fails (view : Value) (name : String) :
    FailsOfNumbers (Readable name.toList) (view.member name) := by
  cases view with
  | str s => exact sequenceMember_fails _ name
  | list items => exact sequenceMember_fails items name
  | tuple items => exact sequenceMember_fails items name
  | _ => exact .ok _

theorem descend_fails {text : List Char} {segments : List String}
    (parts : ∀ segment ∈ segments, segment.toList <:+: text) (view : Value) :
    FailsOfNumbers (Readable text) (view.descend segments) := by
  induction segments generalizing view with
  | nil => exact .ok _
  | cons segment rest ih =>
    rw [List.forall_mem_cons] at parts
    cases rest with
    | nil =>
      unfold descend
      split
      · exact .ok _
      · refine ((hasKey_fails _ segment).mono (·.part parts.1)).bind fun isKey => ?_
        refine ((hasOwnMember_fails _ segment).mono (·.part parts.1)).bind fun isMember => ?_
        split
        · exact ((member_fails _ segment).mono (·.part parts.1)).bind fun value => .ok _
        · exact .ok _
    | cons next others =>
      unfold descend
      split
      · exact .ok _
      · exact ((member_fails _ segment).mono (·.part parts.1)).bind fun value => ih parts.2 value

theorem answer?_fails (view : Value) (name : String) :
    FailsOfNumbers (Readable name.toList) (view.answer? name) := by
  unfold answer?
  split
  · refine descend_fails (fun segment member => ?_) view
    obtain ⟨piece, isPiece, rfl⟩ := List.mem_map.1 member
    rw [String.toList_ofList]
    exact infix_of_mem_cutAt isPiece
  · refine (hasKey_fails view name).bind fun isKey => ?_
    split
    · exact (member_fails view name).bind fun value => .ok _
    · exact .ok _

end Value

theorem resolve_fails (name : String) (views : List Value) :
    FailsOfNumbers (Readable name.toList) (resolve name views) := by
  induction views with
  | nil => exact .ok _
  | cons view outer ih =>
    refine (view.answer?_fails name).bind fun answer => ?_
    cases answer with
    | some value => exact .ok _
    | none => exact ih

end Lookups

end Mustache

import Mustache.Proofs.NearestAnswer

set_option autoImplicit false

namespace Mustache

theorem not_shortNumber_ones {n : Nat} (many : digitLimit < n) :
    ¬ ShortNumber (String.ofList (List.replicate n '1')) := by
  intro short
  have isNumber := Context.isSome_readDigits?_ones n 0
  have notEmpty : (List.replicate n '1').isEmpty = false := by
    rw [List.isEmpty_replicate]
    simpa using Nat.ne_of_gt (Nat.zero_lt_of_lt many)
  have few := short (by simp [decimalNumber?, notEmpty, isNumber])
  rw [← String.length_toList, String.toList_ofList, List.length_replicate] at few
  omega

namespace Value

/-- What is read under a name is the member that one of two tests has found, and a missing value if
both find none. -/
structure ReadsAsTested (name : String) (view value : Value) (isKey isOwn : Bool) : Prop where
  hasKey : view.hasKey name = .ok isKey
  hasOwnMember : view.hasOwnMember name = .ok isOwn
  member : view.member name = .ok value
  apart : ¬ (isKey = true ∧ isOwn = true)
  missing : isKey = false → isOwn = false → value = .null
  keyed (held : Value) : Keyed name view held ↔ isKey = true ∧ held = value
  owned (held : Value) : Owned name view held ↔ isOwn = true ∧ held = value

section Tests

variable {name : String} {view : Value}

theorem Shows.readsAsTested {key own : Option Value} (shows : view.Shows name key own) :
    view.ReadsAsTested name ((key.or own).getD .null) key.isSome own.isSome := by
  obtain ⟨keyed, owned, hasKey, hasOwnMember, member, rfl | rfl⟩ := shows
  · refine ⟨hasKey, hasOwnMember, member, by simp, ?_, ?_, ?_⟩
    · cases own <;> simp
    · simp [keyed]
    · cases own <;> simp [owned, eq_comm]
  · refine ⟨hasKey, hasOwnMember, member, by simp, ?_, ?_, ?_⟩
    · cases key <;> simp
    · cases key <;> simp [keyed, eq_comm]
    · simp [owned]

theorem member_of_long (indexed : view.isIndexed = true) (long : ¬ ShortNumber name) :
    view.member name = .error .tooManyDigits := by
  have unread (items : List Value) : sequenceMember items name = .error .tooManyDigits := by
    rw [sequenceMember, if_neg (ne_length_of_long long), indexBelow_of_long long]
    rfl
  cases view with
  | list items => exact unread items
  | tuple items => exact unread items
  | str s => exact unread _
  | _ => cases indexed

theorem not_readsAsTested_of_long (indexed : view.isIndexed = true) (long : ¬ ShortNumber name)
    {value : Value} {isKey isOwn : Bool} : ¬ view.ReadsAsTested name value isKey isOwn := by
  intro reads
  cases reads.member.symm.trans (member_of_long indexed long)

end Tests

theorem reads_as_tested_iff (name : String) (view : Value) :
    (∃ value isKey isOwn, view.ReadsAsTested name value isKey isOwn) ↔
      (view.isIndexed = true → ShortNumber name) := by
  constructor
  · rintro ⟨value, isKey, isOwn, reads⟩ indexed
    apply Classical.byContradiction
    intro long
    exact not_readsAsTested_of_long indexed long reads
  · intro short
    cases indexed : view.isIndexed with
    | true =>
      obtain ⟨key, own, shows⟩ := exists_shows (short indexed) view
      exact ⟨_, _, _, shows.readsAsTested⟩
    | false =>
      obtain ⟨key, own, shows⟩ := @exists_shows_of_unindexed name view indexed
      exact ⟨_, _, _, shows.readsAsTested⟩

/-- An empty list has nothing under a number that is too long, and the reading fails of it. -/
theorem fails_of_long_number :
    let long := String.ofList (List.replicate 4301 '1')
    (∀ held, ¬ Keyed long (.list []) held) ∧ (∀ held, ¬ Owned long (.list []) held) ∧
      (Value.list []).hasKey long = .error .tooManyDigits ∧
      (Value.list []).hasOwnMember long = .ok false ∧
      (Value.list []).member long = .error .tooManyDigits ∧
      ¬ ∃ value isKey isOwn, (Value.list []).ReadsAsTested long value isKey isOwn := by
  intro long
  have tooLong : ¬ ShortNumber long := not_shortNumber_ones (by decide)
  refine ⟨fun held keyed => ?_, fun held owned => ?_, hasMember_of_long tooLong 0, rfl,
    member_of_long rfl tooLong, ?_⟩
  · cases keyed with
    | listed isItems listed =>
      cases isItems
      rcases listed with ⟨isLength, -⟩ | ⟨index, -, there⟩
      · exact ne_length_of_long tooLong isLength
      · simp at there
    | exposed there => simp [publicAttribute?, attribute?] at there
  · cases owned
  · rintro ⟨value, isKey, isOwn, reads⟩
    exact not_readsAsTested_of_long rfl tooLong reads

end Value

end Mustache

import Mustache.Context

set_option autoImplicit false

namespace Mustache

namespace Value

mutual

/-- Whether a value has no function in it. The functions of bytes, loaders and chains of views are
members of theirs. -/
def isData : Value → Bool
  | null | bool _ | int _ | float _ | str _ => true
  | list items | tuple items => allData items
  | map entries => entriesData entries
  | object _ attrs methods _ => methods.isEmpty && attrsData attrs
  | bytes _ | callable _ | loader _ | chain _ => false

def allData : List Value → Bool
  | [] => true
  | item :: rest => isData item && allData rest

def entriesData : List (Value × Value) → Bool
  | [] => true
  | (_, value) :: rest => isData value && entriesData rest

def attrsData : List (String × Value) → Bool
  | [] => true
  | (_, value) :: rest => isData value && attrsData rest

end

theorem allData_iff {items : List Value} :
    allData items = true ↔ ∀ item ∈ items, item.isData = true := by
  induction items with
  | nil => simp [allData]
  | cons item rest ih => simp [allData, ih]

theorem entriesData_iff {entries : List (Value × Value)} :
    entriesData entries = true ↔ ∀ entry ∈ entries, entry.2.isData = true := by
  induction entries with
  | nil => simp [entriesData]
  | cons entry rest ih => simp [entriesData, ih]

theorem attrsData_iff {attrs : List (String × Value)} :
    attrsData attrs = true ↔ ∀ attr ∈ attrs, attr.2.isData = true := by
  induction attrs with
  | nil => simp [attrsData]
  | cons attr rest ih => simp [attrsData, ih]

theorem isData_of_items? {value : Value} {items : List Value} (data : value.isData = true)
    (listed : value.items? = some items) : ∀ item ∈ items, item.isData = true := by
  cases value with
  | list found =>
    obtain rfl := Option.some.inj listed
    exact allData_iff.1 data
  | tuple found =>
    obtain rfl := Option.some.inj listed
    exact allData_iff.1 data
  | _ => contradiction

section Members

variable {name : String} {value found : Value}

theorem mem_of_valueAt? {key : Value} {entries : List (Value × Value)}
    (here : valueAt? key entries = some found) : ∃ entry ∈ entries, entry.2 = found := by
  induction entries with
  | nil => contradiction
  | cons entry rest ih =>
    unfold valueAt? at here
    split at here
    · exact ⟨entry, by simp, Option.some.inj here⟩
    · obtain ⟨other, member, same⟩ := ih here
      exact ⟨other, by simp [member], same⟩

theorem of_valueAt? {holds : Value → Prop} (ofNull : holds null) {key : Value}
    {entries : List (Value × Value)} (held : ∀ entry ∈ entries, holds entry.2) :
    holds ((valueAt? key entries).getD null) := by
  cases here : valueAt? key entries with
  | none => exact ofNull
  | some found =>
    obtain ⟨entry, member, rfl⟩ := mem_of_valueAt? here
    exact held entry member

theorem of_sequenceMember {holds : Value → Prop} (ofNull : holds null) {items : List Value}
    (size : holds (.int items.length)) (held : ∀ item ∈ items, holds item)
    (read : sequenceMember items name = .ok found) : holds found := by
  unfold sequenceMember at read
  split at read
  · obtain rfl := Except.ok.inj read
    exact size
  · cases index : indexBelow items.length name with
    | error fault => simp [index, Except.map] at read
    | ok place =>
      simp only [index, Except.map, Except.ok.injEq] at read
      subst read
      cases here : place.bind (items[·]?) with
      | none => exact ofNull
      | some item =>
        obtain ⟨n, -, there⟩ := Option.bind_eq_some_iff.1 here
        exact held item (List.mem_of_getElem? there)

theorem isData_publicAttribute? (data : value.isData = true) :
    ((value.publicAttribute? name).getD null).isData = true := by
  unfold publicAttribute?
  split
  · rfl
  · cases value with
    | object serial attrs methods text =>
      obtain ⟨noMethods, attrsAre⟩ := Bool.and_eq_true_iff.1 data
      obtain rfl := List.isEmpty_iff.1 noMethods
      cases here : attrs.lookup name with
      | none => simp [attribute?, here, isData]
      | some found =>
        obtain ⟨before, after, rfl, -⟩ := List.lookup_eq_some_iff.1 here
        simpa [attribute?, here] using attrsData_iff.1 attrsAre (name, found) (by simp)
    | bytes content => contradiction
    | loader source => contradiction
    | chain views => contradiction
    | _ => rfl

theorem isData_member (data : value.isData = true) (read : value.member name = .ok found) :
    found.isData = true := by
  have items {items : List Value} (each : ∀ item ∈ items, item.isData = true)
      (read : sequenceMember items name = .ok found) : found.isData = true :=
    @of_sequenceMember _ _ (·.isData = true) rfl items rfl each read
  cases value with
  | map entries =>
    obtain rfl := Except.ok.inj read
    exact @of_valueAt? (·.isData = true) rfl _ _ (entriesData_iff.1 data)
  | str s =>
    refine items ?_ read
    intro item member
    obtain ⟨c, -, rfl⟩ := List.mem_map.1 member
    rfl
  | list found => exact items (allData_iff.1 data) read
  | tuple found => exact items (allData_iff.1 data) read
  | _ =>
    obtain rfl := Except.ok.inj read
    exact isData_publicAttribute? data

end Members

end Value

section Lookups

variable {name : String} {view found : Value} {views : List Value}

theorem exists_ok_of_bind {ε α β : Type} {first : Except ε α} {next : α → Except ε β} {value : β}
    (done : (first >>= next) = .ok value) :
    ∃ middle, first = .ok middle ∧ next middle = .ok value := by
  cases first with
  | error fault => contradiction
  | ok middle => exact ⟨middle, rfl, done⟩

theorem ok_of_mapError {ε ε' α : Type} {f : ε → ε'} {outcome : Except ε α} {value : α}
    (done : outcome.mapError f = .ok value) : outcome = .ok value := by
  cases outcome with
  | error fault => contradiction
  | ok found =>
    obtain rfl := Except.ok.inj done
    rfl

theorem exists_error_of_mapError {ε ε' α : Type} {f : ε → ε'} {outcome : Except ε α} {error : ε'}
    (failed : outcome.mapError f = .error error) :
    ∃ cause, outcome = .error cause ∧ f cause = error := by
  cases outcome with
  | error cause => exact ⟨cause, rfl, Except.error.inj failed⟩
  | ok value => contradiction

/-- A property of values that a missing value has, and that their members have with them. -/
structure Value.Inherited (holds : Value → Prop) : Prop where
  null : holds null
  member {value found : Value} {name : String} :
    holds value → value.member name = .ok found → holds found

section Inherited

variable {holds : Value → Prop} (inherited : Value.Inherited holds)

include inherited

theorem Value.Inherited.descend_last {last : String} (held : holds view)
    (read : view.descend [last] = .ok (some found)) : holds found := by
  unfold descend at read
  split at read
  next => cases read
  next =>
    obtain ⟨isKey, -, read⟩ := exists_ok_of_bind read
    obtain ⟨isMember, -, read⟩ := exists_ok_of_bind read
    split at read
    · obtain ⟨value, member, answered⟩ := exists_ok_of_bind read
      cases answered
      exact inherited.member held member
    · cases read

theorem Value.Inherited.descend {segments : List String} (held : holds view)
    (read : view.descend segments = .ok (some found)) : holds found := by
  induction segments generalizing view with
  | nil => cases read
  | cons segment rest ih =>
    cases rest with
    | nil => exact inherited.descend_last held read
    | cons next rest =>
      unfold Value.descend at read
      split at read
      next => cases read
      next =>
        obtain ⟨value, member, onward⟩ := exists_ok_of_bind read
        exact ih (inherited.member held member) onward

theorem Value.Inherited.answer? (held : holds view)
    (read : view.answer? name = .ok (some found)) : holds found := by
  unfold Value.answer? at read
  split at read
  next => exact inherited.descend held read
  next =>
    obtain ⟨isKey, -, read⟩ := exists_ok_of_bind read
    split at read
    · obtain ⟨value, member, answered⟩ := exists_ok_of_bind read
      cases answered
      exact inherited.member held member
    · cases read

theorem Value.Inherited.resolve (held : ∀ view ∈ views, holds view)
    (read : resolve name views = .ok found) : holds found := by
  induction views with
  | nil =>
    cases read
    exact inherited.null
  | cons view outer ih =>
    rw [List.forall_mem_cons] at held
    obtain ⟨answer, answered, read⟩ := exists_ok_of_bind read
    cases answer with
    | some value =>
      cases read
      exact inherited.answer? held.1 answered
    | none => exact ih held.2 read

end Inherited

theorem Value.isData_inherited : Inherited fun value => value.isData = true :=
  ⟨rfl, isData_member⟩

theorem isData_of_resolve (data : ∀ view ∈ views, view.isData = true)
    (read : resolve name views = .ok found) : found.isData = true :=
  Value.isData_inherited.resolve data read

end Lookups

end Mustache

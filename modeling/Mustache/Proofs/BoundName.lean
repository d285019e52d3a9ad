import Mustache.Proofs.Data
import Mustache.Proofs.Output

set_option autoImplicit false

namespace Mustache

def Touches (bound name : String) : Prop :=
  if isPath name then bound ∈ segments name else name = bound

instance (bound name : String) : Decidable (Touches bound name) :=
  inferInstanceAs (Decidable (if isPath name then bound ∈ segments name else name = bound))

theorem not_touches_self {name : String} (dotted : isPath name = true) : ¬ Touches name name := by
  rw [Touches, if_pos dotted]
  intro member
  obtain ⟨piece, isPiece, rfl⟩ := List.mem_map.1 member
  have dot := (Bool.and_eq_true_iff.1 dotted).1
  rw [String.toList_ofList, List.contains_iff_mem] at dot
  exact mark_notMem_of_mem_cutAt isPiece dot

namespace Value

def binding (bound : String) (entries : List (Value × Value)) (value : Value) : Value :=
  .map (putEntry (.str bound) value entries)

section Entries

variable {bound name : String} {entries : List (Value × Value)} (value : Value)

theorem equals_str_iff {key : Value} : key.equals (.str name) = true ↔ key = .str name := by
  cases key with
  | float x => cases whole : x.toInt? <;> simp [equals, wholeKey?, wholeNumber?, whole]
  | _ => simp [equals, wholeKey?, wholeNumber?]

theorem valueAt?_putEntry_self :
    valueAt? (.str bound) (putEntry (.str bound) value entries) = some value := by
  induction entries with
  | nil => simp [putEntry, valueAt?, equals_str_iff]
  | cons entry rest ih =>
    obtain ⟨key, old⟩ := entry
    unfold putEntry
    split
    next same => rw [valueAt?, if_pos same]
    next other => rw [valueAt?, if_neg other, ih]

theorem valueAt?_putEntry_other (other : name ≠ bound) :
    valueAt? (.str name) (putEntry (.str bound) value entries) =
      valueAt? (.str name) entries := by
  induction entries with
  | nil => simp [putEntry, valueAt?, equals_str_iff, other.symm]
  | cons entry rest ih =>
    obtain ⟨key, old⟩ := entry
    unfold putEntry
    split
    next same =>
      obtain rfl := equals_str_iff.1 same
      have skipped : ¬ (Value.str bound).equals (.str name) = true := by
        rw [equals_str_iff, Value.str.injEq]
        exact other.symm
      rw [valueAt?, valueAt?, if_neg skipped, if_neg skipped]
    next => rw [valueAt?, valueAt?, ih]

theorem descend_binding {segments : List String} (untouched : bound ∉ segments) :
    (binding bound entries value).descend segments = (Value.map entries).descend segments := by
  cases segments with
  | nil => rfl
  | cons first rest =>
    have other : first ≠ bound := fun same => untouched (by simp [same])
    have there := @valueAt?_putEntry_other _ _ entries value other
    cases rest <;> simp [descend, binding, hasKey, hasOwnMember, member, there]

theorem answer?_binding (untouched : ¬ Touches bound name) :
    (binding bound entries value).answer? name = (Value.map entries).answer? name := by
  unfold answer?
  split
  next dotted =>
    rw [Touches, if_pos dotted] at untouched
    exact descend_binding value untouched
  next whole =>
    rw [Touches, if_neg whole] at untouched
    simp only [binding, hasKey, member, valueAt?_putEntry_other value untouched]

theorem answer?_binding_self (whole : isPath bound = false) :
    (binding bound entries value).answer? bound = .ok (some value) := by
  rw [answer?, if_neg (by simp [whole])]
  simp only [binding, hasKey, member, valueAt?_putEntry_self]
  rfl

end Entries

end Value

section Lookups

variable {bound name : String} {entries : List (Value × Value)} {front : List Value}

theorem resolve_append_congr {view view' : Value}
    (answered : view.answer? name = view'.answer? name) (front : List Value) :
    resolve name (front ++ [view]) = resolve name (front ++ [view']) := by
  induction front with
  | nil => simp only [List.nil_append, resolve, answered]
  | cons frame rest ih => simp only [List.cons_append, resolve, ih]

theorem resolve_binding (untouched : ¬ Touches bound name) (value : Value) :
    resolve name (front ++ [.binding bound entries value]) =
      resolve name (front ++ [.map entries]) :=
  resolve_append_congr (Value.answer?_binding value untouched) front

theorem resolve_binding_self (whole : isPath bound = false)
    (data : ∀ view ∈ front, view.isData = true) :
    (∃ outcome, (∀ value, resolve bound (front ++ [.binding bound entries value]) = outcome) ∧
      ∀ found, outcome = .ok found → found.isData = true) ∨
    ∀ value, resolve bound (front ++ [.binding bound entries value]) = .ok value := by
  -- The first view on top of the mapping that answers the name decides; none may do so.
  induction front with
  | nil =>
    refine .inr fun value => ?_
    simp only [List.nil_append, resolve, Value.answer?_binding_self value whole]
    rfl
  | cons view rest ih =>
    rw [List.forall_mem_cons] at data
    simp only [List.cons_append, resolve]
    cases answered : view.answer? bound with
    | error fault => exact .inl ⟨_, fun _ => rfl, fun found isFound => by cases isFound⟩
    | ok answer =>
      cases answer with
      | none => exact ih data.2
      | some found =>
        refine .inl ⟨_, fun _ => rfl, fun other isFound => ?_⟩
        cases isFound
        exact Value.isData_inherited.answer? data.1 answered

def Outlook.over (front : List Value) (bound : String) (entries : List (Value × Value))
    (scope : Scope) (value : Value) : Outlook :=
  { views := front ++ [.binding bound entries value], scope := some scope }

def FoundAnyway (front : List Value) (bound : String) (entries : List (Value × Value))
    (scope : Scope) (name : String) : Prop :=
  ∃ outcome, (∀ value, (Outlook.over front bound entries scope value).find name = outcome) ∧
    ∀ found, outcome = .ok found → found.isData = true

section Found

variable (scope : Scope) (data : ∀ view ∈ front, view.isData = true)
  (entriesAre : ∀ entry ∈ entries, entry.2.isData = true) (named : name ≠ ".")

include data entriesAre named

theorem foundAnyway_of_untouched (untouched : ¬ Touches bound name) :
    FoundAnyway front bound entries scope name := by
  have views : ∀ view ∈ front ++ [.map entries], view.isData = true := by
    rw [List.forall_mem_append, List.forall_mem_singleton]
    exact ⟨data, Value.entriesData_iff.2 entriesAre⟩
  refine ⟨(resolve name (front ++ [.map entries])).mapError .host, fun value => ?_,
    fun found isFound => isData_of_resolve views (ok_of_mapError isFound)⟩
  rw [Outlook.find, if_neg named, Outlook.over, resolve_binding untouched]

theorem foundAnyway_or_bound (clear : name = bound ∨ ¬ Touches bound name) :
    FoundAnyway front bound entries scope name ∨
      name = bound ∧
        ∀ value, (Outlook.over front bound entries scope value).find name = .ok value := by
  by_cases touches : Touches bound name
  · obtain rfl : name = bound := clear.resolve_right (not_not_intro touches)
    have whole : isPath name = false :=
      Bool.eq_false_iff.2 fun dotted => not_touches_self dotted touches
    rcases @resolve_binding_self _ entries _ whole data with ⟨outcome, same, isData⟩ | bound
    · refine .inl ⟨outcome.mapError .host, fun value => ?_,
        fun found isFound => isData found (ok_of_mapError isFound)⟩
      rw [Outlook.find, if_neg named, Outlook.over, same]
    · refine .inr ⟨rfl, fun value => ?_⟩
      rw [Outlook.find, if_neg named, Outlook.over, bound]
      rfl
  · exact .inl (foundAnyway_of_untouched scope data entriesAre named touches)

end Found

end Lookups

end Mustache

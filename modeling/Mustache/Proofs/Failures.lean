import Mustache.Proofs.Output

set_option autoImplicit false

namespace Mustache

variable {α β : Type} {allowed : Fault → Prop}

/-- An outcome that fails, if it does, of a fault that is allowed. -/
def Fails (allowed : Fault → Prop) (outcome : Except Fault α) : Prop :=
  ∀ fault, outcome = .error fault → allowed fault

namespace Fails

theorem ok (value : α) : Fails allowed (.ok value) :=
  nofun

theorem error {fault : Fault} (isAllowed : allowed fault) :
    Fails allowed (.error fault : Except Fault α) :=
  fun _ failed => Except.error.inj failed ▸ isAllowed

theorem bind {outcome : Except Fault α} {next : α → Except Fault β}
    (fails : Fails allowed outcome)
    (onward : ∀ value, outcome = .ok value → Fails allowed (next value)) :
    Fails allowed (outcome >>= next) := by
  cases outcome with
  | error fault => exact error (fails fault rfl)
  | ok value => exact onward value rfl

theorem map {outcome : Except Fault α} (fails : Fails allowed outcome) (f : α → β) :
    Fails allowed (f <$> outcome) := by
  rw [map_eq_pure_bind]
  exact fails.bind fun value _ => .ok _

theorem joined {first second : Except Fault String} (fails : Fails allowed first)
    (onward : Fails allowed second) : Fails allowed (joined first second) :=
  fails.bind fun _ _ => onward.bind fun _ _ => .ok _

end Fails

section Sections

variable {here : Except Fault String} {inside : Value → Except Fault String}

theorem writeItems_fails {items : List Value}
    (fails : ∀ item ∈ items, Fails allowed (inside item)) :
    Fails allowed (writeItems inside items) := by
  induction items with
  | nil => exact .ok _
  | cons item rest ih =>
    rw [List.forall_mem_cons] at fails
    exact fails.1.joined (ih fails.2)

theorem writeSection_fails {value : Value} (body : Fails allowed here)
    (whole : Fails allowed (inside value))
    (each : ∀ items, value.items? = some items → ∀ item ∈ items, Fails allowed (inside item)) :
    Fails allowed (writeSection here inside value) := by
  unfold writeSection
  split
  · exact .ok _
  · split
    · exact writeItems_fails (each _ rfl)
    · exact writeItems_fails (each _ rfl)
    · exact body
    · exact whole

theorem writeInverted_fails (body : Fails allowed here) (value : Value) :
    Fails allowed (writeInverted here value) := by
  unfold writeInverted
  split
  · exact body
  · exact .ok _

end Sections

end Mustache

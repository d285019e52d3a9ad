import Mustache.Proofs.Data
import Mustache.Proofs.DigitRuns

set_option autoImplicit false

namespace Mustache

theorem one_lt_digitBound : 1 < digitBound := by
  have grows (n : Nat) (some : n ≠ 0) : 1 < Nat.pow 10 n := Nat.one_lt_pow some (by decide)
  unfold digitBound
  exact grows digitLimit (by decide)

theorem not_fitsDigits_digitBound : fitsDigits digitBound = false :=
  decide_eq_false (Nat.lt_irrefl digitBound)

namespace Value

theorem wholeText_of_fitsDigits {n : Int} (fits : fitsDigits n = true) :
    wholeText n = .ok (toString n) :=
  if_pos fits

theorem wholeText_of_not_fitsDigits {n : Int} (long : fitsDigits n = false) :
    wholeText n = .error .tooManyDigits := by
  rw [wholeText, long]
  rfl

mutual

/-- Whether every whole number in a value can be written. The lengths of texts and sequences are
numbers that names reach, so they count. -/
def isWritable : Value → Bool
  | int n => fitsDigits n
  | str s => fitsDigits s.length
  | list items | tuple items => fitsDigits items.length && allWritable items
  | map entries => entriesWritable entries
  | object _ attrs _ _ => attrsWritable attrs
  | chain views => allWritable views
  | null | bool _ | float _ | bytes _ | callable _ | loader _ => true

def allWritable : List Value → Bool
  | [] => true
  | item :: rest => isWritable item && allWritable rest

def entryWritable : Value × Value → Bool
  | (key, value) => isWritable key && isWritable value

def entriesWritable : List (Value × Value) → Bool
  | [] => true
  | entry :: rest => entryWritable entry && entriesWritable rest

def attrsWritable : List (String × Value) → Bool
  | [] => true
  | (_, value) :: rest => isWritable value && attrsWritable rest

end

theorem allWritable_iff {items : List Value} :
    allWritable items = true ↔ ∀ item ∈ items, item.isWritable = true := by
  induction items with
  | nil => simp [allWritable]
  | cons item rest ih => simp [allWritable, ih]

theorem entriesWritable_iff {entries : List (Value × Value)} :
    entriesWritable entries = true ↔
      ∀ entry ∈ entries, entry.1.isWritable = true ∧ entry.2.isWritable = true := by
  induction entries with
  | nil => simp [entriesWritable]
  | cons entry rest ih =>
    obtain ⟨key, value⟩ := entry
    simp only [entriesWritable, entryWritable, Bool.and_eq_true, ih, List.forall_mem_cons]

theorem attrsWritable_iff {attrs : List (String × Value)} :
    attrsWritable attrs = true ↔ ∀ attr ∈ attrs, attr.2.isWritable = true := by
  induction attrs with
  | nil => simp [attrsWritable]
  | cons attr rest ih => simp [attrsWritable, ih]

theorem isWritable_of_items? {value : Value} {items : List Value}
    (writable : value.isWritable = true) (listed : value.items? = some items) :
    fitsDigits items.length = true ∧ ∀ item ∈ items, item.isWritable = true := by
  have both (isList : (fitsDigits items.length && allWritable items) = true) :
      fitsDigits items.length = true ∧ ∀ item ∈ items, item.isWritable = true :=
    (Bool.and_eq_true_iff.1 isList).imp_right allWritable_iff.1
  cases value with
  | list found | tuple found =>
    obtain rfl := Option.some.inj listed
    exact both writable
  | _ => contradiction

section Texts

theorem wholeText_fails (n : Int) : FailsOfNumbers (fitsDigits n = true) (wholeText n) := by
  cases fits : fitsDigits n with
  | true =>
    rw [wholeText_of_fitsDigits fits]
    exact .ok _
  | false =>
    rw [wholeText_of_not_fitsDigits fits]
    exact .long nofun

mutual

theorem literal_fails : (value : Value) →
    FailsOfNumbers (value.isWritable = true) value.literal
  | .int n => wholeText_fails n
  | .list items | .tuple items => (literalItems_fails items).right.bind fun _ => .ok _
  | .map entries => (literalEntries_fails entries).bind fun _ => .ok _
  | .chain [] => .ok _
  | .chain (view :: _) => (literal_fails view).left.bind fun _ => .ok _
  | .null | .bool _ | .float _ | .str _ | .bytes _ | .object _ _ _ _ | .callable _ | .loader _ =>
      .ok _

theorem literalItems_fails : (items : List Value) →
    FailsOfNumbers (allWritable items = true) (literalItems items)
  | [] => .ok _
  | [item] => (literal_fails item).left
  | item :: next :: rest =>
      (literal_fails item).left.bind fun _ =>
        (literalItems_fails (next :: rest)).right.bind fun _ => .ok _

theorem literalEntry_fails : (entry : Value × Value) →
    FailsOfNumbers (entryWritable entry = true) (literalEntry entry)
  | (key, value) =>
      (literal_fails key).left.bind fun _ => (literal_fails value).right.bind fun _ => .ok _

theorem literalEntries_fails : (entries : List (Value × Value)) →
    FailsOfNumbers (entriesWritable entries = true) (literalEntries entries)
  | [] => .ok _
  | [entry] => (literalEntry_fails entry).left
  | entry :: next :: rest =>
      (literalEntry_fails entry).left.bind fun _ =>
        (literalEntries_fails (next :: rest)).right.bind fun _ => .ok _

end

mutual

theorem display_fails : (value : Value) →
    FailsOfNumbers (value.isWritable = true) value.display
  | .list items | .tuple items => (displayItems_fails items).right
  | .int n => literal_fails (.int n)
  | .map entries => literal_fails (.map entries)
  | .chain views => literal_fails (.chain views)
  | .float .notANumber | .float (.infinite _) | .float (.finite _ _ _) => .ok _
  | .null | .bool _ | .str _ | .bytes _ | .object _ _ _ _ | .callable _ | .loader _ => .ok _

theorem displayItems_fails : (items : List Value) →
    FailsOfNumbers (allWritable items = true) (displayItems items)
  | [] => .ok _
  | [item] => by
      have only := display_fails item
      cases item with
      | null => exact .ok _
      | _ => exact only.left
  | item :: next :: rest => by
      have here := display_fails item
      have others := displayItems_fails (next :: rest)
      cases item with
      | null => exact others.right.bind fun _ => .ok _
      | _ => exact here.left.bind fun _ => others.right.bind fun _ => .ok _

end

end Texts

section Members

variable {name : String} {value found : Value}

theorem isWritable_ofChar (c : Char) : (str (String.singleton c)).isWritable = true := by
  have one : (String.singleton c).length = 1 := by simp
  rw [isWritable, one]
  exact decide_eq_true one_lt_digitBound

theorem isWritable_of_lookup {attrs : List (String × Value)} (writable : attrsWritable attrs = true)
    (here : attrs.lookup name = some found) : found.isWritable = true := by
  obtain ⟨before, after, rfl, -⟩ := List.lookup_eq_some_iff.1 here
  exact attrsWritable_iff.1 writable (name, found) (by simp)

theorem isWritable_innermost {views : List Value} (writable : allWritable views = true) :
    (innermost views).isWritable = true := by
  cases views with
  | nil => rfl
  | cons view outer => exact (Bool.and_eq_true_iff.1 writable).1

theorem isWritable_outerChain {views : List Value} (writable : allWritable views = true) :
    (outerChain views).isWritable = true := by
  match views with
  | [] | [_] => rfl
  | _ :: _ :: _ => exact (Bool.and_eq_true_iff.1 writable).2

theorem isWritable_attribute? (writable : value.isWritable = true)
    (here : value.attribute? name = some found) : found.isWritable = true := by
  cases value with
  | object serial attrs methods text =>
    rw [attribute?] at here
    split at here
    next known =>
      obtain rfl := Option.some.inj here
      exact isWritable_of_lookup writable known
    next =>
      obtain ⟨code, -, rfl⟩ := Option.map_eq_some_iff.1 here
      rfl
  | bytes content =>
    obtain ⟨function, -, rfl⟩ := Option.map_eq_some_iff.1 here
    rfl
  | loader source =>
    unfold attribute? at here
    split at here <;> grind [isWritable]
  | chain views =>
    have views := isWritable_outerChain writable
    have view := isWritable_innermost writable
    unfold attribute? at here
    split at here <;> grind [isWritable]
  | _ => cases here

theorem isWritable_publicAttribute? (writable : value.isWritable = true) :
    ((value.publicAttribute? name).getD null).isWritable = true := by
  unfold publicAttribute?
  split
  · rfl
  · cases here : value.attribute? name with
    | none => rfl
    | some found => exact isWritable_attribute? writable here

theorem isWritable_member (writable : value.isWritable = true)
    (read : value.member name = .ok found) : found.isWritable = true := by
  have items {items : List Value} (size : fitsDigits items.length = true)
      (each : ∀ item ∈ items, item.isWritable = true)
      (read : sequenceMember items name = .ok found) : found.isWritable = true :=
    @of_sequenceMember _ _ (·.isWritable = true) rfl items size each read
  cases value with
  | map entries =>
    obtain rfl := Except.ok.inj read
    exact @of_valueAt? (·.isWritable = true) rfl _ _ fun entry member =>
      (entriesWritable_iff.1 writable entry member).2
  | str s =>
    refine items ?_ ?_ read
    · rwa [List.length_map, String.length_toList]
    · intro item member
      obtain ⟨c, -, rfl⟩ := List.mem_map.1 member
      exact isWritable_ofChar c
  | list found =>
    obtain ⟨size, each⟩ := isWritable_of_items? writable rfl
    exact items size each read
  | tuple found =>
    obtain ⟨size, each⟩ := isWritable_of_items? writable rfl
    exact items size each read
  | _ =>
    obtain rfl := Except.ok.inj read
    exact isWritable_publicAttribute? writable

theorem isWritable_inherited : Inherited fun value => value.isWritable = true :=
  ⟨rfl, isWritable_member⟩

end Members

end Value

end Mustache

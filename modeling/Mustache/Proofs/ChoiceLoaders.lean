import Mustache.Proofs.SuppliedPartials

set_option autoImplicit false

namespace Mustache

/-- A mapping of texts, with one source for a name. -/
structure TextMapping where
  entries : List (String × String)
  distinct : (entries.map Prod.fst).Nodup

namespace TextMapping

def names (mapping : TextMapping) : List String :=
  mapping.entries.map Prod.fst

def source? (mapping : TextMapping) (name : String) : Option String :=
  mapping.entries.lookup name

theorem source?_eq_none_iff {mapping : TextMapping} {name : String} :
    mapping.source? name = none ↔ name ∉ mapping.names := by
  rw [source?, List.lookup_eq_none_iff, names, List.mem_map]
  constructor
  · rintro other ⟨entry, member, rfl⟩
    simpa using other entry member
  · intro absent entry member
    simpa using fun same => absent ⟨entry, member, same.symm⟩

end TextMapping

/-- A mapping of texts, or a choice among such trees. -/
inductive LoaderTree where
  | mapping (sources : TextMapping)
  | choice (members : List LoaderTree)

namespace LoaderTree

mutual

def loader : LoaderTree → Loader
  | mapping sources => .names (.map (textEntries sources.entries))
  | choice members => .choice (loaders members)

def loaders : List LoaderTree → List Value
  | [] => []
  | member :: rest => .loader (loader member) :: loaders rest

end

mutual

def leaves : LoaderTree → List TextMapping
  | mapping sources => [sources]
  | choice members => leavesOf members

def leavesOf : List LoaderTree → List TextMapping
  | [] => []
  | member :: rest => leaves member ++ leavesOf rest

end

end LoaderTree

/-- What the first of several mappings has for a name. -/
def firstSource? (mappings : List TextMapping) (name : String) : Option String :=
  mappings.findSome? (·.source? name)

theorem firstSource?_eq_none_iff {mappings : List TextMapping} {name : String} :
    firstSource? mappings name = none ↔ ∀ mapping ∈ mappings, name ∉ mapping.names := by
  simp [firstSource?, TextMapping.source?_eq_none_iff]

theorem firstSource?_append (mappings others : List TextMapping) (name : String) :
    firstSource? (mappings ++ others) name =
      (firstSource? mappings name).or (firstSource? others name) :=
  List.findSome?_append

section Loading

variable (call : Caller) (name : String)

inductive Loads : Option String → Action Value → Prop
  | found (source : String) : Loads (some source) (pure (foundAt (.str source) none))
  | missing (missing : Missing) : Loads none (throw (.notFound name missing))

mutual

theorem LoaderTree.loads :
    (tree : LoaderTree) →
      Loads name (firstSource? tree.leaves name) (tree.loader.load call (.str name))
  | .mapping sources => by
      rw [LoaderTree.leaves, LoaderTree.loader, Loader.load]
      cases known : sources.entries.lookup name with
      | some source =>
        rw [loadEntry_of_some known]
        simpa [firstSource?, TextMapping.source?, known] using Loads.found source
      | none =>
        obtain ⟨missing, told⟩ := exists_loadEntry_of_none known
        rw [told]
        simpa [firstSource?, TextMapping.source?, known] using Loads.missing missing
  | .choice members => by
      rw [LoaderTree.leaves, LoaderTree.loader, Loader.load]
      exact LoaderTree.loads_first _ members

theorem LoaderTree.loads_first (count : Nat) :
    (members : List LoaderTree) →
      Loads name (firstSource? (LoaderTree.leavesOf members) name)
        (Loader.loadFirst call (.str name) count (LoaderTree.loaders members))
  | [] => .missing (.loaders count)
  | member :: rest => by
      have here := LoaderTree.loads member
      have later := LoaderTree.loads_first count rest
      rw [LoaderTree.loaders, Loader.loadFirst, Loader.loadFrom, LoaderTree.leavesOf,
        firstSource?_append]
      generalize firstSource? member.leaves name = known at here ⊢
      generalize Loader.load call (.str name) member.loader = action at here ⊢
      cases here with
      | found source => exact .found source
      | missing => exact later

end

end Loading

section Listing

variable (call : Caller)

theorem exists_distinct (kept texts : List String) (nodup : kept.Nodup) :
    ∃ all : List String,
      (texts.map Value.str).foldl (fun kept value =>
        if kept.any (Value.equals value) then kept else kept ++ [value]) (kept.map .str) =
          all.map .str ∧
      all.Nodup ∧ ∀ text, text ∈ all ↔ text ∈ kept ∨ text ∈ texts := by
  induction texts generalizing kept with
  | nil => exact ⟨kept, rfl, nodup, by simp⟩
  | cons first rest ih =>
    have known : (kept.map Value.str).any (Value.equals (.str first)) = true ↔ first ∈ kept := by
      simp [Value.equals_str_iff]
    by_cases member : first ∈ kept
    · obtain ⟨all, merged, distinct, same⟩ := ih kept nodup
      refine ⟨all, ?_, distinct, fun text => ?_⟩
      · rw [List.map_cons, List.foldl_cons, if_pos (known.2 member), merged]
      · rw [same, List.mem_cons]
        grind
    · obtain ⟨all, merged, distinct, same⟩ := ih (kept ++ [first]) (by grind)
      refine ⟨all, ?_, distinct, fun text => ?_⟩
      · rw [List.map_cons, List.foldl_cons, if_neg (mt known.1 member), ← merged, List.map_append]
        rfl
      · rw [same]
        grind

theorem sortedLT_insertionSort {texts : List String} (nodup : texts.Nodup) :
    (texts.insertionSort (· ≤ ·)).SortedLT :=
  List.sortedLE_insertionSort.sortedLT_of_nodup
    ((List.perm_insertionSort _ texts).nodup_iff.2 nodup)

/-- The names of several mappings in strictly increasing order. -/
structure Merged (mappings : List TextMapping) (names : List String) : Prop where
  increasing : names.SortedLT
  mem_iff : ∀ name, name ∈ names ↔ ∃ mapping ∈ mappings, name ∈ mapping.names

theorem listFrom_loader (tree : LoaderTree) :
    Loader.listFrom call (.loader tree.loader) = tree.loader.list call := by
  cases tree <;> rfl

mutual

theorem LoaderTree.exists_list :
    (tree : LoaderTree) → ∃ names : List String,
      tree.loader.list call = pure (names.map .str) ∧ Merged tree.leaves names
  | .mapping sources => by
      have keys : (textEntries sources.entries).map Prod.fst = sources.names.map .str := by
        simp [textEntries, TextMapping.names]
      refine ⟨sources.names.insertionSort (· ≤ ·), ?_, sortedLT_insertionSort sources.distinct, ?_⟩
      · rw [LoaderTree.loader, Loader.list, sortedKeys, keys, sort?_texts]
        rfl
      · simp [LoaderTree.leaves]
  | .choice members => by
      obtain ⟨found, listed, same⟩ := LoaderTree.exists_listEach members
      obtain ⟨all, merged, distinct, unique⟩ := exists_distinct [] found .nil
      have all' : Value.distinct (found.map .str) = all.map .str := merged
      refine ⟨all.insertionSort (· ≤ ·), ?_, sortedLT_insertionSort distinct, fun name => ?_⟩
      · rw [LoaderTree.loader, Loader.list, listed, pure_bind, all', sort?_texts]
      · rw [List.mem_insertionSort, unique, LoaderTree.leaves, ← same]
        simp

theorem LoaderTree.exists_listEach :
    (members : List LoaderTree) → ∃ names : List String,
      Loader.listEach call (LoaderTree.loaders members) = pure (names.map .str) ∧
        ∀ name, name ∈ names ↔ ∃ mapping ∈ LoaderTree.leavesOf members, name ∈ mapping.names
  | [] => ⟨[], rfl, by simp [LoaderTree.leavesOf]⟩
  | member :: rest => by
      obtain ⟨first, listed, merged⟩ := LoaderTree.exists_list member
      obtain ⟨others, listedRest, same⟩ := LoaderTree.exists_listEach rest
      refine ⟨first ++ others, ?_, fun name => ?_⟩
      · rw [LoaderTree.loaders, Loader.listEach, listFrom_loader, listed, pure_bind, listedRest,
          pure_bind, List.map_append]
      · rw [List.mem_append, merged.mem_iff, same, LoaderTree.leavesOf]
        grind

end

end Listing

theorem LoaderTree.merges (tree : LoaderTree) (call : Caller) (s : Session) :
    ∃ names : List String,
      tree.loader.list call s = (.ok (names.map .str), s) ∧
      names.SortedLT ∧
      (∀ name, name ∈ names ↔ ∃ leaf ∈ tree.leaves, name ∈ leaf.names) ∧
      ∀ name,
        ((∃ found, (tree.loader.load call (.str name) s).1 = .ok found) ↔ name ∈ names) ∧
        (∀ source, firstSource? tree.leaves name = some source →
          tree.loader.load call (.str name) s = (.ok (foundAt (.str source) none), s)) ∧
        (name ∉ names → ∃ missing,
          tree.loader.load call (.str name) s = (.error (.notFound name missing), s)) := by
  obtain ⟨names, listed, merged⟩ := tree.exists_list call
  refine ⟨names, ?_, merged.increasing, merged.mem_iff, fun name => ?_⟩
  · rw [listed]
    rfl
  have loads := tree.loads call name
  have absent : firstSource? tree.leaves name = none ↔ name ∉ names := by
    rw [firstSource?_eq_none_iff, merged.mem_iff]
    simp
  generalize firstSource? tree.leaves name = known at loads absent ⊢
  generalize Loader.load call (.str name) tree.loader = action at loads ⊢
  cases loads with
  | found source =>
    have member : name ∈ names := by simpa using absent
    refine ⟨⟨fun _ => member, fun _ => ⟨_, rfl⟩⟩, fun other same => ?_, fun lacks => ?_⟩
    · obtain rfl := Option.some.inj same
      rfl
    · exact absurd member lacks
  | missing missing =>
    have lacks : name ∉ names := absent.1 rfl
    refine ⟨⟨fun ⟨found, given⟩ => ?_, fun member => absurd member lacks⟩, nofun, fun _ => ?_⟩
    · cases given
    · exact ⟨missing, rfl⟩

/-- A name is listed once, and the first mapping that has it counts. -/
example :
    let front : TextMapping := ⟨[("b", "1"), ("a", "2")], by decide⟩
    let back : TextMapping := ⟨[("b", "3"), ("c", "4")], by decide⟩
    let loader := LoaderTree.loader (.choice [.choice [.mapping front], .mapping back])
    (loader.list Closure.call {}).1 = .ok [.str "a", .str "b", .str "c"] ∧
      (loader.load Closure.call (.str "b") {}).1 = .ok (foundAt (.str "1") none) :=
  ⟨rfl, rfl⟩

end Mustache

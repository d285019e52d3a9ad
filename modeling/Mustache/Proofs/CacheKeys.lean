import Mathlib.Data.List.Basic
import Mustache.Proofs.Nesting
import Mustache.Proofs.Agreement

set_option autoImplicit false

namespace Mustache

def Delimiters.keyEnd (pair : Delimiters) : List Char :=
  ':' :: pair.opening ++ ':' :: pair.closing

/-- Of no two pairs in use the key of one ends with what the other adds. -/
def ToldApart (inUse : Delimiters → Prop) : Prop :=
  ∀ p q, inUse p → inUse q → p.keyEnd <:+ q.keyEnd → p = q

theorem Delimiters.eq_of_parts {p q : Delimiters} (opening : p.opening = q.opening)
    (closing : p.closing = q.closing) : p = q := by
  cases p
  cases q
  simp_all

section Keys

variable {inUse : Delimiters → Prop} {p q : Delimiters} {source other : String}

theorem toList_cacheKey (pair : Delimiters) (source : String) :
    (pair.cacheKey source).toList = source.toList ++ pair.keyEnd := by
  simp [Delimiters.cacheKey, cacheKey, Delimiters.toStrings, Delimiters.keyEnd,
    String.intercalate_cons_cons]

theorem cacheKey_eq_iff :
    p.cacheKey source = q.cacheKey other ↔
      source.toList ++ p.keyEnd = other.toList ++ q.keyEnd := by
  rw [← String.toList_inj, toList_cacheKey, toList_cacheKey]

theorem eq_of_cacheKey_eq (apart : ToldApart inUse) (usedP : inUse p) (usedQ : inUse q)
    (same : p.cacheKey source = q.cacheKey other) : p = q ∧ source = other := by
  rw [cacheKey_eq_iff] at same
  have pairs : p = q := by
    rcases List.suffix_or_suffix_of_suffix (List.suffix_append source.toList p.keyEnd)
      (same ▸ List.suffix_append other.toList q.keyEnd) with inside | inside
    · exact apart p q usedP usedQ inside
    · exact (apart q p usedQ usedP inside).symm
  rw [pairs, List.append_cancel_right_eq, String.toList_inj] at same
  exact ⟨pairs, same⟩

theorem toldApart_of_noColon
    (noColon : ∀ pair, inUse pair → ':' ∉ pair.opening ∧ ':' ∉ pair.closing) :
    ToldApart inUse := by
  rintro p q usedP usedQ ⟨ahead, whole⟩
  obtain ⟨openP, closeP⟩ := noColon p usedP
  obtain ⟨openQ, closeQ⟩ := noColon q usedQ
  -- Each pair adds two colons, the first of them in front.
  have colons := congrArg (List.count ':') whole
  simp only [Delimiters.keyEnd, List.cons_append, List.count_append, List.count_cons_self,
    List.count_eq_zero.2 openP, List.count_eq_zero.2 closeP, List.count_eq_zero.2 openQ,
    List.count_eq_zero.2 closeQ] at colons
  have none : ':' ∉ ahead := List.count_eq_zero.1 (by omega)
  have empty : ahead = [] := by
    cases ahead with
    | nil => rfl
    | cons c rest =>
      obtain ⟨rfl, -⟩ := List.cons.inj whole
      simp at none
  rw [empty] at whole
  have tails := (List.cons.inj whole).2
  obtain ⟨opening, -, closing⟩ := (List.append_cons_inj_of_notMem openP closeP).1 tails
  exact Delimiters.eq_of_parts opening closing

end Keys

/-- An entry whose tree is that of a source with its key, under a pair in use. -/
def IsTreeOfKey (inUse : Delimiters → Prop) (entry : String × List Node) : Prop :=
  ∃ source pair,
    inUse pair ∧ entry.1 = pair.cacheKey source ∧ parseTemplate source pair = .ok entry.2

def Stored (inUse : Delimiters → Prop) (caches : List TreeCache) : Prop :=
  ∀ cache ∈ caches, ∀ entry ∈ cache.entries, IsTreeOfKey inUse entry

def Engine.uncached (engine : Engine) : Engine :=
  { engine with cache := .nothing }

theorem Engine.uncached_of_nothing {engine : Engine} (nothing : engine.cache = .nothing) :
    engine.uncached = engine := by
  unfold uncached
  rw [← nothing]

section Caches

variable {inUse : Delimiters → Prop} {s t : Session} {slot : Nat}

theorem mem_of_lookup_eq_some {entries : List (String × List Node)} {key : String}
    {tree : List Node} (found : entries.lookup key = some tree) : (key, tree) ∈ entries := by
  obtain ⟨before, after, rfl, -⟩ := List.lookup_eq_some_iff.1 found
  simp

theorem Stored.mem_entries {caches : List TreeCache} (stored : Stored inUse caches)
    {entry : String × List Node} (member : entry ∈ (caches[slot]?.getD {}).entries) :
    IsTreeOfKey inUse entry := by
  cases found : caches[slot]? with
  | none => simp [found] at member
  | some cache =>
    rw [found] at member
    exact stored cache (List.mem_of_getElem? found) entry member

theorem Stored.set {caches : List TreeCache} (stored : Stored inUse caches) {cache : TreeCache}
    (entries : ∀ entry ∈ cache.entries, IsTreeOfKey inUse entry) :
    Stored inUse (caches.set slot cache) := by
  intro other member
  rcases List.mem_or_eq_of_mem_set member with old | rfl
  · exact stored other old
  · exact entries

theorem parseTemplate_anyName {source : String} {pair : Delimiters} {name other : Option String}
    {nodes : List Node} (parsed : parseTemplate source pair name = .ok nodes) :
    parseTemplate source pair other = .ok nodes :=
  parseTemplate_eq_ok_iff.2 (parseTemplate_eq_ok_iff.1 parsed)

theorem TreeCache.fst_find (cache : TreeCache) (key : String) :
    (cache.find key).1 = cache.entries.lookup key := by
  unfold find
  split <;> simp [*]

theorem TreeCache.entries_find (cache : TreeCache) (key : String) :
    (cache.find key).2.entries = cache.entries := by
  unfold find
  split <;> rfl

theorem CacheHandle.find_keepFirst (slot : Nat) (key : String) (s : Session) :
    (CacheHandle.keepFirst slot).find key s =
      (.ok (((s.cache slot).entries.lookup key).map .parsed),
        s.setCache slot ((s.cache slot).find key).2) := by
  rw [← TreeCache.fst_find]
  rfl

theorem CacheHandle.find_stored (slot : Nat) (apart : ToldApart inUse) {pair : Delimiters}
    (used : inUse pair) (source : String) (agrees : s.Agrees (Stored inUse) t) :
    ∃ found after, (CacheHandle.keepFirst slot).find (pair.cacheKey source) s = (.ok found, after) ∧
      after.Agrees (Stored inUse) t ∧
      ∀ tree, found = some tree →
        ∃ nodes, tree = .parsed nodes ∧ parseTemplate source pair = .ok nodes := by
  refine ⟨_, _, CacheHandle.find_keepFirst slot (pair.cacheKey source) s,
    { agrees with caches := agrees.caches.set ?_ }, ?_⟩
  · intro entry member
    rw [TreeCache.entries_find] at member
    exact agrees.caches.mem_entries member
  · intro tree found
    obtain ⟨nodes, there, rfl⟩ := Option.map_eq_some_iff.1 found
    obtain ⟨source', pair', used', key, parsed⟩ :=
      agrees.caches.mem_entries (mem_of_lookup_eq_some there)
    -- The tree was kept for this very source and pair.
    obtain ⟨rfl, rfl⟩ := eq_of_cacheKey_eq apart used used' key
    exact ⟨nodes, rfl, parsed⟩

theorem CacheHandle.insert_keepFirst (slot : Nat) {pair : Delimiters} (used : inUse pair)
    {source : String} {nodes : List Node} (parsed : parseTemplate source pair = .ok nodes) :
    Action.Agree (Stored inUse) ((CacheHandle.keepFirst slot).insert (pair.cacheKey source) nodes)
      (pure ()) := by
  intro s t agrees
  refine ⟨rfl, { agrees with caches := agrees.caches.set ?_ }⟩
  intro entry member
  unfold TreeCache.insert at member
  split at member
  next => exact agrees.caches.mem_entries member
  next =>
    rcases List.mem_cons.1 member with rfl | old
    · exact ⟨source, pair, used, rfl, parsed⟩
    · exact agrees.caches.mem_entries old

theorem Engine.parse_uncached (engine : Engine) (source : String) (pair : Delimiters)
    (name : Option String) :
    engine.uncached.parse source pair name = (do
      Action.record (.treeMissing name source pair)
      let nodes ← Action.ofExcept (parseTemplate source pair name)
      pure (.parsed nodes)) := rfl

theorem Engine.parse_agree (apart : ToldApart inUse) {engine : Engine}
    (keeps : engine.cache = .keepFirst slot) {pair : Delimiters} (used : inUse pair)
    (source : String) (name : Option String) :
    Action.Agree (Stored inUse) (engine.parse source pair name)
      (engine.uncached.parse source pair name) := by
  intro s t agrees
  obtain ⟨found, after, asked, same, known⟩ :=
    CacheHandle.find_stored slot apart used source agrees
  rw [Engine.parse_uncached]
  unfold Engine.parse
  rw [keeps, Action.bind_of_ok asked]
  cases found with
  | some tree =>
    obtain ⟨nodes, rfl, parsed⟩ := known tree rfl
    rw [parseTemplate_anyName parsed]
    exact Action.Agree.bind (.record _ _) (fun _ => .pure (Tree.parsed nodes)) _ _ same
  | none =>
    refine Action.Agree.bind (.record _ _) (fun _ => ?_) _ _ same
    cases parsed : parseTemplate source pair name with
    | error fault => exact .throw fault
    | ok nodes =>
      have kept := CacheHandle.insert_keepFirst slot used (parseTemplate_anyName parsed)
      exact kept.bind fun _ => .pure (Tree.parsed nodes)

theorem CacheHandle.clear_agree {engine : Engine} (keeps : engine.cache = .keepFirst slot) :
    Action.Agree (Stored inUse) engine.cache.clear engine.uncached.cache.clear := by
  rw [keeps]
  intro s t agrees
  exact ⟨rfl, { agrees with caches := agrees.caches.set (by simp) }⟩

end Caches

end Mustache

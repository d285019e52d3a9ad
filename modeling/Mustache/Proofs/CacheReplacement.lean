import Mathlib.Logic.Function.Basic
import Mustache.Proofs.CacheAccounting

set_option autoImplicit false

namespace Mustache

open Mustache.Action (Preserve)

def TreeCache.contents (cache : TreeCache) (key : String) : Option (List Node) :=
  cache.entries.lookup key

def CustomCache.contents (cache : CustomCache) (state : TreeCache) (key : String) :
    Option (List Node) :=
  (cache.find state key).1

/-- A cache that behaves as a map does in states that it can be in: lookups change no answer, an
insertion overwrites what is kept under its key, and nothing is kept after clearing. -/
structure CustomCache.IsMap (cache : CustomCache) (valid : TreeCache → Prop) : Prop where
  find {state : TreeCache} (key : String) : valid state →
    valid (cache.find state key).2 ∧ cache.contents (cache.find state key).2 = cache.contents state
  insert {state : TreeCache} (key : String) (tree : List Node) : valid state →
    valid (cache.insert state key tree) ∧
      cache.contents (cache.insert state key tree) =
        Function.update (cache.contents state) key (some tree)
  clear {state : TreeCache} : valid state →
    valid (cache.clear state) ∧ cache.contents (cache.clear state) = fun _ => none

section Keeping

variable {entries : List (String × List Node)} {key other : String}

theorem lookup_filter_of_ne (apart : other ≠ key) :
    (entries.filter fun entry => entry.1 ≠ key).lookup other = entries.lookup other := by
  induction entries with
  | nil => rfl
  | cons entry rest ih =>
    obtain ⟨name, tree⟩ := entry
    by_cases same : name = key
    · have differs : (other == name) = false := beq_false_of_ne (same ▸ apart)
      simpa [same, List.lookup_cons, same ▸ differs] using ih
    · rw [List.filter_cons_of_pos (by simpa using same), List.lookup_cons, List.lookup_cons, ih]

theorem TreeCache.contents_replace (cache : TreeCache) (key : String) (tree : List Node) :
    (cache.replace key tree).contents = Function.update cache.contents key (some tree) := by
  funext other
  by_cases same : other = key
  · simp [contents, replace, same]
  · have differs : (other == key) = false := beq_false_of_ne same
    simp only [contents, replace, List.lookup_cons, differs, Function.update_of_ne same]
    exact lookup_filter_of_ne same

theorem TreeCache.contents_insert {cache : TreeCache} (missing : cache.contents key = none)
    (tree : List Node) :
    (cache.insert key tree).contents = Function.update cache.contents key (some tree) := by
  funext other
  by_cases same : other = key
  · rw [same, Function.update_self, contents, lookup_insert missing]
  · have differs : (other == key) = false := beq_false_of_ne same
    rw [insert_of_missing missing, Function.update_of_ne same]
    simp only [contents, List.lookup_cons, differs]

theorem CustomCache.keepLast_isMap : CustomCache.keepLast.IsMap fun _ => True where
  find _ _ := ⟨trivial, rfl⟩
  insert key tree _ := ⟨trivial, TreeCache.contents_replace _ key tree⟩
  clear _ := ⟨trivial, rfl⟩

end Keeping

namespace CacheHandle

def slot? : CacheHandle → Option Nat
  | keepFirst slot | custom _ slot => some slot
  | nothing | host _ => none

/-- A handle that keeps the first tree of a key, if it works on the slot at all. -/
def KeepsFirstIn (slot : Nat) (handle : CacheHandle) : Prop :=
  handle.slot? = some slot → handle = .keepFirst slot

/-- Puts another cache in the place of the one that keeps the first trees in a slot. -/
def replaced (slot : Nat) (cache : CustomCache) : CacheHandle → CacheHandle
  | keepFirst place => if place = slot then custom cache slot else keepFirst place
  | handle => handle

end CacheHandle

/-- Two sessions that keep the same trees under each key: the first one keeps the first trees in a
slot, on which another cache works in the second one. -/
structure Session.SameTrees (slot : Nat) (cache : CustomCache) (valid : TreeCache → Prop)
    (first second : Session) : Prop where
  calls : first.calls = second.calls
  nextSerial : first.nextSerial = second.nextSerial
  scope : first.scope = second.scope
  context : first.context = second.context
  elsewhere : ∀ other, other ≠ slot → first.cache other = second.cache other
  slots : first.caches.length = second.caches.length
  room : slot < first.caches.length
  valid : valid (second.cache slot)
  contents : cache.contents (second.cache slot) = (first.cache slot).contents

section Slots

variable {slot : Nat} {cache : CustomCache} {valid : TreeCache → Prop} {s t : Session}

theorem Session.cache_setCache_of_ne {other place : Nat} (apart : other ≠ place)
    (state : TreeCache) : (s.setCache place state).cache other = s.cache other := by
  simp [setCache, Session.cache, List.getElem?_set_ne (Ne.symm apart)]

theorem Session.length_setCache (s : Session) (place : Nat) (state : TreeCache) :
    (s.setCache place state).caches.length = s.caches.length :=
  List.length_set

theorem Session.SameTrees.setCache (same : s.SameTrees slot cache valid t)
    {state state' : TreeCache} (kept : valid state')
    (contents : cache.contents state' = state.contents) :
    (s.setCache slot state).SameTrees slot cache valid (t.setCache slot state') :=
  { same with
    elsewhere := fun other apart => by
      rw [cache_setCache_of_ne apart, cache_setCache_of_ne apart, same.elsewhere other apart]
    slots := by rw [length_setCache, length_setCache, same.slots]
    room := by rw [length_setCache]; exact same.room
    valid := by rwa [cache_setCache (same.slots ▸ same.room)]
    contents := by
      rwa [cache_setCache (same.slots ▸ same.room), cache_setCache same.room] }

theorem Session.SameTrees.setElsewhere (same : s.SameTrees slot cache valid t) {place : Nat}
    (apart : place ≠ slot) (state : TreeCache) :
    (s.setCache place state).SameTrees slot cache valid (t.setCache place state) :=
  { same with
    elsewhere := fun other there => by
      by_cases here : other = place
      · subst here
        simp [Session.setCache, Session.cache, List.getElem?_set, same.slots]
      · rw [cache_setCache_of_ne here, cache_setCache_of_ne here, same.elsewhere other there]
    slots := by rw [length_setCache, length_setCache, same.slots]
    room := by rw [length_setCache]; exact same.room
    valid := by
      rw [cache_setCache_of_ne apart.symm]
      exact same.valid
    contents := by
      rw [cache_setCache_of_ne apart.symm, cache_setCache_of_ne apart.symm]
      exact same.contents }

def Action.onSlot {α : Type} (slot : Nat) (step : TreeCache → α × TreeCache) : Action α :=
  fun s => (.ok (step (s.cache slot)).1, s.setCache slot (step (s.cache slot)).2)

theorem onSlot_sameTrees {α : Type} {place : Nat} (apart : place ≠ slot)
    (step : TreeCache → α × TreeCache) :
    Preserve (Session.SameTrees slot cache valid) (Action.onSlot place step)
      (Action.onSlot place step) := by
  intro s t same
  simp only [Action.onSlot, ← same.elsewhere place apart]
  exact ⟨trivial, same.setElsewhere apart _⟩

theorem scopeShared_sameTrees (slot : Nat) (cache : CustomCache) (valid : TreeCache → Prop) :
    ScopeShared (Session.SameTrees slot cache valid) where
  scope same := same.scope
  withScope _ same := { same with scope := rfl }
  record _ same := { same with }

theorem onShared_sameTrees {α : Type} (step : Session.Shared → α × Session.Shared) :
    Preserve (Session.SameTrees slot cache valid) (Action.onShared step)
      (Action.onShared step) := by
  intro s t same
  have shared : s.shared = t.shared := by
    simp only [Session.shared, same.calls, same.nextSerial, same.context]
  unfold Action.onShared
  rw [shared]
  exact ⟨rfl, { same with calls := rfl, nextSerial := rfl, context := rfl }⟩

theorem sameTrees_inStep (slot : Nat) (cache : CustomCache) (valid : TreeCache → Prop) :
    CatchInStep fun _ => Preserve (Session.SameTrees slot cache valid) :=
  Preserve.inStep (scopeShared_sameTrees slot cache valid) fun _ => onShared_sameTrees _

end Slots

section Handles

variable {slot : Nat} {cache : CustomCache} {valid : TreeCache → Prop} {handle : CacheHandle}

theorem CacheHandle.replaced_elsewhere (elsewhere : handle.slot? ≠ some slot) :
    handle.replaced slot cache = handle := by
  cases handle with
  | keepFirst place =>
    have apart : place ≠ slot := fun same => elsewhere (congrArg some same)
    simp [replaced, apart]
  | _ => rfl

theorem CacheHandle.replaced_keepFirst :
    (CacheHandle.keepFirst slot).replaced slot cache = .custom cache slot := by
  simp [replaced]

section Elsewhere

variable (elsewhere : handle.slot? ≠ some slot)

include elsewhere

theorem CacheHandle.find_sameTrees (key : String) :
    Preserve (Session.SameTrees slot cache valid) (handle.find key) (handle.find key) := by
  have steps := sameTrees_inStep slot cache valid
  cases handle with
  | nothing => exact .pure none
  | keepFirst place =>
    have apart : place ≠ slot := fun same => elsewhere (congrArg some same)
    let found (state : TreeCache) : Option Tree × TreeCache :=
      ((state.find key).1.map .parsed, (state.find key).2)
    exact onSlot_sameTrees apart found
  | custom other place =>
    have apart : place ≠ slot := fun same => elsewhere (congrArg some same)
    let found (state : TreeCache) : Option Tree × TreeCache :=
      ((other.find state key).1.map .parsed, (other.find state key).2)
    exact onSlot_sameTrees apart found
  | host value =>
    refine .bind (callAttribute_inStep steps.toInStep (Closure.call_inStep steps) _ _ _) ?_
    intro answer
    split <;> exact .pure _

theorem CacheHandle.insert_sameTrees (key : String) (tree : List Node) :
    Preserve (Session.SameTrees slot cache valid) (handle.insert key tree)
      (handle.insert key tree) := by
  have steps := sameTrees_inStep slot cache valid
  cases handle with
  | nothing => exact .pure ()
  | keepFirst place =>
    have apart : place ≠ slot := fun same => elsewhere (congrArg some same)
    exact onSlot_sameTrees apart fun state => ((), state.insert key tree)
  | custom other place =>
    have apart : place ≠ slot := fun same => elsewhere (congrArg some same)
    exact onSlot_sameTrees apart fun state => ((), other.insert state key tree)
  | host value =>
    refine .bind (callAttribute_inStep steps.toInStep (Closure.call_inStep steps) _ _ _) ?_
    exact fun _ => .pure ()

theorem CacheHandle.clear_sameTrees :
    Preserve (Session.SameTrees slot cache valid) handle.clear handle.clear := by
  have steps := sameTrees_inStep slot cache valid
  cases handle with
  | nothing => exact .pure ()
  | keepFirst place =>
    have apart : place ≠ slot := fun same => elsewhere (congrArg some same)
    exact onSlot_sameTrees apart fun _ => ((), {})
  | custom other place =>
    have apart : place ≠ slot := fun same => elsewhere (congrArg some same)
    exact onSlot_sameTrees apart fun state => ((), other.clear state)
  | host value =>
    refine .bind (callAttribute_inStep steps.toInStep (Closure.call_inStep steps) _ _ _) ?_
    exact fun _ => .pure ()

end Elsewhere

variable (isMap : cache.IsMap valid)

include isMap

theorem CacheHandle.find_replaced (key : String) {s t : Session}
    (same : s.SameTrees slot cache valid t) :
    ∃ found after after',
      (CacheHandle.keepFirst slot).find key s = (.ok found, after) ∧
      (CacheHandle.custom cache slot).find key t = (.ok found, after') ∧
      after.SameTrees slot cache valid after' ∧
      (found = none → (after.cache slot).contents key = none) := by
  have answer : (cache.find (t.cache slot) key).1 = (s.cache slot).contents key :=
    congrFun same.contents key
  obtain ⟨kept, unchanged⟩ := isMap.find key same.valid
  have entries : ((s.cache slot).find key).2.contents = (s.cache slot).contents := by
    funext other
    exact congrArg (List.lookup other) (TreeCache.entries_find _ key)
  refine ⟨_, _, t.setCache slot (cache.find (t.cache slot) key).2,
    CacheHandle.find_keepFirst slot key s, ?_, ?_, ?_⟩
  · change (Except.ok ((cache.find (t.cache slot) key).1.map Tree.parsed), _) = _
    rw [answer]
    rfl
  · exact same.setCache kept (unchanged.trans (same.contents.trans entries.symm))
  · intro missed
    rw [Session.cache_setCache same.room, entries]
    exact Option.map_eq_none_iff.1 missed

theorem CacheHandle.insert_replaced {key : String} {s t : Session}
    (same : s.SameTrees slot cache valid t) (missing : (s.cache slot).contents key = none)
    (tree : List Node) :
    ((CacheHandle.keepFirst slot).insert key tree s).2.SameTrees slot cache valid
      ((CacheHandle.custom cache slot).insert key tree t).2 := by
  obtain ⟨kept, overwritten⟩ := isMap.insert key tree same.valid
  refine same.setCache kept ?_
  rw [overwritten, same.contents, TreeCache.contents_insert missing]

theorem CacheHandle.clear_replaced (first : handle.KeepsFirstIn slot) :
    Preserve (Session.SameTrees slot cache valid) handle.clear
      (handle.replaced slot cache).clear := by
  by_cases here : handle.slot? = some slot
  · rw [first here, replaced_keepFirst]
    intro s t same
    obtain ⟨kept, cleared⟩ := isMap.clear same.valid
    exact ⟨rfl, same.setCache kept cleared⟩
  · rw [replaced_elsewhere here]
    exact clear_sameTrees here

end Handles

def Engine.replaced (slot : Nat) (cache : CustomCache) (engine : Engine) : Engine :=
  { engine with cache := engine.cache.replaced slot cache }

section Engines

variable {slot : Nat} {cache : CustomCache} {valid : TreeCache → Prop} (isMap : cache.IsMap valid)

include isMap

theorem Engine.parse_replaced {engine : Engine} (first : engine.cache.KeepsFirstIn slot)
    (source : String) (pair : Delimiters) (name : Option String) :
    Preserve (Session.SameTrees slot cache valid) (engine.parse source pair name)
      ((engine.replaced slot cache).parse source pair name) := by
  have shared := scopeShared_sameTrees slot cache valid
  unfold parse
  by_cases here : engine.cache.slot? = some slot
  · intro s t same
    rw [replaced, first here, CacheHandle.replaced_keepFirst]
    obtain ⟨found, after, after', asked, asked', still, missing⟩ :=
      CacheHandle.find_replaced isMap (pair.cacheKey source) same
    rw [Action.bind_of_ok asked, Action.bind_of_ok asked']
    cases found with
    | some tree =>
      exact Preserve.bind (Preserve.record shared _) (fun _ => .pure tree) _ _ still
    | none =>
      -- Nothing is kept between the miss and the insertion.
      cases parsed : parseTemplate source pair name with
      | error fault => exact ⟨rfl, shared.record _ still⟩
      | ok nodes =>
        exact ⟨rfl, CacheHandle.insert_replaced isMap (shared.record _ still) (missing rfl) nodes⟩
  · rw [replaced, CacheHandle.replaced_elsewhere here]
    refine .bind (CacheHandle.find_sameTrees here _) fun found => ?_
    cases found with
    | some tree => exact .bind (.record shared _) fun _ => .pure tree
    | none =>
      refine .bind (.record shared _) fun _ => ?_
      refine .bind (.ofExcept _) fun nodes => ?_
      exact .bind (CacheHandle.insert_sameTrees here _ nodes) fun _ => .pure _

end Engines

end Mustache

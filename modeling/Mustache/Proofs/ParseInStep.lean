import Mustache.Proofs.InStep
import Mustache.Proofs.Nesting

set_option autoImplicit false

namespace Mustache

def Action.onCaches {α : Type} (step : List TreeCache → α × List TreeCache) : Action α :=
  fun s => (.ok (step s.caches).1, { s with caches := (step s.caches).2 })

def Event.OfParse : Event → Prop
  | .treeFound _ _ _ | .treeMissing _ _ _ => True
  | _ => False

structure CachesInStep (R : ActionRelation) : Prop extends CatchInStep R where
  onCaches {α : Type} (step : List TreeCache → α × List TreeCache) :
    R (Action.onCaches step) (Action.onCaches step)
  recordParse (event : Event) : event.OfParse → R (Action.record event) (Action.record event)

theorem ordinary_of_parseTemplate {source : String} {pair : Delimiters} {name : Option String}
    {fault : Fault} (failed : parseTemplate source pair name = .error fault) : fault.Ordinary := by
  obtain ⟨cause, rfl⟩ | ⟨shown, rfl⟩ := fault_of_parseTemplate failed <;> trivial

theorem Delimiters.refuse_ordinary (tags : Value) : (refuse tags).Ordinary := by
  unfold refuse
  split <;> trivial

theorem ordinary_of_ofValue {tags : Value} {fault : Fault}
    (failed : Delimiters.ofValue tags = .error fault) : fault.Ordinary := by
  unfold Delimiters.ofValue at failed
  split at failed
  next => cases failed
  next =>
    split at failed <;> cases failed
    trivial
  next =>
    split at failed
    next =>
      split at failed <;> cases failed
      exact Delimiters.refuse_ordinary tags
    next =>
      cases failed
      exact Delimiters.refuse_ordinary tags

theorem ordinary_of_pairFor {engine : Engine} {tags : Value} {fault : Fault}
    (failed : engine.pairFor tags = .error fault) : fault.Ordinary := by
  unfold Engine.pairFor at failed
  split at failed
  next => cases failed
  next => exact ordinary_of_ofValue failed

theorem CacheHandle.find_eq_onCaches {cache : CacheHandle} (own : ∀ value, cache ≠ .host value)
    (key : String) : ∃ step, cache.find key = Action.onCaches step := by
  cases cache with
  | nothing => exact ⟨fun caches => (none, caches), rfl⟩
  | keepFirst slot =>
    let found (caches : List TreeCache) : Option Tree × List TreeCache :=
      let found := (caches[slot]?.getD {}).find key
      (found.1.map .parsed, caches.set slot found.2)
    exact ⟨found, rfl⟩
  | custom cache slot =>
    let found (caches : List TreeCache) : Option Tree × List TreeCache :=
      let found := cache.find (caches[slot]?.getD {}) key
      (found.1.map .parsed, caches.set slot found.2)
    exact ⟨found, rfl⟩
  | host value => exact absurd rfl (own value)

theorem CacheHandle.insert_eq_onCaches {cache : CacheHandle} (own : ∀ value, cache ≠ .host value)
    (key : String) (tree : List Node) : ∃ step, cache.insert key tree = Action.onCaches step := by
  cases cache with
  | nothing => exact ⟨fun caches => ((), caches), rfl⟩
  | keepFirst slot =>
    exact ⟨fun caches => ((), caches.set slot ((caches[slot]?.getD {}).insert key tree)), rfl⟩
  | custom cache slot =>
    exact ⟨fun caches => ((), caches.set slot (cache.insert (caches[slot]?.getD {}) key tree)), rfl⟩
  | host value => exact absurd rfl (own value)

theorem CacheHandle.host_or_own (cache : CacheHandle) :
    (∃ value, cache = .host value) ∨ ∀ value, cache ≠ .host value := by
  cases cache <;> simp

section Caches

variable {R : ActionRelation} (steps : CachesInStep R)

include steps

theorem CacheHandle.find_inStep (key : String) (cache : CacheHandle) :
    R (cache.find key) (cache.find key) := by
  obtain ⟨value, rfl⟩ | own := cache.host_or_own
  · have calls := Closure.call_inStep steps.toCatchInStep
    refine steps.bind (callAttribute_inStep steps.toInStep calls _ _ _) fun answer => ?_
    split <;> exact steps.pure _
  · obtain ⟨step, same⟩ := find_eq_onCaches own key
    rw [same]
    exact steps.onCaches step

theorem CacheHandle.insert_inStep (key : String) (tree : List Node) (cache : CacheHandle) :
    R (cache.insert key tree) (cache.insert key tree) := by
  obtain ⟨value, rfl⟩ | own := cache.host_or_own
  · have calls := Closure.call_inStep steps.toCatchInStep
    exact steps.bind (callAttribute_inStep steps.toInStep calls _ _ _) fun _ => steps.pure _
  · obtain ⟨step, same⟩ := insert_eq_onCaches own key tree
    rw [same]
    exact steps.onCaches step

theorem Engine.parse_inStep (engine : Engine) (source : String) (pair : Delimiters)
    (name : Option String) :
    R (engine.parse source pair name) (engine.parse source pair name) := by
  unfold Engine.parse
  refine steps.bind (engine.cache.find_inStep steps _) fun found => ?_
  cases found with
  | some tree => exact steps.bind (steps.recordParse _ trivial) fun _ => steps.pure tree
  | none =>
    refine steps.bind (steps.recordParse _ trivial) fun _ => ?_
    refine steps.bind (steps.ofExcept fun _ => ordinary_of_parseTemplate) fun nodes => ?_
    exact steps.bind (engine.cache.insert_inStep steps _ nodes) fun _ => steps.pure _

end Caches

end Mustache

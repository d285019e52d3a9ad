import Mathlib.Data.List.Dedup
import Mustache.Proofs.Caching
import Mustache.Proofs.ParseInStep

set_option autoImplicit false

namespace Mustache

namespace Event

def asked? : Event → Option String
  | .treeFound _ source pair | .treeMissing _ source pair => some (pair.cacheKey source)
  | _ => none

/-- The key of a parse that succeeds, with a tree that is found or with one that is made. -/
def parsed? : Event → Option String
  | .treeFound _ source pair => some (pair.cacheKey source)
  | .treeMissing name source pair =>
      match parseTemplate source pair name with
      | .ok _ => some (pair.cacheKey source)
      | .error _ => none
  | _ => none

theorem asked?_of_not_ofParse {event : Event} (other : ¬ event.OfParse) : event.asked? = none := by
  cases event <;> first | rfl | exact absurd trivial other

theorem parsed?_of_not_ofParse {event : Event} (other : ¬ event.OfParse) :
    event.parsed? = none := by
  cases event <;> first | rfl | exact absurd trivial other

theorem Ordinary.not_ofParse {event : Event} (ordinary : event.Ordinary) : ¬ event.OfParse := by
  cases event <;> first | exact id | cases ordinary

end Event

namespace TreeCache

def keys (cache : TreeCache) : List String :=
  cache.entries.map Prod.fst

def countHit (cache : TreeCache) : TreeCache :=
  { cache with hits := cache.hits + 1 }

def countMiss (cache : TreeCache) : TreeCache :=
  { cache with misses := cache.misses + 1 }

inductive Turns (cache : TreeCache) : Event → TreeCache → Prop
  | other {event : Event} : ¬ event.OfParse → Turns cache event cache
  | found {name : Option String} {source : String} {pair : Delimiters} {nodes : List Node} :
      cache.entries.lookup (pair.cacheKey source) = some nodes →
      Turns cache (.treeFound name source pair) cache.countHit
  | failed {name : Option String} {source : String} {pair : Delimiters} {fault : Fault} :
      parseTemplate source pair name = .error fault →
      Turns cache (.treeMissing name source pair) cache.countMiss
  | kept {name : Option String} {source : String} {pair : Delimiters} {nodes : List Node} :
      cache.entries.lookup (pair.cacheKey source) = none →
      parseTemplate source pair name = .ok nodes →
      Turns cache (.treeMissing name source pair)
        (cache.countMiss.insert (pair.cacheKey source) nodes)

inductive Leads (cache : TreeCache) : List Event → TreeCache → Prop
  | start : Leads cache [] cache
  | turn {earlier : List Event} {now next : TreeCache} {event : Event} : Leads cache earlier now →
      now.Turns event next → Leads cache (event :: earlier) next

/-- The counts, keys and trees of a cache are those of the parses since it was empty. -/
structure Accounts (cache : TreeCache) (happened : List Event) : Prop where
  asked : cache.hits + cache.misses = (happened.filterMap Event.asked?).length
  size : cache.size = (happened.filterMap Event.parsed?).dedup.length
  size_le : cache.size ≤ cache.misses
  trees : ∀ entry ∈ cache.entries, ∃ source pair,
    entry.1 = pair.cacheKey source ∧ parseTemplate source pair = .ok entry.2

structure Gains (cache : TreeCache) (happened : List Event) (after : TreeCache) : Prop where
  added : ∃ added, after.entries = added ++ cache.entries ∧ ∀ entry ∈ added,
    ∃ name source pair, .treeMissing name source pair ∈ happened ∧
      entry.1 = pair.cacheKey source ∧ parseTemplate source pair name = .ok entry.2
  kept : ∀ key nodes, cache.entries.lookup key = some nodes → after.entries.lookup key = some nodes

structure Ledger (cache : TreeCache) (happened : List Event) : Prop where
  asked : cache.hits + cache.misses = (happened.filterMap Event.asked?).length
  keys : ∀ key, key ∈ cache.keys ↔ key ∈ happened.filterMap Event.parsed?
  nodup : cache.keys.Nodup
  size_le : cache.size ≤ cache.misses
  trees : ∀ entry ∈ cache.entries, ∃ source pair,
    entry.1 = pair.cacheKey source ∧ parseTemplate source pair = .ok entry.2

theorem mem_keys_of_lookup {cache : TreeCache} {key : String} {nodes : List Node}
    (there : cache.entries.lookup key = some nodes) : key ∈ cache.keys :=
  List.mem_map_of_mem (mem_of_lookup_eq_some there)

theorem not_mem_keys_of_lookup {cache : TreeCache} {key : String}
    (missing : cache.entries.lookup key = none) : key ∉ cache.keys := by
  intro member
  obtain ⟨entry, inside, rfl⟩ := List.mem_map.1 member
  have other := List.lookup_eq_none_iff.1 missing entry inside
  simp at other

theorem insert_of_missing {cache : TreeCache} {key : String}
    (missing : cache.entries.lookup key = none) (nodes : List Node) :
    cache.insert key nodes = { cache with entries := (key, nodes) :: cache.entries } := by
  simp [insert, contains, missing]

section Leading

variable {cache between after : TreeCache} {earlier later happened : List Event} {event : Event}

theorem Leads.trans (first : cache.Leads earlier between) (second : between.Leads later after) :
    cache.Leads (later ++ earlier) after := by
  induction second with
  | start => exact first
  | turn _ turns ih => exact .turn ih turns

theorem Gains.trans (first : cache.Gains earlier between) (second : between.Gains later after) :
    cache.Gains (later ++ earlier) after := by
  obtain ⟨added, entries, each⟩ := first.added
  obtain ⟨more, entries', each'⟩ := second.added
  refine ⟨⟨more ++ added, ?_, ?_⟩, fun key nodes there => second.kept _ _ (first.kept _ _ there)⟩
  · rw [entries', entries, List.append_assoc]
  · intro entry member
    rcases List.mem_append.1 member with inside | inside
    · obtain ⟨name, source, pair, happens, made⟩ := each' entry inside
      exact ⟨name, source, pair, List.mem_append_left _ happens, made⟩
    · obtain ⟨name, source, pair, happens, made⟩ := each entry inside
      exact ⟨name, source, pair, List.mem_append_right _ happens, made⟩

theorem Gains.of_entries (same : after.entries = cache.entries) : cache.Gains happened after :=
  ⟨⟨[], same, List.forall_mem_nil _⟩, fun key nodes there => by rwa [same]⟩

theorem Turns.gains (turns : cache.Turns event after) : cache.Gains [event] after := by
  cases turns with
  | other _ => exact .of_entries rfl
  | found _ => exact .of_entries rfl
  | failed _ => exact .of_entries rfl
  | @kept name source pair nodes missing parsed =>
    rw [@insert_of_missing cache.countMiss _ missing]
    refine ⟨⟨[(pair.cacheKey source, nodes)], rfl, ?_⟩, fun key tree there => ?_⟩
    · rw [List.forall_mem_singleton]
      exact ⟨name, source, pair, List.mem_singleton_self _, rfl, parsed⟩
    · have other : key ≠ pair.cacheKey source := by
        rintro rfl
        rw [missing] at there
        cases there
      rw [List.lookup_cons, beq_false_of_ne other]
      exact there

theorem Leads.gains (leads : cache.Leads happened after) : cache.Gains happened after := by
  induction leads with
  | start => exact .of_entries rfl
  | turn _ turns ih => exact ih.trans turns.gains

theorem Ledger.empty : Ledger {} [] :=
  ⟨rfl, by simp [TreeCache.keys], List.nodup_nil, Nat.le_refl _, List.forall_mem_nil _⟩

theorem Ledger.turn (ledger : cache.Ledger earlier) (turns : cache.Turns event after) :
    after.Ledger (event :: earlier) := by
  cases turns with
  | other notParse =>
    refine { ledger with asked := ?_, keys := fun key => ?_ }
    · rw [List.filterMap_cons_none (Event.asked?_of_not_ofParse notParse)]
      exact ledger.asked
    · rw [List.filterMap_cons_none (Event.parsed?_of_not_ofParse notParse)]
      exact ledger.keys key
  | @found name source pair nodes there =>
    refine { ledger with asked := ?_, keys := fun key => ?_ }
    · have asked := ledger.asked
      simp only [countHit, List.filterMap_cons, Event.asked?, List.length_cons]
      omega
    · simp only [List.filterMap_cons, Event.parsed?, List.mem_cons, ← ledger.keys]
      refine ⟨.inr, ?_⟩
      rintro (rfl | old)
      · exact mem_keys_of_lookup there
      · exact old
  | failed refused =>
    refine { ledger with asked := ?_, keys := fun key => ?_, size_le := ?_ }
    · have asked := ledger.asked
      simp only [countMiss, List.filterMap_cons, Event.asked?, List.length_cons]
      omega
    · simp only [List.filterMap_cons, Event.parsed?, refused]
      exact ledger.keys key
    · exact Nat.le_succ_of_le ledger.size_le
  | @kept name source pair nodes missing parsed =>
    rw [@insert_of_missing cache.countMiss _ missing]
    refine ⟨?_, fun key => ?_, ?_, ?_, ?_⟩
    · have asked := ledger.asked
      simp only [countMiss, List.filterMap_cons, Event.asked?, List.length_cons]
      omega
    · simp only [List.filterMap_cons, Event.parsed?, parsed, List.mem_cons, ← ledger.keys]
      simp [TreeCache.keys, countMiss]
    · exact List.nodup_cons.2 ⟨not_mem_keys_of_lookup missing, ledger.nodup⟩
    · exact Nat.succ_le_succ ledger.size_le
    · rw [List.forall_mem_cons]
      exact ⟨⟨source, pair, rfl, parseTemplate_anyName parsed⟩, ledger.trees⟩

theorem Leads.ledger (leads : Leads {} happened after) : after.Ledger happened := by
  induction leads with
  | start => exact .empty
  | turn _ turns ih => exact ih.turn turns

theorem Ledger.accounts (ledger : cache.Ledger happened) : cache.Accounts happened where
  asked := ledger.asked
  size := by
    have same : cache.keys.Perm (happened.filterMap Event.parsed?).dedup :=
      (List.perm_ext_iff_of_nodup ledger.nodup (List.nodup_dedup _)).2 fun key => by
        rw [List.mem_dedup]
        exact ledger.keys key
    rw [← same.length_eq, TreeCache.keys, List.length_map]
    rfl
  size_le := ledger.size_le
  trees := ledger.trees

end Leading

end TreeCache

structure Session.LeadsTo (slot : Nat) (s after : Session) : Prop where
  slots : after.caches.length = s.caches.length
  leads : ∃ happened, after.log = happened ++ s.log ∧
    (s.cache slot).Leads happened (after.cache slot)

namespace Session.LeadsTo

variable {slot : Nat} {s between after : Session}

theorem of_eq (caches : after.caches = s.caches) (silent : after.log = s.log) :
    s.LeadsTo slot after := by
  have same : after.cache slot = s.cache slot := by
    rw [Session.cache, caches]
    rfl
  refine ⟨congrArg List.length caches, [], silent, ?_⟩
  rw [same]
  exact .start

theorem trans (first : s.LeadsTo slot between) (second : between.LeadsTo slot after) :
    s.LeadsTo slot after := by
  obtain ⟨earlier, grown, leads⟩ := first.leads
  obtain ⟨later, grownLater, leadsLater⟩ := second.leads
  refine ⟨second.slots.trans first.slots, later ++ earlier, ?_, leads.trans leadsLater⟩
  rw [grownLater, grown, List.append_assoc]

theorem turn {cache : TreeCache} {event : Event} (room : slot < s.caches.length)
    (turns : (s.cache slot).Turns event cache) :
    s.LeadsTo slot { s.setCache slot cache with log := event :: s.log } := by
  refine ⟨List.length_set, [event], rfl, .turn .start ?_⟩
  have there := Session.cache_setCache room cache
  rwa [← there] at turns

end Session.LeadsTo

namespace Action

variable {slot : Nat} {α β : Type}

def KeepsLedger (slot : Nat) (action : Action α) : Prop :=
  ∀ s : Session, slot < s.caches.length → s.LeadsTo slot (action s).2

namespace KeepsLedger

theorem quiet {action : Action α} (caches : ∀ s, (action s).2.caches = s.caches)
    (silent : ∀ s, (action s).2.log = s.log) : action.KeepsLedger slot :=
  fun s _ => .of_eq (caches s) (silent s)

theorem record {event : Event} (other : ¬ event.OfParse) :
    (Action.record event).KeepsLedger slot :=
  fun _ _ => ⟨rfl, [event], rfl, .turn .start (.other other)⟩

theorem bind {action : Action α} {next : α → Action β} (keeps : action.KeepsLedger slot)
    (onward : ∀ value, (next value).KeepsLedger slot) :
    (action >>= next).KeepsLedger slot := by
  intro s room
  have first := keeps s room
  cases ran : action s with
  | mk outcome after =>
    rw [ran] at first
    cases outcome with
    | ok value =>
      rw [bind_of_ok ran]
      exact first.trans (onward value after (first.slots.symm ▸ room))
    | error fault =>
      rw [bind_of_error ran]
      exact first

theorem attempt {action : Action α} {next : Except Fault α → Action β}
    (keeps : action.KeepsLedger slot) (onward : ∀ outcome, (next outcome).KeepsLedger slot) :
    (Action.attempt action >>= next).KeepsLedger slot := by
  have attempted : (Action.attempt action).KeepsLedger slot := keeps
  exact attempted.bind onward

theorem ofExcept (outcome : Except Fault α) : (Action.ofExcept outcome).KeepsLedger slot := by
  cases outcome <;> exact quiet (fun _ => rfl) fun _ => rfl

theorem inStep : CatchInStep fun _ action _ => action.KeepsLedger slot where
  pure _ := quiet (fun _ => rfl) fun _ => rfl
  throw _ _ := quiet (fun _ => rfl) fun _ => rfl
  bind := bind
  onShared _ := quiet (fun _ => rfl) fun _ => rfl
  record _ ordinary := record ordinary.not_ofParse
  recordCall s := @record slot (.called s.scope) id s
  ask field := @record slot (.scopeRead field) id
  attempt keeps onward failed := keeps.attempt fun outcome => by
    cases outcome with
    | ok value => exact onward value
    | error fault => exact failed fault (quiet (fun _ => rfl) fun _ => rfl)

theorem parse {engine : Engine} (shares : engine.cache = .keepFirst slot) (source : String)
    (pair : Delimiters) (name : Option String) :
    (engine.parse source pair name).KeepsLedger slot := by
  intro s room
  unfold Engine.parse
  rw [shares, bind_of_ok (CacheHandle.find_keepFirst slot (pair.cacheKey source) s)]
  cases there : (s.cache slot).entries.lookup (pair.cacheKey source) with
  | some nodes =>
    have found : ((s.cache slot).find (pair.cacheKey source)).2 = (s.cache slot).countHit := by
      rw [TreeCache.find, there]
      rfl
    rw [found]
    exact .turn room (.found there)
  | none =>
    have missed : ((s.cache slot).find (pair.cacheKey source)).2 = (s.cache slot).countMiss := by
      rw [TreeCache.find, there]
      rfl
    rw [missed]
    cases parsed : parseTemplate source pair name with
    | error fault => exact .turn room (.failed parsed)
    | ok nodes =>
      let asked : Session :=
        { s.setCache slot (s.cache slot).countMiss with
          log := .treeMissing name source pair :: s.log }
      have same : asked.cache slot = (s.cache slot).countMiss := Session.cache_setCache room _
      have turned := Session.LeadsTo.turn room (.kept there parsed)
      change s.LeadsTo slot (asked.setCache slot ((asked.cache slot).insert _ nodes))
      rw [same, Session.setCache]
      simpa only [asked, Session.setCache, List.set_set] using turned

section Around

variable {action : Action α} (keeps : action.KeepsLedger slot)

include keeps

theorem inScope (scope : Scope) : (Action.inScope scope action).KeepsLedger slot := by
  intro s room
  obtain ⟨slots, leads⟩ := keeps { s with scope := some scope } room
  exact ⟨slots, leads⟩

theorem inContext (context : Context) : (Action.inContext context action).KeepsLedger slot := by
  intro s room
  obtain ⟨slots, leads⟩ := keeps { s with context } room
  exact ⟨slots, leads⟩

theorem inFrame (view : Value) : (Action.inFrame view action).KeepsLedger slot :=
  fun s => keeps.inContext (s.context.push view) s

theorem inRender (engine : Engine) (name : Option String) :
    (engine.inRender name action).KeepsLedger slot := by
  intro s
  cases within : s.scope with
  | none =>
    rw [engine.inRender_outside name action within]
    exact keeps.inScope _ s
  | some scope =>
    rw [engine.inRender_within name action within]
    exact keeps s

theorem whileOpen (name : String) : (Action.whileOpen name action).KeepsLedger slot := by
  refine bind (record id) fun _ => ?_
  exact bind keeps fun value => bind (record id) fun _ => quiet (fun _ => rfl) fun _ => rfl

theorem inPartial (name : String) : (Action.inPartial name action).KeepsLedger slot := by
  intro s
  cases within : s.scope with
  | none =>
    rw [inPartial_outside name action within]
    exact keeps.whileOpen name s
  | some scope =>
    rw [inPartial_within name action within]
    exact (ofExcept (scope.check name)).bind
      (fun _ => (keeps.inScope (scope.child name)).whileOpen name) s

end Around

end KeepsLedger

end Action

open Mustache.Action (KeepsLedger)

theorem Job.keepsLedger (slot : Nat) :
    TreesInStep (fun _ : Unit => fun _ action _ => KeepsLedger slot action)
      (fun _ : Unit => fun _ action _ => KeepsLedger slot action) (fun _ _ => ()) id
      (fun job _ => job.engine.cache = .keepFirst slot) where
  steps _ := KeepsLedger.inStep.toInStep
  catches _ := KeepsLedger.inStep
  find _ _ := .quiet (fun _ => rfl) fun _ => rfl
  weaken := id
  escaper _ := rfl
  partials _ := rfl
  source _ := rfl
  withSource _ _ := rfl
  part shares _ := shares
  inFrame view keeps := keeps.inFrame view
  inRender job keeps := keeps.inRender job.engine none
  inPartial name keeps := keeps.inPartial name
  parse source shares onward answered := by
    refine (KeepsLedger.parse shares source _ none).bind fun tree => ?_
    cases tree with
    | parsed nodes => exact onward nodes shares
    | foreign answer => exact answered answer
  lambda _ _ _ := .record id
  sourceless _ _ _ := .quiet (fun _ => rfl) fun _ => rfl

namespace Engine

section Sharing

variable {engine : Engine} {slot : Nat} (shares : engine.cache = .keepFirst slot)

include shares

theorem renderTree_keepsLedger (depth : Nat) (tree : Tree) (view partials : Value)
    (source : Option String) (pair : Delimiters) (name : Option String) :
    (engine.renderTree depth tree view partials source pair name).KeepsLedger slot := by
  have walk := Job.keepsLedger slot
  have start : (Job.start depth ⟨engine, partials, source, pair⟩ tree).KeepsLedger slot :=
    walk.renderTree (walk.render_same depth) () fun _ _ => shares
  exact (start.inRender engine name).inContext (.ofView view)

theorem render_keepsLedger (depth : Nat) (template view partials tags : Value) :
    (engine.render depth template view partials tags).KeepsLedger slot := by
  unfold render
  split
  next source =>
    refine (KeepsLedger.ofExcept _).bind fun pair => ?_
    refine (KeepsLedger.parse shares source pair none).bind fun tree => ?_
    exact renderTree_keepsLedger shares depth tree view partials _ pair none
  next => exact .quiet (fun _ => rfl) fun _ => rfl

theorem template_keepsLedger (source : Value) (name : Option String) (tags : Value) :
    (engine.template source name tags).KeepsLedger slot := by
  unfold template
  split
  next source =>
    refine (KeepsLedger.ofExcept _).bind fun pair => ?_
    refine (KeepsLedger.parse shares source pair name).bind fun tree => ?_
    exact .quiet (fun _ => rfl) fun _ => rfl
  next => exact .quiet (fun _ => rfl) fun _ => rfl

theorem loadTemplate_keepsLedger (name : String) :
    (engine.loadTemplate name).KeepsLedger slot := by
  unfold loadTemplate
  split
  · refine KeepsLedger.bind (loadSource_inStep KeepsLedger.inStep _ name) fun source => ?_
    exact template_keepsLedger shares source (some name) .null
  · exact .quiet (fun _ => rfl) fun _ => rfl

end Sharing

end Engine

end Mustache

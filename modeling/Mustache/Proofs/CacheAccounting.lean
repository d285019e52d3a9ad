import Mustache.Proofs.CacheLedger

set_option autoImplicit false

namespace Mustache

open Mustache.Action (KeepsLedger)

/-- What is asked of engines: an operation, the rendering of a tree, a look at the counts of the
cache, or settings other than tags and cache. -/
inductive Request where
  | operation (operation : Operation)
  | renderTree (engine : Nat) (tree : Tree) (view partials : Value) (source : Option String)
      (pair : Delimiters) (name : Option String)
  | cacheInfo (engine : Nat)
  | configure (engine : Nat) (escaper : Escaper) (loader : Value) (maxPartialDepth : Option Int)

namespace World

def configure (world : World) (place : Nat) (escaper : Escaper) (loader : Value)
    (maxPartialDepth : Option Int) : World :=
  match world.engines[place]? with
  | none => world
  | some engine =>
      { world with
        engines := world.engines.set place { engine with escaper, loader, maxPartialDepth } }

def serve (depth : Nat) (world : World) : Request → Except Fault Unit × World
  | .operation operation => silently (world.step depth operation)
  | .renderTree place tree view partials source pair name =>
      silently (world.ask place fun engine => do
        let output ← engine.renderTree depth tree view partials source pair name
        pure (.text output))
  | .cacheInfo place =>
      silently (world.ask place fun engine => do
        let _ ← engine.cache.info
        pure .done)
  | .configure place escaper loader maxPartialDepth =>
      (.ok (), world.configure place escaper loader maxPartialDepth)
where
  -- Only whether a request fails counts here, not what it is answered.
  silently (served : Except Fault Answer × World) : Except Fault Unit × World :=
    (served.1.map fun _ => (), served.2)

def after (depth : Nat) (world : World) : List Request → World
  | [] => world
  | request :: rest => after depth (world.serve depth request).2 rest

end World

def Request.clears (world : World) : Request → Bool
  | .operation (.clearCache place) => place < world.engines.length
  | _ => false

/-- Whether an engine turns a template down before it parses: it is no text, or the tags are no
pair. -/
def Engine.refuses (engine : Engine) (template tags : Value) : Bool :=
  match template with
  | .str _ => !(engine.pairFor tags).isOk
  | _ => true

def Request.refused (world : World) : Request → Bool
  | .operation (.render place template _ _ tags)
  | .operation (.fromString place template _ tags) =>
      world.engines[place]?.any fun engine => engine.refuses template tags
  | .operation (.parse place source tags _) =>
      world.engines[place]?.any fun engine => engine.refuses (.str source) tags
  | _ => false

/-- The world as it was when a cache was last cleared, or at the beginning of the history. -/
def World.lastCleared (depth : Nat) (begun world : World) : List Request → World
  | [] => begun
  | request :: rest =>
      let next := (world.serve depth request).2
      lastCleared depth (if request.clears world then next else begun) next rest

structure World.Shares (slot : Nat) (world : World) : Prop where
  shares : ∀ engine ∈ world.engines, engine.cache = .keepFirst slot
  room : slot < world.session.caches.length

/-- The engines of a later world still share the slot, to whose cache is done what the log tells. -/
structure World.LeadsTo (slot : Nat) (world next : World) : Prop where
  shares : next.Shares slot
  leads : world.session.LeadsTo slot next.session

section Steps

variable {slot : Nat} {world : World} (shares : world.Shares slot)

include shares

theorem World.Shares.refl : world.LeadsTo slot world :=
  ⟨shares, .of_eq rfl rfl⟩

theorem World.Shares.ask {place : Nat} {action : Engine → Action Answer}
    (keeps : ∀ engine : Engine, engine.cache = .keepFirst slot → (action engine).KeepsLedger slot) :
    world.LeadsTo slot (world.ask place action).2 := by
  unfold World.ask
  cases found : world.engines[place]? with
  | none => exact shares.refl
  | some engine =>
    have leads := keeps engine (shares.shares engine (List.mem_of_getElem? found)) world.session
      shares.room
    exact ⟨⟨shares.shares, leads.slots.symm ▸ shares.room⟩, leads⟩

theorem World.Shares.make {place : Nat} {action : Engine → Action Template}
    (keeps : ∀ engine : Engine, engine.cache = .keepFirst slot → (action engine).KeepsLedger slot) :
    world.LeadsTo slot (world.make place action).2 := by
  unfold World.make
  cases found : world.engines[place]? with
  | none => exact shares.refl
  | some engine =>
    have leads := keeps engine (shares.shares engine (List.mem_of_getElem? found)) world.session
      shares.room
    dsimp only
    rcases ran : action engine world.session with ⟨outcome, session⟩
    rw [ran] at leads
    cases outcome <;> exact ⟨⟨shares.shares, leads.slots.symm ▸ shares.room⟩, leads⟩

theorem World.Shares.set {place : Nat} {engine : Engine}
    (keeps : engine.cache = .keepFirst slot) :
    world.LeadsTo slot { world with engines := world.engines.set place engine } := by
  refine ⟨⟨fun other member => ?_, shares.room⟩, .of_eq rfl rfl⟩
  rcases List.mem_or_eq_of_mem_set member with old | rfl
  · exact shares.shares other old
  · exact keeps

theorem World.Shares.setTags (place : Nat) (tags : Value) :
    world.LeadsTo slot (world.setTags place tags).2 := by
  unfold World.setTags
  cases found : world.engines[place]? with
  | none => exact shares.refl
  | some engine =>
    dsimp only [Engine.withTags]
    cases Delimiters.ofValue tags with
    | error fault => exact shares.refl
    | ok pair => exact shares.set (shares.shares engine (List.mem_of_getElem? found))

theorem World.Shares.configure (place : Nat) (escaper : Escaper) (loader : Value)
    (maxPartialDepth : Option Int) :
    world.LeadsTo slot (world.configure place escaper loader maxPartialDepth) := by
  unfold World.configure
  cases found : world.engines[place]? with
  | none => exact shares.refl
  | some engine => exact shares.set (shares.shares engine (List.mem_of_getElem? found))

theorem World.Shares.step (depth : Nat) {operation : Operation}
    (uncleared : (Request.operation operation).clears world = false) :
    world.LeadsTo slot (world.step depth operation).2 := by
  have answered {α : Type} (action : Action α) (answer : α → Answer)
      (keeps : action.KeepsLedger slot) :
      (action >>= fun value => pure (answer value)).KeepsLedger slot :=
    keeps.bind fun _ => .quiet (fun _ => rfl) fun _ => rfl
  cases operation with
  | render place template view partials tags =>
    exact shares.ask fun engine keeps =>
      answered _ _ (Engine.render_keepsLedger keeps depth template view partials tags)
  | parse place source tags name =>
    refine shares.ask fun engine keeps => ?_
    refine (KeepsLedger.ofExcept (engine.pairFor tags)).bind fun pair => ?_
    exact answered _ _ (KeepsLedger.parse keeps source pair name)
  | fromString place source name tags =>
    exact shares.make fun engine keeps => Engine.template_keepsLedger keeps source name tags
  | getTemplate place name =>
    exact shares.make fun engine keeps => Engine.loadTemplate_keepsLedger keeps name
  | renderTemplate made view partials names =>
    unfold World.step
    dsimp only
    cases world.made[made]? with
    | none => exact shares.refl
    | some entry =>
      exact shares.ask fun engine keeps =>
        answered _ _ (Engine.renderTree_keepsLedger keeps depth _ _ partials _ _ _)
  | setTags place tags => exact shares.setTags place tags
  | clearCache place =>
    have absent : world.engines[place]? = none := by
      simpa [Request.clears] using uncleared
    simp only [World.step, World.ask, absent]
    exact shares.refl

theorem World.Shares.serve (depth : Nat) {request : Request}
    (uncleared : request.clears world = false) :
    world.LeadsTo slot (world.serve depth request).2 := by
  cases request with
  | operation operation => exact shares.step depth uncleared
  | renderTree place tree view partials source pair name =>
    refine shares.ask fun engine keeps => ?_
    exact (Engine.renderTree_keepsLedger keeps depth tree view partials source pair name).bind
      fun _ => .quiet (fun _ => rfl) fun _ => rfl
  | cacheInfo place =>
    refine shares.ask fun engine keeps => ?_
    rw [keeps]
    exact .quiet (fun _ => rfl) fun _ => rfl
  | configure place escaper loader maxPartialDepth =>
    exact shares.configure place escaper loader maxPartialDepth

theorem World.Shares.clear (depth : Nat) {request : Request}
    (cleared : request.clears world = true) :
    (world.serve depth request).1 = .ok () ∧ (world.serve depth request).2.Shares slot ∧
      (world.serve depth request).2.session.cache slot = {} := by
  unfold Request.clears at cleared
  split at cleared
  next place =>
    obtain ⟨engine, found⟩ : ∃ engine, world.engines[place]? = some engine :=
      ⟨_, List.getElem?_eq_getElem (of_decide_eq_true cleared)⟩
    have keeps := shares.shares engine (List.mem_of_getElem? found)
    have served : world.serve depth (.operation (.clearCache place)) =
        (.ok (), { world with session := world.session.setCache slot {} }) := by
      simp only [World.serve, World.step, World.ask, found, keeps]
      rfl
    rw [served]
    refine ⟨rfl, ⟨shares.shares, ?_⟩, Session.cache_setCache shares.room {}⟩
    exact Nat.lt_of_lt_of_eq shares.room List.length_set.symm
  next => cases cleared

theorem World.Shares.after {begun : World} (empty : begun.session.cache slot = {})
    (leads : begun.session.LeadsTo slot world.session) (depth : Nat) (history : List Request) :
    (world.after depth history).Shares slot ∧
      (begun.lastCleared depth world history).session.cache slot = {} ∧
      (begun.lastCleared depth world history).session.LeadsTo slot
        (world.after depth history).session := by
  induction history generalizing begun world with
  | nil => exact ⟨shares, empty, leads⟩
  | cons request rest ih =>
    unfold World.after World.lastCleared
    cases cleared : request.clears world with
    | true =>
      obtain ⟨-, shares, empty⟩ := shares.clear depth cleared
      exact ih shares empty (.of_eq rfl rfl)
    | false =>
      obtain ⟨shares, onward⟩ := shares.serve depth cleared
      exact ih shares empty (leads.trans onward)

end Steps

section Refusals

variable {world : World} {place : Nat} {engine : Engine} {template tags : Value}

theorem World.ask_of_error (found : world.engines[place]? = some engine)
    {action : Engine → Action Answer} {fault : Fault}
    (failed : action engine world.session = (.error fault, world.session)) :
    world.ask place action = (.error fault, world) := by
  simp only [World.ask, found, failed]

theorem World.make_of_error (found : world.engines[place]? = some engine)
    {action : Engine → Action Template} {fault : Fault}
    (failed : action engine world.session = (.error fault, world.session)) :
    world.make place action = (.error fault, world) := by
  simp only [World.make, found, failed]

theorem Engine.exists_fault_of_refuses {source : String}
    (refuses : engine.refuses (.str source) tags = true) :
    ∃ fault, engine.pairFor tags = .error fault := by
  cases paired : engine.pairFor tags with
  | error fault => exact ⟨fault, rfl⟩
  | ok pair => simp [Engine.refuses, paired, Except.isOk, Except.toBool] at refuses

theorem Engine.render_of_refuses (refuses : engine.refuses template tags = true) (depth : Nat)
    (view partials : Value) (s : Session) :
    ∃ fault, engine.render depth template view partials tags s = (.error fault, s) := by
  cases template with
  | str source =>
    obtain ⟨fault, paired⟩ := exists_fault_of_refuses refuses
    refine ⟨fault, ?_⟩
    simp only [Engine.render, paired]
    rfl
  | _ => exact ⟨_, rfl⟩

theorem Engine.template_of_refuses (refuses : engine.refuses template tags = true)
    (name : Option String) (s : Session) :
    ∃ fault, engine.template template name tags s = (.error fault, s) := by
  cases template with
  | str source =>
    obtain ⟨fault, paired⟩ := exists_fault_of_refuses refuses
    refine ⟨fault, ?_⟩
    simp only [Engine.template, paired]
    rfl
  | _ => exact ⟨_, rfl⟩

theorem World.serve_of_refused {request : Request}
    (refused : request.refused world = true) (depth : Nat) :
    ∃ fault, world.serve depth request = (.error fault, world) := by
  unfold Request.refused at refused
  split at refused
  next place template view partials tags =>
    obtain ⟨engine, found, refuses⟩ := (Option.any_eq_true _ _).1 refused
    obtain ⟨fault, failed⟩ := Engine.render_of_refuses refuses depth view partials world.session
    refine ⟨fault, congrArg serve.silently (ask_of_error found ?_)⟩
    exact Action.bind_of_error failed
  next place template name tags =>
    obtain ⟨engine, found, refuses⟩ := (Option.any_eq_true _ _).1 refused
    obtain ⟨fault, failed⟩ := Engine.template_of_refuses refuses name world.session
    exact ⟨fault, congrArg serve.silently (make_of_error found failed)⟩
  next place source tags name =>
    obtain ⟨engine, found, refuses⟩ := (Option.any_eq_true _ _).1 refused
    obtain ⟨fault, paired⟩ := Engine.exists_fault_of_refuses refuses
    refine ⟨fault, congrArg serve.silently (ask_of_error found ?_)⟩
    rw [paired]
    rfl
  next => cases refused

end Refusals

theorem cache_accounts {slot : Nat} {world : World}
    (sharing : ∀ engine ∈ world.engines, engine.cache = .keepFirst slot)
    (empty : world.session.caches[slot]? = some {}) (depth : Nat) (history : List Request) :
    let now := world.after depth history
    (∃ happened,
        now.session.log = happened ++ (world.lastCleared depth world history).session.log ∧
          (now.session.cache slot).Accounts happened) ∧
      ∀ request,
        (∀ fault, (now.serve depth request).1 = .error fault →
          ∃ happened, (now.serve depth request).2.session.log = happened ++ now.session.log ∧
            (now.session.cache slot).Gains happened
              ((now.serve depth request).2.session.cache slot)) ∧
        (request.refused now = true → ∃ fault, now.serve depth request = (.error fault, now)) := by
  intro now
  have begun : world.session.cache slot = {} := by
    rw [Session.cache, empty]
    rfl
  have shares : world.Shares slot := ⟨sharing, (List.getElem?_eq_some_iff.1 empty).1⟩
  obtain ⟨shares, cleared, leads⟩ := shares.after begun (.of_eq rfl rfl) depth history
  obtain ⟨happened, logged, leads⟩ := leads.leads
  rw [cleared] at leads
  refine ⟨⟨happened, logged, leads.ledger.accounts⟩, fun request => ⟨fun fault failed => ?_, ?_⟩⟩
  · cases clears : request.clears now with
    | true =>
      obtain ⟨done, -⟩ := shares.clear depth clears
      rw [done] at failed
      cases failed
    | false =>
      obtain ⟨-, onward⟩ := shares.serve depth clears
      obtain ⟨since, grown, leads⟩ := onward.leads
      exact ⟨since, grown, leads.gains⟩
  · exact fun refused => World.serve_of_refused refused depth

theorem cache_accounts_of_failed_render :
    let other : Delimiters := ⟨['['], [']'], by decide, by decide⟩
    let world : World :=
      { engines := [{ cache := .keepFirst 0 }, { cache := .keepFirst 0, pair := other }]
        session := { caches := [{}] } }
    let partials : Value := .map [(.str "p", .str "x"), (.str "q", .str "{{#a}}")]
    let history : List Request :=
      [.operation (.parse 0 "old" .null none), .operation (.clearCache 1),
        .operation (.parse 0 "x" .null none)]
    let now := world.after 5 history
    let failing : Request := .operation (.render 0 (.str "{{>p}}{{>q}}") .null partials .null)
    (∀ engine ∈ world.engines, engine.cache = .keepFirst 0) ∧
      world.session.caches[0]? = some ({} : TreeCache) ∧
      (now.session.cache 0).keys = ["x:{{:}}"] ∧
      (now.session.cache 0).misses = 1 ∧
      (∃ happened,
        now.session.log = happened ++ (world.lastCleared 5 world history).session.log ∧
          (now.session.cache 0).Accounts happened) ∧
      ((now.serve 5 failing).2.session.cache 0).keys = ["{{>p}}{{>q}}:{{:}}", "x:{{:}}"] ∧
      ((now.serve 5 failing).2.session.cache 0).hits = 1 ∧
      ((now.serve 5 failing).2.session.cache 0).misses = 3 ∧
      ∃ happened, (now.serve 5 failing).2.session.log = happened ++ now.session.log ∧
        (now.session.cache 0).Gains happened ((now.serve 5 failing).2.session.cache 0) := by
  intro other world partials history now failing
  have sharing : ∀ engine ∈ world.engines, engine.cache = .keepFirst 0 := by simp [world]
  obtain ⟨accounts, served⟩ := @cache_accounts 0 world sharing rfl 5 history
  have here : now = world.after 5 history := rfl
  rw [← here] at served
  obtain ⟨fault, failed⟩ : ∃ fault, (now.serve 5 failing).1 = .error fault := by
    cases ended : (now.serve 5 failing).1 with
    | error fault => exact ⟨fault, rfl⟩
    | ok _ =>
      have fails : (now.serve 5 failing).1.isOk = false := by decide +kernel
      rw [ended] at fails
      cases fails
  refine ⟨sharing, rfl, by decide +kernel, by decide +kernel, accounts, by decide +kernel,
    by decide +kernel, by decide +kernel, ?_⟩
  exact (served failing).1 fault failed

end Mustache

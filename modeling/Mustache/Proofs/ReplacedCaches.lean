import Mustache.Proofs.CacheReplacement

set_option autoImplicit false

namespace Mustache

open Mustache.Action (Preserve)

def Job.replaced (slot : Nat) (cache : CustomCache) (job : Job) : Job :=
  { job with engine := job.engine.replaced slot cache }

section Renders

variable {slot : Nat} {cache : CustomCache} {valid : TreeCache → Prop}

theorem inContext_sameTrees {α : Type} {first second : Action α} (context : Context)
    (preserve : Preserve (Session.SameTrees slot cache valid) first second) :
    Preserve (Session.SameTrees slot cache valid) (Action.inContext context first)
      (Action.inContext context second) := by
  intro s t same
  obtain ⟨outcome, after⟩ :=
    preserve { s with context } { t with context } { same with context := rfl }
  exact ⟨outcome, { after with context := same.context }⟩

theorem inFrame_sameTrees {α : Type} {first second : Action α} (view : Value)
    (preserve : Preserve (Session.SameTrees slot cache valid) first second) :
    Preserve (Session.SameTrees slot cache valid) (Action.inFrame view first)
      (Action.inFrame view second) := by
  intro s t same
  have inside := inContext_sameTrees (s.context.push view) preserve s t same
  simp only [Action.inFrame, ← same.context]
  exact inside

variable (isMap : cache.IsMap valid)

include isMap

theorem Job.replacedInStep :
    TreesInStep (fun _ : Unit => fun _ => Preserve (Session.SameTrees slot cache valid))
      (fun _ : Unit => fun _ => Preserve (Session.SameTrees slot cache valid)) (fun _ _ => ())
      (replaced slot cache) (fun job _ => job.engine.cache.KeepsFirstIn slot) where
  steps _ := (sameTrees_inStep _ _ _).toInStep
  catches _ := sameTrees_inStep _ _ _
  find _ name := onShared_sameTrees (Session.Shared.find name)
  weaken := id
  escaper _ := rfl
  partials _ := rfl
  source _ := rfl
  withSource _ _ := rfl
  part first _ := first
  inFrame view := inFrame_sameTrees view
  inRender job inStep := inStep.inRender (scopeShared_sameTrees _ _ _) job.engine none
  inPartial name inStep := inStep.inPartial (scopeShared_sameTrees _ _ _) name
  parse {_ _ job _ _ _} source first onward answered := by
    refine (Engine.parse_replaced isMap first source job.pair none).bind fun tree => ?_
    cases tree with
    | parsed nodes => exact onward nodes first
    | foreign answer => exact answered answer
  lambda _ _ _ := .record (scopeShared_sameTrees _ _ _) _
  sourceless _ _ _ := .throw _

namespace Engine

variable {engine : Engine} (first : engine.cache.KeepsFirstIn slot)

include first

theorem renderTree_replaced (depth : Nat) (tree : Tree) (view partials : Value)
    (source : Option String) (pair : Delimiters) (name : Option String) :
    Preserve (Session.SameTrees slot cache valid)
      (engine.renderTree depth tree view partials source pair name)
      ((engine.replaced slot cache).renderTree depth tree view partials source pair name) := by
  have walk := @Job.replacedInStep slot _ _ isMap
  let job : Job := ⟨engine, partials, source, pair⟩
  have render := @TreesInStep.renderTree _ _ _ _ _ _ walk job _ _ (walk.render_same depth) ()
    tree fun _ _ => first
  exact inContext_sameTrees _ (render.inRender (scopeShared_sameTrees _ _ _) engine name)

theorem render_replaced (depth : Nat) (template view partials tags : Value) :
    Preserve (Session.SameTrees slot cache valid)
      (engine.render depth template view partials tags)
      ((engine.replaced slot cache).render depth template view partials tags) := by
  unfold render
  split
  next source =>
    refine .bind (.ofExcept (engine.pairFor tags)) fun pair => ?_
    refine (parse_replaced isMap first source pair none).bind fun tree => ?_
    exact renderTree_replaced isMap first depth tree view partials (some source) pair none
  next => exact .throw _

theorem template_replaced (source : Value) (name : Option String) (tags : Value) :
    Preserve (Session.SameTrees slot cache valid) (engine.template source name tags)
      ((engine.replaced slot cache).template source name tags) := by
  unfold template
  split
  next source =>
    refine .bind (.ofExcept (engine.pairFor tags)) fun pair => ?_
    exact (parse_replaced isMap first source pair name).bind fun tree => .pure _
  next => exact .throw _

theorem loadTemplate_replaced (name : String) :
    Preserve (Session.SameTrees slot cache valid) (engine.loadTemplate name)
      ((engine.replaced slot cache).loadTemplate name) := by
  unfold loadTemplate
  change Preserve _ (if engine.loader.canLoad then _ else _)
    (if engine.loader.canLoad then _ else _)
  split
  · refine .bind (loadSource_inStep (sameTrees_inStep _ _ _) _ name) fun source => ?_
    exact template_replaced isMap first source (some name) .null
  · exact .throw _

theorem renderTemplate_replaced (depth : Nat) (template : Template) (view partials : Value)
    (names : List (String × Value)) :
    Preserve (Session.SameTrees slot cache valid)
      (engine.renderTemplate depth template view partials names)
      ((engine.replaced slot cache).renderTemplate depth template view partials names) :=
  renderTree_replaced isMap first depth _ _ _ _ _ _

end Engine

end Renders

/-- What can be done with engines whose caches are reached by parsing and by clearing only: an
operation, the rendering of a tree, settings, or another cache for an engine. -/
inductive Move where
  | operation (operation : Operation)
  | renderTree (engine : Nat) (tree : Tree) (view partials : Value) (source : Option String)
      (pair : Delimiters) (name : Option String)
  | configure (engine : Nat) (escaper : Escaper) (loader : Value) (maxPartialDepth : Option Int)
  | useCache (engine : Nat) (cache : CacheHandle)

namespace Move

def replaced (slot : Nat) (cache : CustomCache) : Move → Move
  | useCache place handle => useCache place (handle.replaced slot cache)
  | move => move

def KeepsFirstIn (slot : Nat) : Move → Prop
  | useCache _ handle => handle.KeepsFirstIn slot
  | _ => True

end Move

namespace World

def useCache (world : World) (place : Nat) (cache : CacheHandle) : World :=
  match world.engines[place]? with
  | none => world
  | some engine => { world with engines := world.engines.set place { engine with cache } }

def move (depth : Nat) (world : World) : Move → Except Fault Answer × World
  | .operation operation => world.step depth operation
  | .renderTree place tree view partials source pair name =>
      world.ask place fun engine => do
        let output ← engine.renderTree depth tree view partials source pair name
        pure (.text output)
  | .configure place escaper loader maxPartialDepth =>
      (.ok .done, world.configure place escaper loader maxPartialDepth)
  | .useCache place cache => (.ok .done, world.useCache place cache)

def trace {α : Type} (depth : Nat) (read : World → α) (world : World) :
    List Move → List (Except Fault Answer × α)
  | [] => []
  | move :: rest =>
      let (answer, next) := world.move depth move
      (answer, read next) :: trace depth read next rest

def replaced (slot : Nat) (cache : CustomCache) (start : TreeCache) (world : World) : World :=
  { world with
    engines := world.engines.map (Engine.replaced slot cache)
    session := world.session.setCache slot start }

/-- Two worlds that differ in the cache that works on a slot, with the same trees in it. -/
structure SameTrees (slot : Nat) (cache : CustomCache) (valid : TreeCache → Prop)
    (first second : World) : Prop where
  engines : second.engines = first.engines.map (Engine.replaced slot cache)
  made : second.made = first.made
  session : first.session.SameTrees slot cache valid second.session
  keepFirst : ∀ engine ∈ first.engines, engine.cache.KeepsFirstIn slot

end World

section Moves

variable {slot : Nat} {cache : CustomCache} {valid : TreeCache → Prop} {first second : World}
  (same : first.SameTrees slot cache valid second)

include same

theorem World.SameTrees.getElem? (place : Nat) :
    second.engines[place]? = first.engines[place]?.map (Engine.replaced slot cache) := by
  rw [same.engines, List.getElem?_map]

theorem World.SameTrees.ask (place : Nat) {action : Engine → Action Answer}
    (preserve : ∀ engine : Engine, engine.cache.KeepsFirstIn slot →
      Preserve (Session.SameTrees slot cache valid) (action engine)
        (action (engine.replaced slot cache))) :
    (first.ask place action).1 = (second.ask place action).1 ∧
      (first.ask place action).2.SameTrees slot cache valid (second.ask place action).2 := by
  unfold World.ask
  rw [same.getElem?]
  cases found : first.engines[place]? with
  | none => exact ⟨rfl, same⟩
  | some engine =>
    have keepFirst := same.keepFirst engine (List.mem_of_getElem? found)
    obtain ⟨outcome, session⟩ := preserve engine keepFirst _ _ same.session
    exact ⟨outcome, { same with session }⟩

theorem World.SameTrees.make (place : Nat) {action : Engine → Action Template}
    (preserve : ∀ engine : Engine, engine.cache.KeepsFirstIn slot →
      Preserve (Session.SameTrees slot cache valid) (action engine)
        (action (engine.replaced slot cache))) :
    (first.make place action).1 = (second.make place action).1 ∧
      (first.make place action).2.SameTrees slot cache valid (second.make place action).2 := by
  unfold World.make
  rw [same.getElem?]
  cases found : first.engines[place]? with
  | none => exact ⟨rfl, same⟩
  | some engine =>
    have keepFirst := same.keepFirst engine (List.mem_of_getElem? found)
    obtain ⟨outcome, session⟩ := preserve engine keepFirst _ _ same.session
    dsimp only [Option.map_some]
    -- The same outcome adds the same template in both worlds.
    revert outcome session
    rcases action engine first.session with ⟨answer, left⟩
    rcases action (engine.replaced slot cache) second.session with ⟨answer', right⟩
    rintro rfl session
    cases answer with
    | error fault => exact ⟨rfl, { same with session }⟩
    | ok template => exact ⟨rfl, { same with session, made := by simp [same.made] }⟩

theorem World.SameTrees.set (place : Nat) {engine : Engine}
    (keepFirst : engine.cache.KeepsFirstIn slot) :
    World.SameTrees slot cache valid { first with engines := first.engines.set place engine }
      { second with engines := second.engines.set place (engine.replaced slot cache) } :=
  { same with
    engines := by rw [same.engines, List.map_set]
    keepFirst := fun other member => by
      rcases List.mem_or_eq_of_mem_set member with old | rfl
      · exact same.keepFirst other old
      · exact keepFirst }

theorem World.SameTrees.setTags (place : Nat) (tags : Value) :
    (first.setTags place tags).1 = (second.setTags place tags).1 ∧
      (first.setTags place tags).2.SameTrees slot cache valid (second.setTags place tags).2 := by
  unfold World.setTags
  rw [same.getElem?]
  cases found : first.engines[place]? with
  | none => exact ⟨rfl, same⟩
  | some engine =>
    have keepFirst := same.keepFirst engine (List.mem_of_getElem? found)
    dsimp only [Option.map_some, Engine.withTags]
    cases Delimiters.ofValue tags with
    | error fault => exact ⟨rfl, same⟩
    | ok pair => exact ⟨rfl, same.set place keepFirst⟩

theorem World.SameTrees.configure (place : Nat) (escaper : Escaper) (loader : Value)
    (maxPartialDepth : Option Int) :
    (first.configure place escaper loader maxPartialDepth).SameTrees slot cache valid
      (second.configure place escaper loader maxPartialDepth) := by
  unfold World.configure
  rw [same.getElem?]
  cases found : first.engines[place]? with
  | none => exact same
  | some engine =>
    exact same.set place (same.keepFirst engine (List.mem_of_getElem? found))

theorem World.SameTrees.useCache (place : Nat) {handle : CacheHandle}
    (keepFirst : handle.KeepsFirstIn slot) :
    (first.useCache place handle).SameTrees slot cache valid
      (second.useCache place (handle.replaced slot cache)) := by
  unfold World.useCache
  rw [same.getElem?]
  cases found : first.engines[place]? with
  | none => exact same
  | some engine =>
    exact @World.SameTrees.set _ _ _ _ _ same place { engine with cache := handle } keepFirst

variable (isMap : cache.IsMap valid)

include isMap

theorem World.SameTrees.step (depth : Nat) (operation : Operation) :
    (first.step depth operation).1 = (second.step depth operation).1 ∧
      (first.step depth operation).2.SameTrees slot cache valid
        (second.step depth operation).2 := by
  cases operation with
  | render place template view partials tags =>
    refine same.ask place fun engine keepFirst => ?_
    exact (Engine.render_replaced isMap keepFirst depth template view partials tags).bind
      fun _ => .pure _
  | parse place source tags name =>
    refine same.ask place fun engine keepFirst => ?_
    refine .bind (.ofExcept (engine.pairFor tags)) fun pair => ?_
    exact (Engine.parse_replaced isMap keepFirst source pair name).bind fun _ => .pure _
  | fromString place source name tags =>
    exact same.make place fun engine keepFirst =>
      Engine.template_replaced isMap keepFirst source name tags
  | getTemplate place name =>
    exact same.make place fun engine keepFirst =>
      Engine.loadTemplate_replaced isMap keepFirst name
  | renderTemplate made view partials names =>
    unfold World.step
    dsimp only
    rw [same.made]
    cases first.made[made]? with
    | none => exact ⟨rfl, same⟩
    | some entry =>
      refine same.ask entry.1 fun engine keepFirst => ?_
      exact (Engine.renderTemplate_replaced isMap keepFirst depth entry.2 view partials names).bind
        fun _ => .pure _
  | setTags place tags => exact same.setTags place tags
  | clearCache place =>
    refine same.ask place fun engine keepFirst => ?_
    exact (CacheHandle.clear_replaced isMap keepFirst).bind fun _ => .pure _

theorem World.SameTrees.move (depth : Nat) {move : Move} (keepsFirst : move.KeepsFirstIn slot) :
    (first.move depth move).1 = (second.move depth (move.replaced slot cache)).1 ∧
      (first.move depth move).2.SameTrees slot cache valid
        (second.move depth (move.replaced slot cache)).2 := by
  cases move with
  | operation operation => exact same.step isMap depth operation
  | renderTree place tree view partials source pair name =>
    refine same.ask place fun engine keepFirst => ?_
    exact (Engine.renderTree_replaced isMap keepFirst depth tree view partials source pair
      name).bind fun _ => .pure _
  | configure place escaper loader maxPartialDepth =>
    exact ⟨rfl, same.configure place escaper loader maxPartialDepth⟩
  | useCache place handle => exact ⟨rfl, same.useCache place keepsFirst⟩

theorem World.SameTrees.trace (depth : Nat) {history : List Move}
    (keepsFirst : ∀ move ∈ history, move.KeepsFirstIn slot) :
    first.trace depth (fun world => (world.session.cache slot).contents) history =
      second.trace depth (fun world => cache.contents (world.session.cache slot))
        (history.map (Move.replaced slot cache)) := by
  induction history generalizing first second with
  | nil => rfl
  | cons move rest ih =>
    rw [List.forall_mem_cons] at keepsFirst
    obtain ⟨answer, after⟩ := same.move isMap depth keepsFirst.1
    rw [List.map_cons, World.trace, World.trace]
    dsimp only
    rw [answer, after.session.contents, ih after keepsFirst.2]

end Moves

theorem trace_replaced {slot : Nat} {cache : CustomCache} {valid : TreeCache → Prop}
    (isMap : cache.IsMap valid) {world : World}
    (keepFirst : ∀ engine ∈ world.engines, engine.cache.KeepsFirstIn slot)
    (room : slot < world.session.caches.length) {start : TreeCache} (begins : valid start)
    (contents : cache.contents start = (world.session.cache slot).contents) (depth : Nat)
    {history : List Move} (keepsFirst : ∀ move ∈ history, move.KeepsFirstIn slot) :
    world.trace depth (fun world => (world.session.cache slot).contents) history =
      (world.replaced slot cache start).trace depth
        (fun world => cache.contents (world.session.cache slot))
        (history.map (Move.replaced slot cache)) := by
  have there : (world.session.setCache slot start).cache slot = start :=
    Session.cache_setCache room start
  have same : world.SameTrees slot cache valid (world.replaced slot cache start) :=
    { engines := rfl
      made := rfl
      session :=
        { calls := rfl
          nextSerial := rfl
          scope := rfl
          context := rfl
          elsewhere := fun other apart => (Session.cache_setCache_of_ne apart start).symm
          slots := (Session.length_setCache _ slot start).symm
          room
          valid := there.symm ▸ begins
          contents := there.symm ▸ contents }
      keepFirst }
  exact same.trace isMap depth keepsFirst

/-- Two engines share a cache in which the keys of two sources meet. -/
theorem trace_replaced_of_meeting_keys :
    let world : World :=
      { engines := [{ cache := .keepFirst 0 }, { cache := .keepFirst 0 }]
        session := { caches := [{}] } }
    let partials : Value := .map [(.str "p", .str "y")]
    let history : List Move :=
      [.operation (.parse 0 "x" (.tuple [.str "a:b", .str "c"]) none),
        .operation (.parse 1 "x:a" (.tuple [.str "b", .str "c"]) none),
        .operation (.render 1 (.str "{{>p}}") .null partials .null), .operation (.clearCache 0)]
    let last := CustomCache.keepLast
    let traced := world.trace 2 (fun world => (world.session.cache 0).contents) history
    last.IsMap (fun _ => True) ∧ last.contents {} = (world.session.cache 0).contents ∧
      (∀ engine ∈ world.engines, engine.cache.KeepsFirstIn 0) ∧
      (∀ move ∈ history, move.KeepsFirstIn 0) ∧
      (traced.map fun step => (step.2 "x:a:b:c").map List.length) =
        [some 1, some 1, some 1, none] ∧
      (traced.map fun step => (step.2 "y:{{:}}").isSome) = [false, false, true, false] ∧
      traced = (world.replaced 0 last {}).trace 2
        (fun world => last.contents (world.session.cache 0))
        (history.map (Move.replaced 0 last)) := by
  intro world partials history last traced
  have keepFirst : ∀ engine ∈ world.engines, engine.cache.KeepsFirstIn 0 := by
    simp [world, CacheHandle.KeepsFirstIn]
  have keepsFirst : ∀ move ∈ history, move.KeepsFirstIn 0 := by
    simp [history, Move.KeepsFirstIn]
  exact ⟨CustomCache.keepLast_isMap, rfl, keepFirst, keepsFirst, by decide +kernel,
    by decide +kernel,
    trace_replaced CustomCache.keepLast_isMap keepFirst Nat.one_pos trivial rfl 2 keepsFirst⟩

end Mustache

import Mustache.Proofs.CachedRendering

set_option autoImplicit false

namespace Mustache

/-- What is asked of engines and of the templates they made. Engines go by their place, templates
by the order in which they were made. -/
inductive Operation where
  | render (engine : Nat) (template view partials tags : Value)
  | parse (engine : Nat) (source : String) (tags : Value) (name : Option String)
  | fromString (engine : Nat) (source : Value) (name : Option String) (tags : Value)
  | getTemplate (engine : Nat) (name : String)
  | renderTemplate (made : Nat) (view partials : Value) (names : List (String × Value))
  | setTags (engine : Nat) (tags : Value)
  | clearCache (engine : Nat)

inductive Answer where
  | text (output : String)
  | tree (tree : Tree)
  | template (template : Template)
  | done

/-- Engines, the templates made so far with the places of their engines, and the session they
share. -/
structure World where
  engines : List Engine
  made : List (Nat × Template) := []
  session : Session

namespace World

def ask (world : World) (place : Nat) (action : Engine → Action Answer) :
    Except Fault Answer × World :=
  match world.engines[place]? with
  | none => (.ok .done, world)
  | some engine =>
      let (outcome, session) := action engine world.session
      (outcome, { world with session })

def make (world : World) (place : Nat) (action : Engine → Action Template) :
    Except Fault Answer × World :=
  match world.engines[place]? with
  | none => (.ok .done, world)
  | some engine =>
      match action engine world.session with
      | (.error fault, session) => (.error fault, { world with session })
      | (.ok template, session) =>
          (.ok (.template template),
            { world with session, made := world.made ++ [(place, template)] })

def setTags (world : World) (place : Nat) (tags : Value) : Except Fault Answer × World :=
  match world.engines[place]? with
  | none => (.ok .done, world)
  | some engine =>
      match engine.withTags tags with
      | .error fault => (.error fault, world)
      | .ok engine => (.ok .done, { world with engines := world.engines.set place engine })

def step (depth : Nat) (world : World) : Operation → Except Fault Answer × World
  -- Sections, partials and lambda texts nest no deeper than `depth`.
  | .render place template view partials tags =>
      world.ask place fun engine => do
        let output ← engine.render depth template view partials tags
        pure (.text output)
  | .parse place source tags name =>
      world.ask place fun engine => do
        let pair ← Action.ofExcept (engine.pairFor tags)
        let tree ← engine.parse source pair name
        pure (.tree tree)
  | .fromString place source name tags =>
      world.make place fun engine => engine.template source name tags
  | .getTemplate place name => world.make place fun engine => engine.loadTemplate name
  | .renderTemplate made view partials names =>
      match world.made[made]? with
      | none => (.ok .done, world)
      | some (place, template) =>
          world.ask place fun engine => do
            let output ← engine.renderTemplate depth template view partials names
            pure (.text output)
  | .setTags place tags => world.setTags place tags
  | .clearCache place =>
      world.ask place fun engine => do
        engine.cache.clear
        pure .done

def answers (depth : Nat) (world : World) : List Operation → List (Except Fault Answer)
  | [] => []
  | operation :: rest =>
      (world.step depth operation).1 :: answers depth (world.step depth operation).2 rest

def uncached (world : World) : World :=
  { world with engines := world.engines.map Engine.uncached }

/-- Every engine keeps its trees in a slot, its own or a shared one, no tree is kept yet, and no
template is made. -/
structure Fresh (world : World) : Prop where
  keeps : ∀ engine ∈ world.engines, ∃ slot, engine.cache = .keepFirst slot
  empty : ∀ cache ∈ world.session.caches, cache.entries = []
  made : world.made = []

end World

def namedPair? (tags : Value) : Option Delimiters :=
  -- Null names no pair.
  match tags with
  | .null => none
  | tags => (Delimiters.ofValue tags).toOption

def Operation.pair? : Operation → Option Delimiters
  | .render _ _ _ _ tags => namedPair? tags
  | .parse _ _ tags _ => namedPair? tags
  | .fromString _ _ _ tags => namedPair? tags
  -- To set the tags of an engine null names the standard pair.
  | .setTags _ tags => (Delimiters.ofValue tags).toOption
  | _ => none

structure World.Agrees (inUse : Delimiters → Prop) (first second : World) : Prop where
  engines : second.engines = first.engines.map Engine.uncached
  made : second.made = first.made
  session : first.session.Agrees (Stored inUse) second.session
  keeps : ∀ engine ∈ first.engines, (∃ slot, engine.cache = .keepFirst slot) ∧ inUse engine.pair
  given : ∀ entry ∈ first.made, ∀ pair, entry.2.tags = some pair → inUse pair

section Steps

open Mustache.Action (Agree)

variable {inUse : Delimiters → Prop} {first second : World}

theorem inUse_of_pairFor {engine : Engine} {tags : Value} (used : inUse engine.pair)
    (named : ∀ pair, namedPair? tags = some pair → inUse pair) :
    ∀ pair, engine.pairFor tags = .ok pair → inUse pair := by
  intro pair paired
  by_cases null : tags = .null
  · subst null
    obtain rfl := Except.ok.inj paired
    exact used
  · apply named pair
    have chosen : engine.pairFor tags = Delimiters.ofValue tags := by
      unfold Engine.pairFor
      split <;> simp_all
    rw [chosen] at paired
    unfold namedPair?
    split
    · contradiction
    · simp [paired, Except.toOption]

theorem World.Agrees.getElem? (agrees : first.Agrees inUse second) (place : Nat) :
    second.engines[place]? = first.engines[place]?.map Engine.uncached := by
  rw [agrees.engines, List.getElem?_map]

theorem World.Agrees.ask (agrees : first.Agrees inUse second) (place : Nat)
    {action : Engine → Action Answer}
    (agree : ∀ engine ∈ first.engines,
      Agree (Stored inUse) (action engine) (action engine.uncached)) :
    (first.ask place action).1 = (second.ask place action).1 ∧
      (first.ask place action).2.Agrees inUse (second.ask place action).2 := by
  unfold World.ask
  rw [agrees.getElem?]
  cases found : first.engines[place]? with
  | none => exact ⟨rfl, agrees⟩
  | some engine =>
    obtain ⟨outcome, session⟩ :=
      agree engine (List.mem_of_getElem? found) first.session second.session agrees.session
    exact ⟨outcome, { agrees with session }⟩

theorem World.Agrees.make (agrees : first.Agrees inUse second) (place : Nat)
    {action : Engine → Action Template}
    (agree : ∀ engine ∈ first.engines,
      Agree (Stored inUse) (action engine) (action engine.uncached))
    (given : ∀ engine ∈ first.engines, ∀ s template, (action engine s).1 = .ok template →
      ∀ pair, template.tags = some pair → inUse pair) :
    (first.make place action).1 = (second.make place action).1 ∧
      (first.make place action).2.Agrees inUse (second.make place action).2 := by
  unfold World.make
  rw [agrees.getElem?]
  cases found : first.engines[place]? with
  | none => exact ⟨rfl, agrees⟩
  | some engine =>
    have member := List.mem_of_getElem? found
    obtain ⟨outcome, session⟩ :=
      agree engine member first.session second.session agrees.session
    have tags := given engine member first.session
    dsimp only [Option.map_some]
    -- Both runs are taken apart at once, since the same outcome adds a template in both.
    revert outcome session tags
    rcases action engine first.session with ⟨answer, left⟩
    rcases action engine.uncached second.session with ⟨answer', right⟩
    rintro rfl session tags
    cases answer with
    | error fault => exact ⟨rfl, { agrees with session }⟩
    | ok template =>
      refine ⟨rfl, { agrees with session, made := by simp [agrees.made], given := ?_ }⟩
      intro entry member
      rcases List.mem_append.1 member with old | new
      · exact agrees.given entry old
      · obtain rfl := List.mem_singleton.1 new
        exact tags template rfl

theorem World.Agrees.setTags (agrees : first.Agrees inUse second) (place : Nat) {tags : Value}
    (named : ∀ pair, (Delimiters.ofValue tags).toOption = some pair → inUse pair) :
    (first.setTags place tags).1 = (second.setTags place tags).1 ∧
      (first.setTags place tags).2.Agrees inUse (second.setTags place tags).2 := by
  unfold World.setTags
  rw [agrees.getElem?]
  cases found : first.engines[place]? with
  | none => exact ⟨rfl, agrees⟩
  | some engine =>
    have member := List.mem_of_getElem? found
    dsimp only [Option.map_some, Engine.withTags]
    cases tagged : Delimiters.ofValue tags with
    | error fault => exact ⟨rfl, agrees⟩
    | ok pair =>
      have used := named pair (by rw [tagged]; rfl)
      refine ⟨rfl, { agrees with engines := ?_, keeps := ?_ }⟩
      · change second.engines.set place _ = (first.engines.set place _).map Engine.uncached
        rw [agrees.engines, List.map_set]
        rfl
      · intro other present
        rcases List.mem_or_eq_of_mem_set present with old | rfl
        · exact agrees.keeps other old
        · exact ⟨(agrees.keeps engine member).1, used⟩

theorem inUse_of_template {engine : Engine} {tags : Value}
    (named : ∀ pair, engine.pairFor tags = .ok pair → inUse pair) {source : Value}
    {name : Option String} {s : Session} {template : Template}
    (made : (engine.template source name tags s).1 = .ok template) :
    ∀ pair, template.tags = some pair → inUse pair := by
  intro pair given
  -- A template is given a pair only if its call names one, and then it is the pair of the call.
  unfold Engine.template at made
  split at made
  next source =>
    obtain ⟨chosen, after, paired, made⟩ := Action.bind_eq_ok made
    obtain ⟨tree, _, -, made⟩ := Action.bind_eq_ok made
    obtain rfl := Except.ok.inj made
    obtain ⟨-, same⟩ := Option.ite_none_left_eq_some.1 given
    obtain rfl := Option.some.inj same
    exact named chosen (Action.eq_ok_of_ofExcept paired)
  next => contradiction

theorem inUse_of_loadTemplate {engine : Engine} (used : inUse engine.pair) {name : String}
    {s : Session} {template : Template} (made : (engine.loadTemplate name s).1 = .ok template) :
    ∀ pair, template.tags = some pair → inUse pair := by
  unfold Engine.loadTemplate at made
  split at made
  next =>
    obtain ⟨source, after, -, made⟩ := Action.bind_eq_ok made
    exact inUse_of_template (inUse_of_pairFor used (by simp [namedPair?])) made
  next => contradiction

theorem World.Agrees.step (apart : ToldApart inUse) (agrees : first.Agrees inUse second)
    (depth : Nat) {operation : Operation}
    (named : ∀ pair, operation.pair? = some pair → inUse pair) :
    (first.step depth operation).1 = (second.step depth operation).1 ∧
      (first.step depth operation).2.Agrees inUse (second.step depth operation).2 := by
  cases operation with
  | render place template view partials tags =>
    apply agrees.ask place
    intro engine member
    obtain ⟨⟨slot, keeps⟩, used⟩ := agrees.keeps engine member
    have pairs := inUse_of_pairFor used named
    exact (Engine.render_agree apart keeps pairs depth template view partials).bind fun _ => .pure _
  | parse place source tags name =>
    apply agrees.ask place
    intro engine member
    obtain ⟨⟨slot, keeps⟩, used⟩ := agrees.keeps engine member
    have pairs := inUse_of_pairFor used named
    rw [Engine.pairFor_uncached]
    cases paired : engine.pairFor tags with
    | error fault => exact .throw fault
    | ok pair =>
      exact (Engine.parse_agree apart keeps (pairs pair paired) source name).bind fun _ => .pure _
  | fromString place source name tags =>
    refine agrees.make place (fun engine member => ?_) fun engine member s template made => ?_
    all_goals
      obtain ⟨⟨slot, keeps⟩, used⟩ := agrees.keeps engine member
      have pairs := inUse_of_pairFor used named
    · exact Engine.template_agree apart keeps pairs source name
    · exact inUse_of_template pairs made
  | getTemplate place name =>
    refine agrees.make place (fun engine member => ?_) fun engine member s template made => ?_
    all_goals obtain ⟨⟨slot, keeps⟩, used⟩ := agrees.keeps engine member
    · exact Engine.loadTemplate_agree apart keeps used name
    · exact inUse_of_loadTemplate used made
  | renderTemplate made view partials names =>
    unfold World.step
    dsimp only
    rw [agrees.made]
    cases found : first.made[made]? with
    | none => exact ⟨rfl, agrees⟩
    | some entry =>
      -- A template keeps the pair it was given; without one it takes that of its engine.
      have given := agrees.given entry (List.mem_of_getElem? found)
      apply agrees.ask entry.1
      intro engine member
      obtain ⟨⟨slot, keeps⟩, used⟩ := agrees.keeps engine member
      have render := Engine.renderTemplate_agree apart keeps used given depth view partials names
      exact render.bind fun _ => .pure _
  | setTags place tags => exact agrees.setTags place named
  | clearCache place =>
    apply agrees.ask place
    intro engine member
    obtain ⟨⟨slot, keeps⟩, -⟩ := agrees.keeps engine member
    exact (CacheHandle.clear_agree keeps).bind fun _ => .pure _

theorem World.Agrees.answers (apart : ToldApart inUse) (agrees : first.Agrees inUse second)
    (depth : Nat) {history : List Operation}
    (named : ∀ operation ∈ history, ∀ pair, operation.pair? = some pair → inUse pair) :
    first.answers depth history = second.answers depth history := by
  induction history generalizing first second with
  | nil => rfl
  | cons operation rest ih =>
    rw [List.forall_mem_cons] at named
    obtain ⟨answer, after⟩ := agrees.step apart depth named.1
    rw [World.answers, World.answers, answer, ih after named.2]

theorem World.Fresh.agrees {world : World} (fresh : world.Fresh)
    (used : ∀ engine ∈ world.engines, inUse engine.pair) : world.Agrees inUse world.uncached where
  engines := rfl
  made := rfl
  session :=
    { calls := rfl
      nextSerial := rfl
      scope := rfl
      context := rfl
      caches := fun cache member entry kept => by
        rw [fresh.empty cache member] at kept
        contradiction }
  keeps := fun engine member => ⟨fresh.keeps engine member, used engine member⟩
  given := by simp [fresh.made]

end Steps

end Mustache

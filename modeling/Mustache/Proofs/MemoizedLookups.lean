import Mustache.Proofs.Remembering

set_option autoImplicit false

namespace Mustache

structure Cell where
  frame : Frame
  outer : Option Nat

namespace Cell

/-- A frame with those around it, innermost first. Cells are listed with the newest first; a cell
goes by how many are older. -/
def framesAt : List Cell → Nat → List Frame
  | [], _ => []
  | cell :: older, place =>
      if place = older.length then
        match cell.outer with
        | none => [cell.frame]
        | some outer => cell.frame :: framesAt older outer
      else framesAt older place

def keep (place : Nat) (frame : Frame) : List Cell → List Cell
  | [] => []
  | cell :: older =>
      if place = older.length then { cell with frame } :: older
      else cell :: keep place frame older

end Cell

structure Contexts where
  cells : List Cell := []
  session : Session

/-- What is done with frames: a view is pushed, on a frame or on none; a name is looked up from a
frame; a tree is rendered against a frame. -/
inductive Use where
  | push (onto : Option Nat) (view : Value)
  | lookup (place : Nat) (name : String)
  | render (place depth : Nat) (job : Job) (name : Option String) (tree : Tree)

def Job.renderHere (job : Job) (depth : Nat) (name : Option String) (tree : Tree) :
    Action String :=
  job.engine.inRender name (job.start depth tree)

namespace Contexts

def at? (contexts : Contexts) (place : Nat) : Option Context :=
  match Cell.framesAt contexts.cells place with
  | [] => none
  | frame :: outer => some ⟨frame, outer⟩

def within {α : Type} (contexts : Contexts) (place : Nat) (action : Action α) :
    Option (Except Fault α) × Contexts :=
  match contexts.at? place with
  | none => (none, contexts)
  | some context =>
      let (outcome, after) := action { contexts.session with context }
      (some outcome,
        { cells := Cell.keep place after.context.frame contexts.cells
          session := { after with context := contexts.session.context } })

def step (contexts : Contexts) : Use → Contexts
  | .push onto view => { contexts with cells := ⟨⟨view, []⟩, onto⟩ :: contexts.cells }
  | .lookup place name => (contexts.within place (Mustache.lookup name)).2
  | .render place depth job name tree => (contexts.within place (job.renderHere depth name tree)).2

def after (contexts : Contexts) (uses : List Use) : Contexts :=
  uses.foldl step contexts

end Contexts

def Closure.DependsOnArguments (f : Closure) : Prop :=
  ∀ (args : List Value) (s t : Session), (f.call args s).1 = (f.call args t).1

namespace Contexts

/-- An action from a frame has the outcome of another one that runs in the same session, and leaves
the session as that one does. -/
def Answers {α : Type} (contexts : Contexts) (place : Nat) (action fresh : Action α) : Prop :=
  (contexts.within place action).1 = some (fresh contexts.session).1 ∧
    (contexts.within place action).2.session = (fresh contexts.session).2

/-- From a frame everything is answered as from a chain that was just built of its views. -/
structure AsFresh (contexts : Contexts) (place : Nat) (views : List Value) : Prop where
  lookup (name : String) :
    contexts.Answers place (Mustache.lookup name)
      (Action.inContext (.ofView (.chain views)) (Mustache.lookup name))
  /-- The first lookup of all, in whatever session, has the same outcome. -/
  first (name : String) :
    (∀ f, meaning name views = .ok (.callable f) → f.DependsOnArguments) →
    ∀ session, (contexts.within place (Mustache.lookup name)).1 =
      some (Action.inContext (.ofView (.chain views)) (Mustache.lookup name) session).1
  render (engine : Engine) (depth : Nat) (tree : Tree) (partials : Value) (source : Option String)
    (pair : Delimiters) (name : Option String) :
    contexts.Answers place (Job.renderHere ⟨engine, partials, source, pair⟩ depth name tree)
      (engine.renderTree depth tree (.chain views) partials source pair name)

end Contexts

theorem Job.renderHere_alike (job : Job) (depth : Nat) (name : Option String) (tree : Tree) :
    Action.Alike (job.renderHere depth name tree) (job.renderHere depth name tree) :=
  (job.start_alike depth tree).inRender job.engine name

def Value.calledWith (value view : Value) : Action Value :=
  match value with
  | .callable f => f.call (if f.takesView then [view] else [])
  | value => pure value

section Outcomes

variable {s t : Session} {name : String}

theorem lookup_of_find_error {fault : HostFault} (failed : s.context.find name = .error fault) :
    lookup name s = (.error (.host fault), s) := by
  rw [lookup, Action.get_bind, failed]
  rfl

theorem lookup_of_find_ok {value : Value} {after : Context}
    (found : s.context.find name = .ok (value, after)) :
    lookup name s = value.calledWith after.view { s with context := after } := by
  rw [lookup, Action.get_bind, found]
  cases value <;> rfl

theorem lookup_outcome (sound : s.context.Sound) (sound' : t.context.Sound)
    (views : s.context.views = t.context.views)
    (steady : ∀ f, meaning name s.context.views = .ok (.callable f) → f.DependsOnArguments) :
    (lookup name s).1 = (lookup name t).1 := by
  have finds := Context.find_of_sound sound' name
  rw [← views] at finds
  obtain ⟨fault, means, failed⟩ | ⟨value, after, means, found, same, -⟩ :=
    Context.find_of_sound sound name <;>
    obtain ⟨fault', means', failed'⟩ | ⟨value', after', means', found', same', -⟩ := finds <;>
    cases means.symm.trans means'
  · rw [lookup_of_find_error failed, lookup_of_find_error failed']
  · have view : after.view = after'.view := (List.cons.inj (same.trans same'.symm)).1
    rw [lookup_of_find_ok found, lookup_of_find_ok found', view]
    cases value with
    | callable f => exact steady f means _ _ _
    | _ => rfl

end Outcomes

namespace Cell

theorem length_keep (place : Nat) (frame : Frame) (cells : List Cell) :
    (keep place frame cells).length = cells.length := by
  induction cells with
  | nil => rfl
  | cons cell older ih =>
    unfold keep
    split
    · rfl
    · rw [List.length_cons, List.length_cons, ih]

theorem framesAt_eq_nil {place : Nat} {cells : List Cell} (beyond : cells.length ≤ place) :
    framesAt cells place = [] := by
  induction cells with
  | nil => rfl
  | cons cell older ih =>
    rw [List.length_cons] at beyond
    unfold framesAt
    rw [if_neg (by omega)]
    exact ih (by omega)

theorem framesAt_keep_here {place : Nat} {old frame : Frame} {outer : List Frame}
    {cells : List Cell} (there : framesAt cells place = old :: outer) :
    framesAt (keep place frame cells) place = frame :: outer := by
  induction cells with
  | nil => cases there
  | cons cell older ih =>
    unfold framesAt at there
    unfold keep
    by_cases newest : place = older.length
    · rw [if_pos newest] at there ⊢
      unfold framesAt
      rw [if_pos newest]
      cases pushed : cell.outer with
      | none =>
        rw [pushed] at there
        exact congrArg (frame :: ·) (List.cons.inj there).2
      | some outside =>
        rw [pushed] at there
        exact congrArg (frame :: ·) (List.cons.inj there).2
    · rw [if_neg newest] at there ⊢
      unfold framesAt
      rw [length_keep, if_neg newest]
      exact ih there

theorem framesAt_keep {place : Nat} {old frame : Frame} {outer : List Frame} {cells : List Cell}
    (there : framesAt cells place = old :: outer) (view : frame.view = old.view) (other : Nat) :
    (framesAt (keep place frame cells) other).map Frame.view =
        (framesAt cells other).map Frame.view ∧
      (other ≠ place →
        (framesAt (keep place frame cells) other).head? = (framesAt cells other).head?) := by
  induction cells generalizing other with
  | nil => cases there
  | cons cell older ih =>
    unfold framesAt at there
    unfold keep
    by_cases newest : place = older.length
    · rw [if_pos newest] at there ⊢
      unfold framesAt
      have same : cell.frame = old := by
        cases pushed : cell.outer <;> rw [pushed] at there <;> exact (List.cons.inj there).1
      by_cases here : other = older.length
      · rw [if_pos here, if_pos here]
        refine ⟨?_, fun apart => (apart (here.trans newest.symm)).elim⟩
        subst same
        cases cell.outer <;> simp only [List.map_cons, view]
      · rw [if_neg here, if_neg here]
        exact ⟨rfl, fun _ => rfl⟩
    · rw [if_neg newest] at there ⊢
      unfold framesAt
      rw [length_keep]
      by_cases here : other = older.length
      · rw [if_pos here, if_pos here]
        cases cell.outer with
        | none => exact ⟨rfl, fun _ => rfl⟩
        | some outside => exact ⟨congrArg (cell.frame.view :: ·) (ih there outside).1, fun _ => rfl⟩
      · rw [if_neg here, if_neg here]
        exact ih there other

def Recall (cells : List Cell) : Prop :=
  ∀ place frame outer, framesAt cells place = frame :: outer →
    frame.Recalls ((frame :: outer).map Frame.view)

theorem Recall.push {cells : List Cell} (every : Recall cells) (view : Value)
    (onto : Option Nat) : Recall (⟨⟨view, []⟩, onto⟩ :: cells) := by
  intro place frame outer there
  unfold framesAt at there
  by_cases newest : place = cells.length
  · rw [if_pos newest] at there
    cases onto <;> cases there <;> exact Frame.recalls_nothing _ _
  · rw [if_neg newest] at there
    exact every place frame outer there

theorem Recall.keep {cells : List Cell} (every : Recall cells) {place : Nat} {old frame : Frame}
    {outer : List Frame} (there : framesAt cells place = old :: outer)
    (view : frame.view = old.view) (recalls : frame.Recalls ((old :: outer).map Frame.view)) :
    Recall (keep place frame cells) := by
  intro other kept around found
  by_cases here : other = place
  · subst here
    rw [framesAt_keep_here there] at found
    cases found
    rwa [List.map_cons, view]
  · obtain ⟨views, head⟩ := framesAt_keep there view other
    have head := head here
    rw [found] at views head
    -- The frame is the one that was there, with the same views around it.
    cases before : framesAt cells other with
    | nil => rw [before] at head; cases head
    | cons first rest =>
      rw [before] at views head
      cases head
      rw [views]
      exact every other kept rest before

end Cell

namespace Contexts

variable {contexts : Contexts} {place : Nat} {context : Context}

def Sound (contexts : Contexts) : Prop :=
  Cell.Recall contexts.cells

def viewsAt (contexts : Contexts) (place : Nat) : List Value :=
  (Cell.framesAt contexts.cells place).map Frame.view

theorem framesAt_of_at? (there : contexts.at? place = some context) :
    Cell.framesAt contexts.cells place = context.frame :: context.outer := by
  unfold at? at there
  split at there
  next => cases there
  next frame outer frames =>
    cases there
    exact frames

theorem viewsAt_of_at? (there : contexts.at? place = some context) :
    contexts.viewsAt place = context.views := by
  unfold viewsAt
  rw [framesAt_of_at? there]
  rfl

theorem at?_of_viewsAt {view : Value} {outer : List Value}
    (views : contexts.viewsAt place = view :: outer) :
    ∃ context, contexts.at? place = some context := by
  unfold viewsAt at views
  unfold at?
  cases frames : Cell.framesAt contexts.cells place with
  | nil =>
    rw [frames] at views
    cases views
  | cons frame outer => exact ⟨_, rfl⟩

theorem Sound.at? (sound : contexts.Sound) (there : contexts.at? place = some context) :
    context.Sound :=
  sound place context.frame context.outer (framesAt_of_at? there)

theorem Sound.within {α : Type} {action : Action α} (sound : contexts.Sound)
    (alike : Action.Alike action action) (place : Nat) :
    (contexts.within place action).2.Sound ∧
      ∀ other, (contexts.within place action).2.viewsAt other = contexts.viewsAt other := by
  unfold Contexts.within
  cases there : contexts.at? place with
  | none => exact ⟨sound, fun _ => rfl⟩
  | some context =>
    have here := sound.at? there
    have start : Session.Alike context.views context.views { contexts.session with context }
        { contexts.session with context } :=
      ⟨rfl, rfl, rfl, rfl, rfl, rfl, rfl, here, here⟩
    obtain ⟨-, still⟩ := alike _ _ _ start
    have frames := framesAt_of_at? there
    have view := (List.cons.inj still.inViews).1
    have recalls := still.sound
    rw [Context.Sound, still.inViews] at recalls
    exact ⟨Cell.Recall.keep sound frames view recalls,
      fun other => (Cell.framesAt_keep frames view other).1⟩

theorem Sound.step (sound : contexts.Sound) (use : Use) :
    (contexts.step use).Sound ∧ ∀ place view outer, contexts.viewsAt place = view :: outer →
      (contexts.step use).viewsAt place = view :: outer := by
  cases use with
  | push onto view =>
    refine ⟨Cell.Recall.push sound view onto, fun place first outer before => ?_⟩
    have older : place < contexts.cells.length := by
      refine Nat.lt_of_not_le fun beyond => ?_
      rw [viewsAt, Cell.framesAt_eq_nil beyond] at before
      cases before
    rw [← before]
    change (Cell.framesAt (_ :: contexts.cells) place).map _ = _
    unfold Cell.framesAt
    rw [if_neg (by omega)]
    rfl
  | lookup place name =>
    obtain ⟨after, views⟩ := sound.within (lookup_alike name) place
    exact ⟨after, fun other _ _ before => (views other).trans before⟩
  | render place depth job name tree =>
    obtain ⟨after, views⟩ := sound.within (job.renderHere_alike depth name tree) place
    exact ⟨after, fun other _ _ before => (views other).trans before⟩

theorem Sound.after (sound : contexts.Sound) (uses : List Use) :
    (contexts.after uses).Sound ∧ ∀ place view outer, contexts.viewsAt place = view :: outer →
      (contexts.after uses).viewsAt place = view :: outer := by
  induction uses generalizing contexts with
  | nil => exact ⟨sound, fun _ _ _ => id⟩
  | cons use rest ih =>
    obtain ⟨next, views⟩ := sound.step use
    obtain ⟨last, later⟩ := ih next
    refine ⟨last, fun place view outer before => ?_⟩
    exact later place view outer (views place view outer before)

theorem Sound.answers {α : Type} {action : Action α} (sound : contexts.Sound)
    (there : contexts.at? place = some context) (alike : Action.Alike action action) :
    contexts.Answers place action (Action.inContext (.ofView (.chain context.views)) action) := by
  unfold Answers Contexts.within
  rw [there, ← alike.inContext context.views_ofView_chain.symm (sound.at? there)
    (Context.sound_ofView _)]
  exact ⟨rfl, rfl⟩

theorem Sound.asFresh (sound : contexts.Sound) (there : contexts.at? place = some context) :
    contexts.AsFresh place context.views where
  lookup name := sound.answers there (lookup_alike name)
  first name steady session := by
    have same : (Mustache.lookup name { contexts.session with context }).1 =
        (Mustache.lookup name
          { session with context := .ofView (.chain context.views) }).1 :=
      lookup_outcome (sound.at? there) (Context.sound_ofView _) context.views_ofView_chain.symm
        steady
    unfold Contexts.within
    rw [there]
    exact congrArg some same
  render engine depth tree partials source pair name :=
    sound.answers there (Job.renderHere_alike ⟨engine, partials, source, pair⟩ depth name tree)

end Contexts

theorem remembered_lookups_unobservable (session : Session) (earlier later : List Use)
    {place : Nat} {context : Context}
    (built : (Contexts.after { session } earlier).at? place = some context) :
    (Contexts.after { session } (earlier ++ later)).AsFresh place context.views := by
  have start : Contexts.Sound { session } := by
    rintro place frame outer ⟨⟩
  obtain ⟨sound, -⟩ := start.after earlier
  obtain ⟨still, views⟩ := sound.after later
  unfold Contexts.after at still views ⊢
  rw [List.foldl_append]
  have there := views place _ _ (Contexts.viewsAt_of_at? built)
  obtain ⟨now, found⟩ := Contexts.at?_of_viewsAt there
  rw [Contexts.viewsAt_of_at? found] at there
  have asFresh := still.asFresh found
  rw [there] at asFresh
  exact asFresh

def Closure.constant (value : Value) : Closure :=
  .written (.mk 0 [] true (.const value)) 0 none []

theorem Closure.dependsOnArguments_constant (value : Value) :
    (Closure.constant value).DependsOnArguments := by
  intro args s t
  cases args <;> rfl

/-- A function and an absent name, both remembered by the inner frame, the function by the outer one
as well. -/
theorem remembered_lookups_unobservable_of_function_and_null :
    (Contexts.after { session := {} }
        ([.push none (.map [(.str "f", .callable (.constant (.str "x")))]),
          .push (some 0) (.map [])] ++
        [.lookup 1 "f", .lookup 1 "a", .lookup 1 ".", .lookup 0 "f"])).at? 1 =
      some ⟨⟨.map [], [("a", .null), ("f", .callable (.constant (.str "x")))]⟩,
        [⟨.map [(.str "f", .callable (.constant (.str "x")))],
          [("f", .callable (.constant (.str "x")))]⟩]⟩ ∧
    ((Contexts.after { session := {} }
        ([.push none (.map [(.str "f", .callable (.constant (.str "x")))]),
          .push (some 0) (.map [])] ++
        [.lookup 1 "f", .lookup 1 "a", .lookup 1 ".", .lookup 0 "f"])).within 1 (lookup "f")).1 =
      some (.ok (.str "x")) := by
  have built : (Contexts.after { session := {} }
      [.push none (.map [(.str "f", .callable (.constant (.str "x")))]),
        .push (some 0) (.map [])]).at? 1 =
      some ⟨⟨.map [], []⟩, [⟨.map [(.str "f", .callable (.constant (.str "x")))], []⟩]⟩ := rfl
  have asFresh := remembered_lookups_unobservable {} _
    [.lookup 1 "f", .lookup 1 "a", .lookup 1 ".", .lookup 0 "f"] built
  refine ⟨rfl, (asFresh.first "f" ?_ {}).trans rfl⟩
  rintro f ⟨⟩
  exact Closure.dependsOnArguments_constant _

end Mustache

import Mustache.Proofs.CacheKeys
import Mustache.Proofs.TreesInStep

set_option autoImplicit false

namespace Mustache

def Job.uncached (job : Job) : Job :=
  { job with engine := job.engine.uncached }

structure Job.Keeps (inUse : Delimiters → Prop) (job : Job) : Prop where
  used : inUse job.pair
  keeps : ∃ slot, job.engine.cache = .keepFirst slot

namespace Job

open Mustache.Action (Agree)

variable {inUse : Delimiters → Prop}

theorem inRender_agree {α : Type} (engine : Engine) (name : Option String) {first second : Action α}
    (agree : Agree (Stored inUse) first second) :
    Agree (Stored inUse) (engine.inRender name first) (engine.uncached.inRender name second) :=
  agree.inRender engine name

theorem uncachedInStep (apart : ToldApart inUse) :
    TreesInStep (fun _ : Unit => fun _ => Agree (Stored inUse))
      (fun _ : Unit => fun _ => Agree (Stored inUse)) (fun _ _ => ()) uncached
      (fun job _ => job.Keeps inUse) where
  steps _ := (Agree.inStep _).toInStep
  catches _ := Agree.inStep _
  find _ name := .onShared (Session.Shared.find name)
  weaken := id
  escaper _ := rfl
  partials _ := rfl
  source _ := rfl
  withSource _ _ := rfl
  part keeps _ := keeps
  inFrame view := .inFrame view
  inRender job := inRender_agree job.engine none
  inPartial name := .inPartial name
  parse source keeps onward answered := by
    obtain ⟨slot, kept⟩ := keeps.keeps
    refine (Engine.parse_agree apart kept keeps.used source none).bind fun tree => ?_
    cases tree with
    | parsed nodes => exact onward nodes ⟨keeps.used, slot, kept⟩
    | foreign answer => exact answered answer
  lambda _ _ _ := .record _ _
  sourceless _ _ _ := .throw _

theorem renderTree_agree (apart : ToldApart inUse) {job : Job} (keeps : job.Keeps inUse)
    (depth : Nat) (tree : Tree) :
    Agree (Stored inUse) (job.renderTree (render depth) tree)
      (job.uncached.renderTree (render depth) tree) :=
  let walk := uncachedInStep apart
  walk.renderTree (walk.render_same depth) () fun _ _ => keeps

end Job

namespace Engine

open Mustache.Action (Agree)

variable {inUse : Delimiters → Prop} {engine : Engine} {slot : Nat}

@[simp] theorem pairFor_uncached (engine : Engine) (tags : Value) :
    engine.uncached.pairFor tags = engine.pairFor tags := rfl

variable (apart : ToldApart inUse) (keeps : engine.cache = .keepFirst slot)

include apart keeps

theorem renderTree_agree {pair : Delimiters} (used : inUse pair) (depth : Nat) (tree : Tree)
    (view partials : Value) (source name : Option String) :
    Agree (Stored inUse) (engine.renderTree depth tree view partials source pair name)
      (engine.uncached.renderTree depth tree view partials source pair name) := by
  have job : Job.Keeps inUse ⟨engine, partials, source, pair⟩ := ⟨used, slot, keeps⟩
  have render := Job.renderTree_agree apart job depth tree
  exact .inContext _ (Job.inRender_agree engine name render)

theorem render_agree {tags : Value} (named : ∀ pair, engine.pairFor tags = .ok pair → inUse pair)
    (depth : Nat) (template view partials : Value) :
    Agree (Stored inUse) (engine.render depth template view partials tags)
      (engine.uncached.render depth template view partials tags) := by
  unfold render
  split
  next source =>
    rw [pairFor_uncached]
    cases paired : engine.pairFor tags with
    | error fault => exact .throw fault
    | ok pair =>
      have used := named pair paired
      have parse := parse_agree apart keeps used source none
      exact parse.bind fun tree => renderTree_agree apart keeps used depth tree view partials _ _
  next => exact .throw _

theorem template_agree {tags : Value} (named : ∀ pair, engine.pairFor tags = .ok pair → inUse pair)
    (source : Value) (name : Option String) :
    Agree (Stored inUse) (engine.template source name tags)
      (engine.uncached.template source name tags) := by
  unfold template
  split
  next source =>
    rw [pairFor_uncached]
    cases paired : engine.pairFor tags with
    | error fault => exact .throw fault
    | ok pair =>
      have parse := parse_agree apart keeps (named pair paired) source name
      exact parse.bind fun tree => .pure _
  next => exact .throw _

theorem loadTemplate_agree (used : inUse engine.pair) (name : String) :
    Agree (Stored inUse) (engine.loadTemplate name) (engine.uncached.loadTemplate name) := by
  have named : ∀ pair, engine.pairFor .null = .ok pair → inUse pair := by
    -- Templates that are loaded name no pair.
    rintro pair (paired : Except.ok engine.pair = _)
    rwa [← Except.ok.inj paired]
  unfold loadTemplate
  change Agree _ (if engine.loader.canLoad then _ else _) (if engine.loader.canLoad then _ else _)
  split
  · refine .bind (loadSource_inStep (Agree.inStep _) _ name) fun source => ?_
    exact template_agree apart keeps named source (some name)
  · exact .throw _

theorem renderTemplate_agree (used : inUse engine.pair) {template : Template}
    (given : ∀ pair, template.tags = some pair → inUse pair) (depth : Nat) (view partials : Value)
    (names : List (String × Value)) :
    Agree (Stored inUse) (engine.renderTemplate depth template view partials names)
      (engine.uncached.renderTemplate depth template view partials names) := by
  have chosen : inUse (template.tags.getD engine.pair) := by
    cases tags : template.tags with
    | none => exact used
    | some pair => exact given pair tags
  exact renderTree_agree apart keeps chosen depth _ _ _ _ _

end Engine

end Mustache

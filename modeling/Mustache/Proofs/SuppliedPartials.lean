import Mathlib.Data.List.Sort
import Mathlib.Data.String.Basic
import Mustache.Proofs.BoundName
import Mustache.Proofs.DataInStep

set_option autoImplicit false

namespace Mustache

open Mustache.Action (Preserve Yields)

def textEntries (sources : List (String × String)) : List (Value × Value) :=
  sources.map fun entry => (.str entry.1, .str entry.2)

def optionalText (source : Option String) : Value :=
  (source.map Value.str).getD .null

section Mappings

variable {sources : List (String × String)} {name : String}

theorem valueAt?_textEntries :
    Value.valueAt? (.str name) (textEntries sources) = (sources.lookup name).map .str := by
  induction sources with
  | nil => rfl
  | cons entry rest ih =>
    obtain ⟨key, source⟩ := entry
    change (if (Value.str key).equals (.str name) then some (Value.str source)
      else Value.valueAt? (.str name) (textEntries rest)) = _
    by_cases same : key = name
    · rw [if_pos (Value.equals_str_iff.2 (congrArg Value.str same)), same, List.lookup_cons_self]
      rfl
    · have differs : (name == key) = false := beq_false_of_ne (Ne.symm same)
      rw [if_neg (by simp [Value.equals_str_iff, same]), ih, List.lookup_cons, differs]

theorem insertSorted?_texts (text : String) (texts : List String) :
    Value.insertSorted? (.str text) (texts.map .str) =
      some ((texts.orderedInsert (· ≤ ·) text).map .str) := by
  induction texts with
  | nil => rfl
  | cons first rest ih =>
    by_cases before : first < text
    · have onward : ¬ text ≤ first := not_le.2 before
      simp [Value.insertSorted?, Value.precedes?, before, onward, ih]
    · have here : text ≤ first := not_lt.1 before
      simp [Value.insertSorted?, Value.precedes?, before, here]

theorem sort?_texts (texts : List String) :
    Value.sort? (texts.map .str) = some ((texts.insertionSort (· ≤ ·)).map .str) := by
  induction texts with
  | nil => rfl
  | cons first rest ih =>
    rw [Value.sort?] at ih ⊢
    rw [List.map_cons, List.foldrM_cons, ih]
    exact insertSorted?_texts first _

theorem textsOf?_texts (texts : List String) : textsOf? (texts.map .str) = some texts := by
  induction texts with
  | nil => rfl
  | cons first rest ih => simp [textsOf?, ih]

theorem exists_candidates (texts : List String) :
    ∃ candidates : List (Value × List Value), ((texts.map Value.str).mapM fun key =>
        key.iterate?.map fun items => (key, items)) = some candidates ∧
      ∀ candidate ∈ candidates, ∃ text, candidate.1 = .str text := by
  induction texts with
  | nil => exact ⟨[], rfl, List.forall_mem_nil _⟩
  | cons first rest ih =>
    obtain ⟨candidates, done, isText⟩ := ih
    let letters : List Value := first.toList.map fun c => .str (String.singleton c)
    refine ⟨(.str first, letters) :: candidates, ?_, ?_⟩
    · rw [List.map_cons, List.mapM_cons, done]
      rfl
    · exact List.forall_mem_cons.2 ⟨⟨first, rfl⟩, isText⟩

theorem exists_missingName (name : String) (texts : List String) :
    ∃ missing, missingName (.str name) (texts.map .str) = .ok missing := by
  obtain ⟨candidates, listed, isText⟩ := exists_candidates texts
  unfold missingName
  rw [listed, textsOf?_texts]
  dsimp only [Value.iterate?]
  split
  next similar found =>
    obtain ⟨items, member⟩ := exists_of_closest? found
    obtain ⟨text, rfl⟩ : ∃ text, similar = .str text := isText _ member
    exact ⟨_, rfl⟩
  next => exact ⟨_, rfl⟩

theorem exists_missing (sources : List (String × String)) (name : String) :
    ∃ missing, (sortedKeys (.map (textEntries sources)) >>= missingName (.str name)) =
      .ok missing := by
  have keys : (textEntries sources).map Prod.fst = (sources.map Prod.fst).map .str := by
    simp [textEntries]
  obtain ⟨missing, told⟩ :=
    exists_missingName name ((sources.map Prod.fst).insertionSort (· ≤ ·))
  refine ⟨missing, ?_⟩
  rw [sortedKeys, keys, sort?_texts]
  exact told

theorem loadEntry_of_some {source : String} (known : sources.lookup name = some source) :
    loadEntry (.map (textEntries sources)) (.str name) = pure (foundAt (.str source) none) := by
  have entry : entryOf (.map (textEntries sources)) (.str name) = .ok (some (.str source)) :=
    congrArg Except.ok (by rw [valueAt?_textEntries, known]; rfl)
  rw [loadEntry, entry]

theorem exists_loadEntry_of_none (unknown : sources.lookup name = none) :
    ∃ missing, loadEntry (.map (textEntries sources)) (.str name) =
      throw (.notFound name missing) := by
  have entry : entryOf (.map (textEntries sources)) (.str name) = .ok none :=
    congrArg Except.ok (by rw [valueAt?_textEntries, unknown]; rfl)
  obtain ⟨missing, told⟩ := exists_missing sources name
  refine ⟨missing, ?_⟩
  rw [loadEntry, entry]
  dsimp only
  rw [told]
  rfl

end Mappings

structure Session.Beside (first second : Session) : Prop where
  scope : second.scope = first.scope
  context : second.context = first.context
  caches : second.caches = first.caches

def Action.Answers {α : Type} (action : Action α) (outcome : Except Fault α) : Prop :=
  ∀ s, Yields (Session.Beside s) action outcome

namespace Action.Answers

variable {α β : Type} {action : Action α} {outcome : Except Fault α}

theorem pure (value : α) : Answers (pure value) (.ok value) :=
  fun _ => .pure value

theorem throw (fault : Fault) : Answers (throw fault : Action α) (.error fault) :=
  fun _ => .throw fault

theorem record (event : Event) : Answers (Action.record event) (.ok ()) :=
  fun _ => .update fun _ beside => { beside with }

theorem ofOk {next : α → Action β} {value : α} {result : Except Fault β}
    (answers : Answers action (.ok value)) (onward : Answers (next value) result) :
    Answers (action >>= next) result :=
  fun s => .andThen (answers s) (onward s)

theorem ofError {next : α → Action β} {fault : Fault} (answers : Answers action (.error fault)) :
    Answers (action >>= next) (.error fault) :=
  fun s => @Yields.bind _ _ _ _ _ _ (fun _ => .error fault) (answers s) fun _ same => nomatch same

theorem attempt (answers : Answers action outcome) :
    Answers (Action.attempt action) (.ok outcome) := by
  intro s t beside
  obtain ⟨done, after⟩ := answers s t beside
  exact ⟨congrArg Except.ok done, after⟩

end Action.Answers

open Mustache.Action (Answers)

section Supplies

variable {sources : List (String × String)}

/-- A function that gets the source of a name, or null, as long as calls may nest at all. -/
def Closure.Gets (sources : List (String × String)) (f : Closure) : Prop :=
  ∀ (name : String) (depth : Nat), callDepth ≤ depth + 1 →
    Answers (callWithin depth f [.str name]) (.ok (optionalText (sources.lookup name)))

/-- A loader of a mapping, of a function that gets from it, or a choice of one that is. -/
inductive Loader.Serves (sources : List (String × String)) : Loader → Prop
  | names : Serves sources (.names (.map (textEntries sources)))
  | function {f : Closure} (gets : f.Gets sources) : Serves sources (.function f)
  | choice {loader : Loader} (serves : Serves sources loader) :
      Serves sources (.choice [.loader loader])

/-- Partials that come from a mapping of texts: the mapping, a function that gets from it, or a
loader. -/
inductive Value.Supplies (sources : List (String × String)) : Value → Prop
  | mapping : Supplies sources (.map (textEntries sources))
  | function {f : Closure} (gets : f.Gets sources) : Supplies sources (.callable f)
  | loader {loader : Loader} (serves : loader.Serves sources) : Supplies sources (.loader loader)

inductive Loaded : Option String → Except Fault Value → Prop
  | found (source : String) (origin : Option String) :
      Loaded (some source) (.ok (foundAt (.str source) origin))
  | missing (wanted : String) (missing : Missing) : Loaded none (.error (.notFound wanted missing))

def Closure.getter (sources : List (String × String)) (site serial : Nat) : Closure :=
  .written (.mk site [.required false] true (.entry (.const (.map (textEntries sources))) (.arg 0)))
    serial none []

theorem renewEntries_textEntries (serial : Nat) (sources : List (String × String)) :
    Value.renewEntries serial (textEntries sources) = textEntries sources := by
  induction sources with
  | nil => rfl
  | cons entry rest ih => exact congrArg ((Value.str entry.1, Value.str entry.2) :: ·) ih

theorem Closure.getter_gets (sources : List (String × String)) (site serial : Nat) :
    (getter sources site serial).Gets sources := by
  intro name depth _
  let code : Code :=
    .mk site [.required false] true (.entry (.const (.map (textEntries sources))) (.arg 0))
  have written : callWithin depth (getter sources site serial) [.str name] =
      code.call serial none [] [.str name] := by
    cases depth <;> rfl
  have entry : (Value.map (textEntries sources)).lookUp (.str name) =
      .ok (optionalText (sources.lookup name)) := by
    change Except.ok ((Value.valueAt? (.str name) (textEntries sources)).getD .null) = _
    rw [valueAt?_textEntries]
    rfl
  have body (callCount : Nat) :
      code.body.eval { serial, owner := none, outer := [], args := [.str name], callCount } =
        pure (optionalText (sources.lookup name)) := by
    change Action.ofHost
      ((Value.map (Value.renewEntries serial (textEntries sources))).lookUp (.str name)) = _
    rw [renewEntries_textEntries]
    exact congrArg Action.ofHost entry
  rw [written, Code.call_of_bind? (show code.bind? [.str name] = some [.str name] from rfl)]
  intro s t beside
  simp only [body]
  exact ⟨rfl, beside.scope, beside.context, beside.caches⟩

theorem Loader.Serves.answers {loader : Loader} (serves : loader.Serves sources) (name : String)
    {depth : Nat} (deep : callDepth ≤ depth + 1) :
    ∃ outcome, Loaded (sources.lookup name) outcome ∧
      Answers (loader.load (Closure.callWithin depth) (.str name)) outcome := by
  induction serves with
  | names =>
    rw [Loader.load]
    cases known : sources.lookup name with
    | some source =>
      rw [loadEntry_of_some known]
      exact ⟨_, .found source none, .pure _⟩
    | none =>
      obtain ⟨missing, told⟩ := exists_loadEntry_of_none known
      rw [told]
      exact ⟨_, .missing _ missing, .throw _⟩
  | function gets =>
    have got := gets name depth deep
    rw [Loader.load]
    cases known : sources.lookup name with
    | some source =>
      rw [known] at got
      exact ⟨_, .found source _, got.ofOk (.pure _)⟩
    | none =>
      rw [known] at got
      exact ⟨_, .missing _ .unknown, got.ofOk (.throw _)⟩
  | choice _ ih =>
    obtain ⟨outcome, loaded, answers⟩ := ih
    rw [Loader.load, Loader.loadFirst, Loader.loadFrom]
    generalize sources.lookup name = known at loaded ⊢
    cases loaded with
    | found source origin => exact ⟨_, .found source origin, answers.attempt.ofOk (.pure _)⟩
    | missing wanted missing =>
      rw [Loader.loadFirst]
      exact ⟨_, .missing _ _, answers.attempt.ofOk (.throw _)⟩

theorem loadPartial_answers {loader : Loader} (serves : loader.Serves sources) (name : String) :
    Answers (loadPartial (.loader loader) name) (.ok (sources.lookup name)) := by
  obtain ⟨outcome, loaded, answers⟩ :=
    serves.answers name (show callDepth ≤ (callDepth - 1) + 1 from Nat.le_refl _)
  have asked : callAttribute Closure.call (.loader loader) "get_source" [.str name] =
      loader.load (Closure.callWithin (callDepth - 1)) (.str name) := by
    cases loader <;> rfl
  unfold loadPartial loadSource
  rw [asked]
  generalize sources.lookup name = known at loaded ⊢
  cases loaded with
  | found source origin =>
    have sourced :
        Answers (loader.load (Closure.callWithin (callDepth - 1)) (.str name) >>= sourceOf)
          (.ok (.str source)) := answers.ofOk (.pure (Value.str source))
    exact sourced.attempt.ofOk (.pure (some source))
  | missing wanted missing =>
    have unsourced : Answers (loader.load (Closure.callWithin (callDepth - 1)) (.str name) >>=
        sourceOf) (.error (.notFound wanted missing)) := answers.ofError
    exact unsourced.attempt.ofOk ((Answers.record _).ofOk (.pure none))

theorem Value.Supplies.resolves {partials : Value} (supplies : partials.Supplies sources)
    (name : String) : Answers (resolvePartial name partials) (.ok (sources.lookup name)) := by
  have text (found : Option String) :
      Answers (partialText name (optionalText found)) (.ok found) := by
    cases found with
    | none => exact (Answers.record _).ofOk (.pure none)
    | some source => exact .pure (some source)
  cases supplies with
  | mapping =>
    rw [resolvePartial, valueAt?_textEntries]
    exact text _
  | function gets =>
    exact (gets name callDepth (Nat.le_succ _)).ofOk (text _)
  | @loader loader serves =>
    have loads : (Value.loader loader).canLoad = true := by
      cases loader <;> rfl
    have asked : resolvePartial name (.loader loader) = loadPartial (.loader loader) name :=
      if_pos loads
    rw [asked]
    exact loadPartial_answers serves name

end Supplies

section Engines

theorem unscoped_caches : Unscoped Session.caches :=
  fun _ _ _ _ => rfl

theorem Action.Answers.preserve {α : Type} {first second : Action α} {outcome : Except Fault α}
    (answers : Answers first outcome) (answers' : Answers second outcome) :
    Preserve (Session.SameData Session.caches) first second := by
  intro s t same
  obtain ⟨done, after⟩ := answers s s ⟨rfl, rfl, rfl⟩
  obtain ⟨done', after'⟩ := answers' t t ⟨rfl, rfl, rfl⟩
  refine ⟨done.trans done'.symm, ?_⟩
  exact
    { scope := after.scope.trans (same.scope.trans after'.scope.symm)
      context := after.context.trans (same.context.trans after'.context.symm)
      views := after.context ▸ same.views
      found := after.context ▸ same.found
      kept := after.caches.trans (same.kept.trans after'.caches.symm) }

theorem onCaches_sameData {α : Type} (step : List TreeCache → α × List TreeCache) :
    Preserve (Session.SameData Session.caches) (Action.onCaches step) (Action.onCaches step) := by
  intro s t same
  have caches : s.caches = t.caches := same.kept
  unfold Action.onCaches
  rw [caches]
  exact ⟨rfl, { same with kept := rfl }⟩

namespace Engine

variable {engine : Engine} (own : ∀ value, engine.cache ≠ .host value)

include own

theorem parse_sameData (source : String) (pair : Delimiters) (name : Option String) :
    Preserve (Session.SameData Session.caches) (engine.parse source pair name)
      (engine.parse source pair name) := by
  have shared := scopeShared_sameData unscoped_caches
  obtain ⟨step, finds⟩ := CacheHandle.find_eq_onCaches own (pair.cacheKey source)
  unfold parse
  dsimp only
  rw [finds]
  refine (onCaches_sameData step).bind fun found => ?_
  cases found with
  | some tree => exact .bind (.record shared _) fun _ => .pure tree
  | none =>
    refine .bind (.record shared _) fun _ => ?_
    refine .bind (.ofExcept _) fun nodes => ?_
    obtain ⟨step, inserts⟩ := CacheHandle.insert_eq_onCaches own (pair.cacheKey source) nodes
    rw [inserts]
    exact (onCaches_sameData step).bind fun _ => .pure _

variable {sources : List (String × String)} {loader partials partials' : Value}
  (supplies : (engine.partialsFor partials).Supplies sources)
  (supplies' : ({ engine with loader }.partialsFor partials').Supplies sources)

include supplies supplies'

theorem alike_of_supplied (source : Option String) (pair : Delimiters) :
    Job.Alike Session.caches ⟨engine, partials, source, pair⟩
      ⟨{ engine with loader }, partials', source, pair⟩ where
  escaper := rfl
  resolves name := (supplies.resolves name).preserve (supplies'.resolves name)
  parses source := parse_sameData own source pair none

theorem render_of_supplied {view : Value} (data : view.IsDataView) (depth : Nat)
    (template tags : Value) (s : Session) :
    (engine.render depth template view partials tags s).1 =
      ({ engine with loader }.render depth template view partials' tags s).1 := by
  cases template with
  | str source =>
    unfold render
    cases paired : engine.pairFor tags with
    | error fault =>
      have refused : { engine with loader }.pairFor tags = .error fault := paired
      rw [refused]
      rfl
    | ok pair =>
      have chosen : { engine with loader }.pairFor tags = .ok pair := paired
      rw [chosen]
      change ((engine.parse source pair >>= fun tree => _) s).1 =
        ((engine.parse source pair >>= fun tree => _) s).1
      rcases ran : engine.parse source pair none s with ⟨outcome, after⟩
      cases outcome with
      | error fault => rw [Action.bind_of_error ran, Action.bind_of_error ran]
      | ok tree =>
        rw [Action.bind_of_ok ran, Action.bind_of_ok ran]
        have alike := alike_of_supplied own supplies supplies' (some source) pair
        have start := Job.start_sameData unscoped_caches alike depth tree
        exact renderTree_sameData unscoped_caches data start rfl none rfl rfl
  | _ => rfl

end Engine

/-- An empty source and a missing one, which a function and a choice of loaders tell apart. -/
theorem render_of_supplied_by_function_and_choice :
    let sources := [("p", "<{{>e}}{{>q}}>"), ("e", "")]
    let engine : Engine :=
      { cache := .keepFirst 0, loader := .callable (Closure.getter sources 0 0) }
    let choice : Value := .loader (.choice [.loader (.names (.map (textEntries sources)))])
    let s : Session := { caches := [{}] }
    (engine.partialsFor .null).Supplies sources ∧
      ({ engine with loader := .null }.partialsFor choice).Supplies sources ∧
      (∀ value, engine.cache ≠ .host value) ∧ Value.null.IsDataView ∧
      (engine.render 3 (.str "a{{>p}}") .null .null .null s).1.toOption = some "a<>" ∧
      (engine.render 3 (.str "a{{>p}}") .null .null .null s).1 =
        ({ engine with loader := .null }.render 3 (.str "a{{>p}}") .null choice .null s).1 := by
  intro sources engine choice s
  have supplies : (engine.partialsFor .null).Supplies sources :=
    .function (Closure.getter_gets sources 0 0)
  have supplies' : ({ engine with loader := .null }.partialsFor choice).Supplies sources :=
    .loader (.choice .names)
  have own : ∀ value, engine.cache ≠ .host value := by simp [engine]
  have data : Value.null.IsDataView := Value.isDataView_of_isData rfl
  exact ⟨supplies, supplies', own, data, by decide +kernel,
    Engine.render_of_supplied own supplies supplies' data 3 _ _ s⟩

end Engines

end Mustache

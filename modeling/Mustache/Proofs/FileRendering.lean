import Mustache.Proofs.SuppliedPartials
import Mustache.Proofs.Totality

set_option autoImplicit false

namespace Mustache

open Mustache.Action (Answers Yields)

namespace FileSearch

def source? (search : FileSearch) (name : String) : Except Fault (Option String) :=
  match search.find? name with
  | .error refusal => .error (.host (.file refusal))
  | .ok none => .ok none
  | .ok (some (_, content)) =>
      match decodeText? search.encoding content with
      | some source => .ok (some source)
      | none => .error (.host .undecodable)

end FileSearch

section Sources

variable {α : Type} {search : FileSearch}

theorem Action.Answers.yields {action : Action α} {outcome : Except Fault α}
    (answers : Answers action outcome) (outlook : Outlook) :
    Yields (Session.At outlook) action outcome := by
  intro s at'
  obtain ⟨done, after⟩ := answers s s ⟨rfl, rfl, rfl⟩
  have remembers := at'.remembers
  rw [← after.context] at remembers
  exact ⟨done, after.scope.trans at'.scope, after.context ▸ at'.views, remembers⟩

theorem resolvePartial_files (search : FileSearch) (name : String) :
    Answers (resolvePartial name (.loader (.files search))) (search.source? name) := by
  have asked : resolvePartial name (.loader (.files search)) =
      loadPartial (.loader (.files search)) name := rfl
  have sourced : loadSource (.loader (.files search)) name =
      search.loadText name >>= sourceOf := rfl
  rw [asked, loadPartial, sourced]
  unfold FileSearch.loadText FileSearch.source?
  cases search.find? name with
  | error refusal =>
    have refused : Answers (throw (.host (.file refusal)) >>= sourceOf)
        (.error (.host (.file refusal))) := (Answers.throw _).ofError
    exact refused.attempt.ofOk (.throw _)
  | ok found =>
    cases found with
    | none =>
      have missing : Answers ((do
          let paths := search.bases.map Path.text
          Action.record (.fileMissing name paths)
          throw (.notFound name (.directories paths))) >>= sourceOf)
          (.error (.notFound name (.directories (search.bases.map Path.text)))) :=
        ((Answers.record _).ofOk (.throw _)).ofError
      exact missing.attempt.ofOk ((Answers.record _).ofOk (.pure none))
    | some file =>
      obtain ⟨path, content⟩ := file
      dsimp only
      cases decodeText? search.encoding content with
      | none =>
        have undecodable : Answers (throw (.host .undecodable) >>= sourceOf)
            (.error (.host .undecodable)) := (Answers.throw _).ofError
        exact undecodable.attempt.ofOk (.throw _)
      | some source =>
        have given : Answers (pure (foundAt (.str source) (some path.text)) >>= sourceOf)
            (.ok (.str source)) := (Answers.pure _).ofOk (.pure _)
        exact given.attempt.ofOk (.pure (some source))

end Sources

namespace Engine

variable {engine : Engine} {search : FileSearch} {name : Option String} {view : Value}
  {source : String} {s : Session}

def fileStyle (engine : Engine) (search : FileSearch) : Style where
  escaper := engine.escaper
  pair := engine.pair
  source? := search.source?

theorem styled_of_files (loads : engine.loader = .loader (.files search)) (source : Option String) :
    Job.Styled ⟨engine, .null, source, engine.pair⟩ (engine.fileStyle search) := by
  refine ⟨rfl, rfl, fun outlook name => ?_⟩
  rw [show engine.partialsFor .null = engine.loader from rfl, loads]
  exact (resolvePartial_files search name).yields outlook

theorem template_bind_renderTemplate (engine : Engine) (source : String) (name : Option String)
    (depth : Nat) (view partials : Value) :
    (engine.template (.str source) name .null >>= fun template =>
        engine.renderTemplate depth template view partials []) =
      (engine.parse source engine.pair name >>= fun tree =>
        engine.renderTree depth tree view partials (some source) engine.pair name) := by
  have paired : Action.ofExcept (engine.pairFor .null) = pure engine.pair := rfl
  simp only [template, paired, pure_bind, bind_assoc]
  rfl

theorem Ready.parsed_eq_uncached (ready : engine.Ready engine.pair s) (depth : Nat)
    (source : String) (name : Option String) (view partials : Value) :
    ((engine.parse source engine.pair name >>= fun tree =>
        engine.renderTree depth tree view partials (some source) engine.pair name) s).1 =
      ((engine.uncached.parse source engine.pair name >>= fun tree =>
        engine.uncached.renderTree depth tree view partials (some source) engine.pair name)
          s).1 := by
  rcases ready.kept with nothing | ⟨slot, inUse, keeps, apart, used, stored⟩
  · rw [uncached_of_nothing nothing]
  · have parse := parse_agree apart keeps used source name
    have both := parse.bind fun tree =>
      renderTree_agree apart keeps used depth tree view partials (some source) name
    exact (both s s ⟨rfl, rfl, rfl, rfl, stored⟩).1

theorem renderTemplate_of_files (ready : engine.Ready engine.pair s)
    (loads : engine.loader = .loader (.files search)) (data : view.IsDataView) (depth : Nat) :
    ((engine.template (.str source) name .null >>= fun template =>
        engine.renderTemplate depth template view .null []) s).1 =
      (parseTemplate source engine.pair name >>=
        (engine.fileStyle search).write depth (engine.outlookNamed name view)) := by
  rw [template_bind_renderTemplate, ready.parsed_eq_uncached]
  have whole : Yields (fun t => t.scope = none)
      (engine.uncached.parse source engine.pair name >>= fun tree =>
        engine.uncached.renderTree depth tree view .null (some source) engine.pair name)
      (parseTemplate source engine.pair name >>=
        (engine.fileStyle search).write depth (engine.outlookNamed name view)) :=
    parse_yields (fun _ _ held => held) engine source engine.pair fun nodes parsed =>
      renderTree_yields (Job.render_writes (engine.fileStyle search) depth _ nodes _
        (styled_of_files loads (some source)) data)
  exact (whole s ready.outside).1

end Engine

/-- The faults of rendering data with partials from files. A number has too many digits only if the
numbers do not fit. -/
inductive Fault.OfFiles (fitting : Prop) : Fault → Prop
  | engine {fault : Fault} (ofEngine : fault.OfEngine) : OfFiles fitting fault
  | exhausted : OfFiles fitting .exhausted
  | undecodable : OfFiles fitting (.host .undecodable)
  | tooLong : OfFiles fitting (.host (.file .tooLong))
  | tooManyDigits (long : ¬ fitting) : OfFiles fitting (.host .tooManyDigits)

open Fault (OfFiles)

theorem Fault.OfFiles.ofEnd {fitting : Prop} (fault : Fault)
    (ended : fault.OfEngine ∨ fault = .host .tooManyDigits ∧ ¬ fitting) :
    fault.OfFiles fitting := by
  rcases ended with ofEngine | ⟨rfl, long⟩
  · exact .engine ofEngine
  · exact .tooManyDigits long

theorem Fails.ofEnds {α : Type} {fitting : Prop} {outcome : Except Fault α}
    (ends : Ends fitting outcome) : Fails (OfFiles fitting) outcome :=
  fun fault failed => .ofEnd fault (ends fault failed)

section Searches

variable {disk : Disk} {refusal : Refusal}

theorem tooLong_of_place? {path : Path} (refused : disk.place? path = .error refusal) :
    refusal = .tooLong := by
  unfold Disk.place? at refused
  split at refused
  next => cases refused
  next =>
    cases refused
    rfl
  next => cases refused

theorem tooLong_of_firstFile? {paths : List Path}
    (refused : disk.firstFile? paths = .error refusal) : refusal = .tooLong := by
  induction paths with
  | nil => cases refused
  | cons path rest ih =>
    unfold Disk.firstFile? at refused
    split at refused
    next _ here =>
      cases refused
      exact tooLong_of_place? here
    next => cases refused
    next => exact ih refused

theorem FileSearch.source?_fails (search : FileSearch) (fitting : Prop) (name : String) :
    Fails (OfFiles fitting) (search.source? name) := by
  unfold FileSearch.source?
  split
  next refusal refused =>
    rw [tooLong_of_firstFile? refused]
    exact .error .tooLong
  next => exact .ok _
  next =>
    split
    · exact .ok _
    · exact .error .undecodable

end Searches

structure Style.FromFiles (fitting : Prop) (style : Style) : Prop where
  fails : ∀ name, Fails (OfFiles fitting) (style.source? name)
  reads : ∀ name text, style.source? name = .ok (some text) → fitting → Readable text.toList

section Nodes

variable {fitting : Prop} {style : Style} {inner : Writer} {outlook : Outlook}

variable (fromFiles : style.FromFiles fitting)
  (below : ∀ outlook nodes, Outlook.Fits fitting outlook → Named fitting nodes →
    Fails (OfFiles fitting) (inner outlook nodes))
  (fits : outlook.Fits fitting)

include fromFiles below fits

theorem writePartial_fails (token : Token) :
    Fails (OfFiles fitting) (style.writePartial inner outlook token) := by
  refine (fromFiles.fails token.value).bind fun source there => ?_
  cases source with
  | none => exact .ok _
  | some text =>
    refine Fails.bind (fun fault failed => .engine (ofEngine_of_parseTemplate failed))
      fun nodes parsed => ?_
    refine (Fails.ofEnds (fits.inPartial_ends token.value)).bind fun inside entered => ?_
    refine below inside nodes (fits.inPartial entered) ?_
    refine named_of_parseTemplate parsed fun isSo => ?_
    exact readable_partialSource (fromFiles.reads _ _ there isSo) token

theorem writeLeaf_fails {token : Token} (named : Named fitting [.leaf token]) :
    Fails (OfFiles fitting) (style.writeLeaf inner outlook token) := by
  have found (isTag : token.isTag = true) (convert : String → String) :
      Fails (OfFiles fitting) (outlook.find token.value >>= written convert) :=
    .ofEnds (fits.found_ends convert (named.tag isTag))
  unfold Style.writeLeaf
  cases kind : token.kind with
  | escaped => exact found (by simp [Token.isTag, kind]) _
  | unescaped => exact found (by simp [Token.isTag, kind]) _
  | partialTag => exact writePartial_fails fromFiles below fits token
  | _ => exact .ok _

theorem writeNode_fails {node : Node} (named : Named fitting [node]) :
    Fails (OfFiles fitting) (style.writeNode inner outlook node) := by
  cases node with
  | leaf token => exact writeLeaf_fails fromFiles below fits named
  | block opener children closeStart =>
    refine fits.block_fails OfFiles.ofEnd named (below outlook children fits named.body) ?_
    exact fun view writable => below _ children (fits.push writable) named.body

theorem writeNodes_fails {nodes : List Node} (named : Named fitting nodes) :
    Fails (OfFiles fitting) (style.writeNodes inner outlook nodes) := by
  induction nodes with
  | nil => exact .ok _
  | cons node rest ih =>
    exact (writeNode_fails fromFiles below fits named.head).joined (ih named.tail)

end Nodes

theorem write_fails {fitting : Prop} {style : Style} (fromFiles : style.FromFiles fitting)
    (depth : Nat) {outlook : Outlook} (fits : outlook.Fits fitting) {nodes : List Node}
    (named : Named fitting nodes) : Fails (OfFiles fitting) (style.write depth outlook nodes) := by
  induction depth generalizing outlook nodes with
  | zero => exact .error .exhausted
  | succ depth ih =>
    exact writeNodes_fails fromFiles (fun _ _ fits named => ih fits named) fits named

section Renders

variable {engine : Engine} {search : FileSearch} {name : Option String} {view : Value}
  {source : String} {s : Session}

/-- No whole number has too many digits: in a template and files, where it is read, or in a view,
where it is written. -/
structure FittingFiles (search : FileSearch) (source : String) (view : Value) : Prop where
  source : Readable source.toList
  files : ∀ name text, search.source? name = .ok (some text) → Readable text.toList
  view : view.isWritable = true

theorem Engine.renderTemplate_of_files_fails (ready : engine.Ready engine.pair s)
    (unlimited : engine.maxPartialDepth = none)
    (loads : engine.loader = .loader (.files search)) (data : view.IsDataView) (depth : Nat) :
    Fails (OfFiles (FittingFiles search source view))
      ((engine.template (.str source) name .null >>= fun template =>
        engine.renderTemplate depth template view .null []) s).1 := by
  rw [renderTemplate_of_files ready loads data]
  refine Fails.bind (fun fault failed => .engine (ofEngine_of_parseTemplate failed))
    fun nodes parsed => ?_
  have fromFiles : (engine.fileStyle search).FromFiles (FittingFiles search source view) :=
    ⟨search.source?_fails _, fun name text there fits => fits.files name text there⟩
  have fits : (engine.outlookNamed name view).Fits (FittingFiles search source view) := by
    refine ⟨fun fits => Value.isWritable_of_ofView fits.view, fun _ scope limit here limited => ?_⟩
    obtain rfl := Option.some.inj here
    rw [unlimited] at limited
    cases limited
  exact write_fails fromFiles depth fits (named_of_parseTemplate parsed FittingFiles.source)

end Renders

end Mustache

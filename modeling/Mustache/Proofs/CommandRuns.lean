import Mustache.CommandLine
import Mustache.Proofs.FileRendering
import Mustache.Proofs.FileWriting
import Mustache.Proofs.JsonData

set_option autoImplicit false

namespace Mustache

section Messages

theorem FaultCode.text_ne_empty (code : FaultCode) : code.text ≠ "" := by
  cases code <;> decide

theorem Report.compact_ne_empty {report : Report} {code : FaultCode}
    (coded : report.code? = some code) : report.compact ≠ "" := by
  have filled := code.text_ne_empty
  unfold Report.compact
  split
  next report => simp [SourceReport.compact]
  next =>
    simp only [coded]
    split
    next named =>
      intro empty
      rw [String.ofList_eq_empty_iff.1 empty] at named
      simp [occursIn, aroundFirst?, filled] at named
    next => simp [filled]

theorem Fault.OfEngine.report {fault : Fault} (ofEngine : fault.OfEngine) :
    ∃ report code, fault.report? = some report ∧ report.code? = some code := by
  cases ofEngine with
  | parse fault => exact ⟨_, fault.code, rfl, rfl⟩
  | invalidTags shown => exact ⟨_, .invalidTags, rfl, rfl⟩
  | tooDeep => exact ⟨_, .partialDepth, rfl, rfl⟩

end Messages

namespace CommandLine

/-- A failure that is told in a message, whatever the words of the host. -/
def Failure.Told (failure : Failure) : Prop :=
  failure.escape? = none ∧ ∀ host, failure.message host ≠ ""

theorem Failure.told_of_ofEngine {fault : Fault} (ofEngine : fault.OfEngine) :
    (Failure.fault fault).Told := by
  obtain ⟨report, code, reported, coded⟩ := ofEngine.report
  refine ⟨by cases ofEngine <;> rfl, fun host => ?_⟩
  simpa [message, reported] using report.compact_ne_empty coded

theorem Host.hostsWords_ne_empty (host : Host) (failure : Failure) :
    "stache: " ++ host.errorText failure ≠ "" := by
  simp

section Inputs

variable {depth : Nat} {options : Options} {disk : Disk} {stdin : String}

def partialSearch (options : Options) (disk : Disk) : FileSearch :=
  { disk, bases := [partialsFolder options] }

/-- No whole number of a run has too many digits: in its template, its data or its partials, where
it is read, or in its view, where it is written. The lengths in a view are numbers of it. -/
structure FittingInputs (options : Options) (disk : Disk) (stdin : String) : Prop where
  template : ∀ text, readFile disk options.template = .ok text → Readable text.toList
  data : ∀ path text, options.data = .path path → dataText disk stdin path = .ok text →
    Readable text.toList
  view : ∀ view, readView disk stdin options.data = .ok view → view.isWritable = true
  partials : ∀ name text, (partialSearch options disk).source? name = .ok (some text) →
    Readable text.toList

/-- Why a run stops before it has rendered, without a message: the value of its data was taken off,
a path has the null character in it, or a number has too many digits. -/
inductive Stops (options : Options) (disk : Disk) (stdin : String) : HostFault → Prop
  | emptied (given : options.data = .emptied) : Stops options disk stdin .wrongType
  | nullInTemplate (null : '\x00' ∈ options.template.toList) :
      Stops options disk stdin (.file .unusable)
  | nullInData {path : String} (given : options.data = .path path) (null : '\x00' ∈ path.toList) :
      Stops options disk stdin (.file .unusable)
  | number (long : ¬ FittingInputs options disk stdin) : Stops options disk stdin .tooManyDigits

/-- Where a run is not followed: its calls nest deeper than the depth, or its data have half of a
character alone. -/
inductive Unfollowed (depth : Nat) (options : Options) (disk : Disk) (stdin : String) : Gap → Prop
  | depth (failed : (renderedText depth options disk stdin).1 = .error (.fault .exhausted)) :
      Unfollowed depth options disk stdin .depth
  | loneHalf {source path text : String} (template : readFile disk options.template = .ok source)
      (given : options.data = .path path) (read : dataText disk stdin path = .ok text)
      (half : Json.read text = .error .loneHalf) : Unfollowed depth options disk stdin .loneHalf

inductive Explained (depth : Nat) (options : Options) (disk : Disk) (stdin : String)
    (failure : Failure) : Prop
  | told (told : failure.Told)
  | stops {fault : HostFault} (ends : failure.escape? = some (.broken fault))
      (why : Stops options disk stdin fault)
  | unfollowed {gap : Gap} (ends : failure.escape? = some (.untold gap))
      (why : Unfollowed depth options disk stdin gap)

theorem null_of_ofText {text : String} (null : '\x00' ∈ (Path.ofText text).text.toList) :
    '\x00' ∈ text.toList := by
  obtain ⟨segment, member, inside⟩ := (null_mem_text_iff _).1 null
  obtain ⟨piece, isPiece, rfl⟩ := List.mem_map.1 member
  rw [← joinWith_cutAt '/' text.toList, mem_joinWith_iff (by decide)]
  exact ⟨piece, (List.mem_filter.1 isPiece).1, by simpa using inside⟩

theorem follow_ne_unusable {place : Place} {segments : List String} :
    place.follow segments ≠ .error .unusable := by
  induction segments generalizing place with
  | nil => exact nofun
  | cons segment segments ih =>
    rw [Place.follow_cons]
    cases stepped : place.step segment with
    | ok middle => exact ih
    | error refusal =>
      rintro ⟨⟩
      cases Place.steps_iff.2 stepped

theorem null_of_locate {path : Path} (refused : disk.locate path = .error .unusable) :
    '\x00' ∈ path.text.toList := by
  by_contra usable
  by_cases short : path.text.utf8ByteSize < pathLimit
  · rw [Disk.locate_eq_follow usable short] at refused
    exact follow_ne_unusable refused
  · simp [Disk.locate, usable, Nat.not_lt.1 short] at refused

theorem null_of_read {path : Path} (refused : disk.read path = .error .unusable) :
    '\x00' ∈ path.text.toList := by
  unfold Disk.read at refused
  cases located : disk.locate path with
  | error refusal =>
    rw [located] at refused
    cases refused
    exact null_of_locate located
  | ok place =>
    rw [located] at refused
    simp only [Bind.bind, Except.bind] at refused
    split at refused <;> cases refused

theorem readFile_fails {path : String} {failure : Failure}
    (failed : readFile disk path = .error failure) :
    failure.Told ∨
      failure.escape? = some (.broken (.file .unusable)) ∧ '\x00' ∈ path.toList := by
  unfold readFile at failed
  split at failed
  next refusal refused =>
    cases failed
    cases refusal with
    | unusable => exact .inr ⟨rfl, null_of_ofText (null_of_read refused)⟩
    | _ => exact .inl ⟨rfl, fun host => host.hostsWords_ne_empty _⟩
  next =>
    split at failed
    next => cases failed
    next =>
      cases failed
      exact .inl ⟨rfl, fun host => host.hostsWords_ne_empty _⟩

theorem viewOf_isData {text : String} {view : Value} (read : viewOf text = .ok view) :
    view.isData = true := by
  unfold viewOf at read
  split at read
  next found =>
    cases read
    exact (Json.read_text text).1 view found
  all_goals cases read

theorem readView_isData {data : GivenData} {view : Value}
    (read : readView disk stdin data = .ok view) : view.isData = true := by
  cases data with
  | nothing =>
    cases read
    rfl
  | emptied => cases read
  | path path =>
    obtain ⟨text, -, read⟩ := exists_ok_of_bind read
    exact viewOf_isData read

theorem viewOf_fails {source path text : String} {failure : Failure}
    (template : readFile disk options.template = .ok source) (given : options.data = .path path)
    (read : dataText disk stdin path = .ok text) (failed : viewOf text = .error failure) :
    Explained depth options disk stdin failure := by
  unfold viewOf at failed
  split at failed
  next => cases failed
  next =>
    cases failed
    exact .told ⟨rfl, fun host => host.hostsWords_ne_empty _⟩
  next long =>
    cases failed
    refine .stops rfl (.number fun fits => ?_)
    exact (Json.read_text text).2 long (fits.data path text given read)
  next half =>
    cases failed
    exact .unfollowed rfl (.loneHalf template given read half)

theorem readView_fails {source : String} {failure : Failure}
    (template : readFile disk options.template = .ok source)
    (failed : readView disk stdin options.data = .error failure) :
    Explained depth options disk stdin failure := by
  cases given : options.data with
  | nothing =>
    rw [given] at failed
    cases failed
  | emptied =>
    rw [given] at failed
    cases failed
    exact .stops rfl (.emptied given)
  | path path =>
    rw [given] at failed
    change dataText disk stdin path >>= viewOf = _ at failed
    cases read : dataText disk stdin path with
    | ok text =>
      rw [read] at failed
      exact viewOf_fails template given read failed
    | error unread =>
      rw [read] at failed
      cases failed
      unfold dataText at read
      split at read
      · cases read
      · rcases readFile_fails read with told | ⟨ends, null⟩
        · exact .told told
        · exact .stops ends (.nullInData given null)

theorem engineFor_spec (options : Options) (disk : Disk) :
    (∃ engine, engineFor options disk = .ok engine ∧ engine.cache = .keepFirst 0 ∧
        engine.maxPartialDepth = none ∧
        engine.loader = .loader (.files (partialSearch options disk))) ∨
      ∃ fault, engineFor options disk = .error fault ∧ fault.OfEngine := by
  unfold engineFor
  dsimp only
  split
  next => exact .inl ⟨_, rfl, rfl, rfl, rfl⟩
  next tags _ =>
    rw [Engine.withTags, Delimiters.ofValue]
    cases Delimiters.ofText tags.toList with
    | ok pair => exact .inl ⟨_, rfl, rfl, rfl, rfl⟩
    | error words => exact .inr ⟨_, rfl, .invalidTags _⟩

section Texts

variable {source : String} {view : Value} {engine : Engine}

theorem renderedText_of_no_template {failure : Failure}
    (unread : readFile disk options.template = .error failure) :
    (renderedText depth options disk stdin).1 = .error failure := by
  unfold renderedText
  rw [unread]

theorem renderedText_of_no_view {failure : Failure}
    (template : readFile disk options.template = .ok source)
    (unread : readView disk stdin options.data = .error failure) :
    (renderedText depth options disk stdin).1 = .error failure := by
  unfold renderedText
  rw [template, unread]

theorem renderedText_of_no_engine {fault : Fault}
    (template : readFile disk options.template = .ok source)
    (data : readView disk stdin options.data = .ok view)
    (refused : engineFor options disk = .error fault) :
    (renderedText depth options disk stdin).1 = .error (.fault fault) := by
  unfold renderedText
  rw [template, data, refused]

theorem renderedText_eq (template : readFile disk options.template = .ok source)
    (data : readView disk stdin options.data = .ok view)
    (isEngine : engineFor options disk = .ok engine) (depth : Nat) :
    (renderedText depth options disk stdin).1 = Except.mapError Failure.fault
      ((engine.template (.str source) (some (Path.ofText options.template).name) .null >>=
        fun template => engine.renderTemplate depth template view .null [])
          { caches := [{}] }).1 := by
  unfold renderedText
  rw [template, data, isEngine]
  dsimp only
  split
  next rendered => rw [rendered]; rfl
  next rendered => rw [rendered]; rfl

theorem explained_of_ofFiles {fault : Fault}
    (template : readFile disk options.template = .ok source)
    (data : readView disk stdin options.data = .ok view)
    (failed : (renderedText depth options disk stdin).1 = .error (.fault fault))
    (ofFiles : fault.OfFiles (FittingFiles (partialSearch options disk) source view)) :
    Explained depth options disk stdin (.fault fault) := by
  cases ofFiles with
  | engine ofEngine => exact .told (Failure.told_of_ofEngine ofEngine)
  | exhausted => exact .unfollowed rfl (.depth failed)
  | undecodable => exact .told ⟨rfl, fun host => host.hostsWords_ne_empty _⟩
  | tooLong => exact .told ⟨rfl, fun host => host.hostsWords_ne_empty _⟩
  | tooManyDigits long =>
    exact .stops rfl (.number fun fits =>
      long ⟨fits.template source template, fits.partials, fits.view view data⟩)

theorem renderedText_cases (options : Options) (disk : Disk) (stdin : String) :
    (∃ failure, ∀ depth, (renderedText depth options disk stdin).1 = .error failure ∧
        Explained depth options disk stdin failure) ∨
      ∃ (source : String) (view : Value) (engine : Engine),
        readFile disk options.template = .ok source ∧
        readView disk stdin options.data = .ok view ∧
        engine.Ready engine.pair { caches := [{}] } ∧ engine.maxPartialDepth = none ∧
        engine.loader = .loader (.files (partialSearch options disk)) ∧
        ∀ depth, (renderedText depth options disk stdin).1 = Except.mapError Failure.fault
          ((engine.template (.str source) (some (Path.ofText options.template).name) .null >>=
            fun template => engine.renderTemplate depth template view .null [])
              { caches := [{}] }).1 := by
  cases template : readFile disk options.template with
  | error unread =>
    refine .inl ⟨unread, fun depth => ⟨renderedText_of_no_template template, ?_⟩⟩
    rcases readFile_fails template with told | ⟨ends, null⟩
    · exact .told told
    · exact .stops ends (.nullInTemplate null)
  | ok source =>
    cases data : readView disk stdin options.data with
    | error unread =>
      exact .inl ⟨unread, fun depth =>
        ⟨renderedText_of_no_view template data, readView_fails template data⟩⟩
    | ok view =>
      rcases engineFor_spec options disk with
        ⟨engine, isEngine, keeps, unlimited, loads⟩ | ⟨fault, refused, ofEngine⟩
      · exact .inr ⟨source, view, engine, rfl, rfl, .ofEmpty engine.pair rfl keeps (by simp),
          unlimited, loads, renderedText_eq template data isEngine⟩
      · exact .inl ⟨.fault fault, fun depth => ⟨renderedText_of_no_engine template data refused,
          .told (Failure.told_of_ofEngine ofEngine)⟩⟩

theorem renderedText_fails {failure : Failure}
    (failed : (renderedText depth options disk stdin).1 = .error failure) :
    Explained depth options disk stdin failure := by
  rcases renderedText_cases options disk stdin with
    ⟨other, same⟩ | ⟨source, view, engine, template, data, ready, unlimited, loads, rendered⟩
  · obtain ⟨isOther, explained⟩ := same depth
    obtain rfl : other = failure := Except.error.inj (isOther.symm.trans failed)
    exact explained
  · obtain ⟨fault, cause, rfl⟩ := exists_error_of_mapError ((rendered depth).symm.trans failed)
    refine explained_of_ofFiles template data failed ?_
    exact Engine.renderTemplate_of_files_fails ready unlimited loads
      (Value.isDataView_of_isData (readView_isData data)) depth fault cause

theorem renderedText_deeper {deeper : Nat} (further : depth ≤ deeper)
    (enough : ¬ Unfollowed depth options disk stdin .depth) :
    (renderedText deeper options disk stdin).1 = (renderedText depth options disk stdin).1 := by
  rcases renderedText_cases options disk stdin with
    ⟨failure, same⟩ | ⟨source, view, engine, template, data, ready, -, loads, rendered⟩
  · rw [(same deeper).1, (same depth).1]
  · have dataView := Value.isDataView_of_isData (readView_isData data)
    simp only [Engine.renderTemplate_of_files ready loads dataView] at rendered
    rw [rendered, rendered]
    refine congrArg _ (Deepens.bind (.refl _) (fun nodes => ?_) fun exhausted => ?_)
    · exact (engine.fileStyle _).write_deepens further _ _ nodes (.refl _)
    · exact enough (.depth (by rw [rendered, exhausted]; rfl))

end Texts

end Inputs

/-- How a run ends that does all or nothing. The text that was rendered is printed, or it is in the
output file and all other files are as they were. Without a text there is a message, and nothing is
printed or written. -/
inductive Whole (options : Options) (disk : Disk) : Except Failure String → Outcome → Prop
  | printed {text stderr : String} (nowhere : nonEmpty? options.output = none) :
      Whole options disk (.ok text) { exitCode := 0, stdout := text, stderr, disk }
  | saved {text output stderr : String} {after : Disk}
      (somewhere : nonEmpty? options.output = some output)
      (rewritten : disk.Rewritten after (.ofText output) text.toUTF8.toList) :
      Whole options disk (.ok text)
        { exitCode := 0, stderr, disk := after, written := some (.ofText output) }
  | failed {failure : Failure} {logged message : String} (told : message ≠ "") :
      Whole options disk (.error failure)
        { exitCode := 1, stderr := logged ++ message ++ "\n", disk }

section Runs

variable {host : Host} {args : List String} {options : Options} {depth : Nat} {disk : Disk}
  {stdin : String}
  {fault : HostFault}

/-- Why a run does not end so: it stops before it has rendered, or its output file cannot be
written. -/
inductive Breaks (depth : Nat) (options : Options) (disk : Disk) (stdin : String) :
    HostFault → Prop
  | stops {failure : Failure} {fault : HostFault}
      (failed : (renderedText depth options disk stdin).1 = .error failure)
      (ends : failure.escape? = some (.broken fault)) (why : Stops options disk stdin fault) :
      Breaks depth options disk stdin fault
  | output {text output : String} {refusal : Refusal}
      (rendered : (renderedText depth options disk stdin).1 = .ok text)
      (somewhere : nonEmpty? options.output = some output)
      (refused : disk.write (.ofText output) text.toUTF8.toList = .error refusal) :
      Breaks depth options disk stdin (.file refusal)

theorem runOptions_of_escape {failure : Failure} {result : Result}
    (failed : (renderedText depth options disk stdin).1 = .error failure)
    (ends : failure.escape? = some result) : runOptions host depth options disk stdin = result := by
  unfold runOptions
  generalize renderedText depth options disk stdin = rendering at failed
  obtain ⟨rendered, log⟩ := rendering
  obtain rfl : rendered = _ := failed
  simp only [ends]

theorem runOptions_of_breaks (breaks : Breaks depth options disk stdin fault) :
    runOptions host depth options disk stdin = .broken fault := by
  cases breaks with
  | stops failed ends => exact runOptions_of_escape failed ends
  | output rendered somewhere refused =>
    unfold runOptions
    generalize renderedText depth options disk stdin = result at rendered
    obtain ⟨text, log⟩ := result
    obtain rfl : text = _ := rendered
    simp only [deliver, somewhere, refused]

theorem runOptions_of_unfollowed {gap : Gap}
    (unfollowed : Unfollowed depth options disk stdin gap) :
    runOptions host depth options disk stdin = .untold gap := by
  cases unfollowed with
  | depth failed => exact runOptions_of_escape failed rfl
  | loneHalf template given read half =>
    have data : readView disk stdin options.data = .error .loneHalf := by
      rw [given, readView, read]
      simp [viewOf, half, bind, Except.bind]
    exact runOptions_of_escape (renderedText_of_no_view template data) rfl

theorem runOptions_cases (host : Host) (depth : Nat) (options : Options) (disk : Disk)
    (stdin : String) :
    (∃ outcome, runOptions host depth options disk stdin = .finished outcome ∧
        Whole options disk (renderedText depth options disk stdin).1 outcome) ∨
      (∃ fault, Breaks depth options disk stdin fault) ∨
      ∃ gap, Unfollowed depth options disk stdin gap := by
  unfold runOptions
  cases result : renderedText depth options disk stdin with
  | mk rendered log =>
    have first : (renderedText depth options disk stdin).1 = rendered := congrArg Prod.fst result
    cases rendered with
    | error failure =>
      cases renderedText_fails first with
      | told told =>
        simp only [told.1]
        exact .inl ⟨_, rfl, .failed (told.2 host)⟩
      | stops ends why => exact .inr (.inl ⟨_, .stops first ends why⟩)
      | unfollowed ends why => exact .inr (.inr ⟨_, why⟩)
    | ok text =>
      unfold deliver
      cases output : nonEmpty? options.output with
      | none => exact .inl ⟨_, rfl, .printed output⟩
      | some path =>
        cases wrote : disk.write (.ofText path) text.toUTF8.toList with
        | error refusal => exact .inr (.inl ⟨_, .output first output wrote⟩)
        | ok after =>
          simp only [wrote]
          exact .inl ⟨_, rfl, .saved output (Disk.rewritten_of_write wrote)⟩

theorem runOptions_broken_iff : runOptions host depth options disk stdin = .broken fault ↔
    Breaks depth options disk stdin fault := by
  refine ⟨fun broken => ?_, runOptions_of_breaks⟩
  rcases runOptions_cases host depth options disk stdin with
    ⟨outcome, finished, -⟩ | ⟨other, breaks⟩ | ⟨gap, unfollowed⟩
  · rw [finished] at broken
    cases broken
  · rw [runOptions_of_breaks breaks] at broken
    cases broken
    exact breaks
  · rw [runOptions_of_unfollowed unfollowed] at broken
    cases broken

theorem runOptions_untold_iff {gap : Gap} :
    runOptions host depth options disk stdin = .untold gap ↔
      Unfollowed depth options disk stdin gap := by
  refine ⟨fun untold => ?_, runOptions_of_unfollowed⟩
  rcases runOptions_cases host depth options disk stdin with
    ⟨outcome, finished, -⟩ | ⟨fault, breaks⟩ | ⟨other, unfollowed⟩
  · rw [finished] at untold
    cases untold
  · rw [runOptions_of_breaks breaks] at untold
    cases untold
  · rw [runOptions_of_unfollowed unfollowed] at untold
    cases untold
    exact unfollowed

end Runs

section OutputFiles

def templateAlone : Disk where
  root := .folder [("t.mustache", .file "x".toUTF8.toList)]

def silentHost : Host where
  arguments := .later
  errorText _ := ""

def outputTo (output : String) : Options where
  template := "t.mustache"
  output := some output

theorem renderedText_templateAlone (output : String) :
    (renderedText 2 (outputTo output) templateAlone "").1 = .ok "x" := by
  have given : (renderedText 2 (outputTo output) templateAlone "").1.toOption = some "x" := by
    change (renderedText 2 (outputTo "") templateAlone "").1.toOption = some "x"
    decide +kernel
  cases rendered : (renderedText 2 (outputTo output) templateAlone "").1 with
  | error failure =>
    rw [rendered] at given
    cases given
  | ok text =>
    rw [rendered] at given
    exact congrArg Except.ok (Option.some.inj given)

end OutputFiles

end CommandLine

end Mustache

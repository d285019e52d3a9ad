import Mustache.Proofs.DataRendering
import Mustache.Proofs.Failures
import Mustache.Proofs.WrittenNumbers

set_option autoImplicit false

namespace Mustache

/-- The faults of a template, of the delimiters that it sets, and of partials open too deep. -/
inductive Fault.OfEngine : Fault → Prop
  | parse (fault : ParseFault) : OfEngine (.parse fault)
  | invalidTags (shown : String) : OfEngine (.invalidTags shown)
  | tooDeep (limit : Int) (refused : String) (templateName : Option String)
      (openPartials : List String) : OfEngine (.tooDeep limit refused templateName openPartials)

/-- An outcome that fails, if it does, of a fault of the engine; if the numbers do not fit, also of
one that has too many digits. -/
def Ends {α : Type} (fitting : Prop) (outcome : Except Fault α) : Prop :=
  Fails (fun fault => fault.OfEngine ∨ fault = .host .tooManyDigits ∧ ¬ fitting) outcome

namespace Ends

variable {α β : Type} {fitting : Prop}

theorem ok (value : α) : Ends fitting (.ok value) :=
  Fails.ok value

theorem error {fault : Fault} (ofEngine : fault.OfEngine) :
    Ends fitting (.error fault : Except Fault α) :=
  Fails.error (.inl ofEngine)

theorem bind {outcome : Except Fault α} {next : α → Except Fault β} (ends : Ends fitting outcome)
    (onward : ∀ value, outcome = .ok value → Ends fitting (next value)) :
    Ends fitting (outcome >>= next) :=
  Fails.bind ends onward

theorem map {outcome : Except Fault α} (ends : Ends fitting outcome) (f : α → β) :
    Ends fitting (f <$> outcome) :=
  Fails.map ends f

theorem joined {first second : Except Fault String} (ends : Ends fitting first)
    (onward : Ends fitting second) : Ends fitting (joined first second) :=
  Fails.joined ends onward

theorem ofHost {α : Type} {part : Prop} {outcome : Except HostFault α}
    (fails : FailsOfNumbers part outcome) (fits : fitting → part) :
    Ends fitting (outcome.mapError .host) := by
  intro fault failed
  cases outcome with
  | ok value => cases failed
  | error cause =>
    obtain ⟨rfl, long⟩ := fails cause rfl
    exact .inr ⟨(Except.error.inj failed).symm, fun isSo => long (fits isSo)⟩

end Ends

section Parts

variable {fitting : Prop} {outlook : Outlook} {name : String}

theorem ofEngine_of_parseTemplate {source : String} {pair : Delimiters} {name : Option String}
    {fault : Fault} (failed : parseTemplate source pair name = .error fault) : fault.OfEngine := by
  obtain ⟨cause, rfl⟩ | ⟨shown, rfl⟩ := fault_of_parseTemplate failed
  · exact .parse cause
  · exact .invalidTags shown

/-- The whole numbers of the views and the limit on open partials can be written, if the numbers
fit. -/
structure Outlook.Fits (fitting : Prop) (outlook : Outlook) : Prop where
  viewsFit : fitting → ∀ view ∈ outlook.views, view.isWritable = true
  limitFits : fitting → ∀ scope limit, outlook.scope = some scope →
    scope.maxPartialDepth = some limit → fitsDigits limit = true

theorem Outlook.Fits.push (fits : outlook.Fits fitting) {view : Value}
    (writable : fitting → view.isWritable = true) : (outlook.push view).Fits fitting where
  viewsFit isSo := List.forall_mem_cons.2 ⟨writable isSo, fits.viewsFit isSo⟩
  limitFits := fits.limitFits

theorem Outlook.Fits.inPartial {inside : Outlook} (fits : outlook.Fits fitting)
    (entered : outlook.inPartial name = .ok inside) : inside.Fits fitting := by
  rcases Outlook.eq_of_inPartial entered with ⟨-, rfl⟩ | ⟨scope, here, -, rfl⟩
  · exact fits
  · refine ⟨fits.viewsFit, fun isSo child limit isChild limited => ?_⟩
    obtain rfl := Option.some.inj isChild
    exact fits.limitFits isSo scope limit here limited

theorem Outlook.Fits.find (fits : outlook.Fits fitting) {value : Value}
    (found : outlook.find name = .ok value) (isSo : fitting) : value.isWritable = true :=
  Value.isWritable_inherited.find (fits.viewsFit isSo) found

theorem Outlook.find_ends (named : fitting → Readable name.toList) (outlook : Outlook) :
    Ends fitting (outlook.find name) := by
  unfold find
  split
  · exact .ok _
  · exact .ofHost (resolve_fails name outlook.views) named

theorem written_ends (convert : String → String) {value : Value}
    (writable : fitting → value.isWritable = true) : Ends fitting (written convert value) := by
  cases value with
  | null => exact .ok _
  | _ => exact (Ends.ofHost (Value.display_fails _) writable).map convert

theorem Outlook.Fits.found_ends (fits : outlook.Fits fitting) (convert : String → String)
    (named : fitting → Readable name.toList) :
    Ends fitting (outlook.find name >>= written convert) :=
  (find_ends named outlook).bind fun _ found => written_ends convert (fits.find found)

theorem Outlook.Fits.inPartial_ends (fits : outlook.Fits fitting) (name : String) :
    Ends fitting (outlook.inPartial name) := by
  unfold Outlook.inPartial
  split
  · exact .ok _
  next scope here =>
    refine Ends.bind (fun fault failed => ?_) fun _ _ => .ok _
    obtain ⟨limit, limited, rfl⟩ := Scope.refusal_of_check failed
    obtain refused | ⟨long, refused⟩ :=
      Scope.refusal_cases limit name scope.templateName scope.partialStack
    · rw [refused]
      exact .inl (.tooDeep ..)
    · refine .inr ⟨refused, fun isSo => ?_⟩
      rw [fits.limitFits isSo scope limit here limited] at long
      cases long

/-- Partials may be open under a limit, and no more of them than there is room. -/
structure Outlook.Limited (fitting : Prop) (limit : Int) (room : Nat) (outlook : Outlook) : Prop
    extends Outlook.Fits fitting outlook where
  bounded : ∃ scope, outlook.scope = some scope ∧ scope.maxPartialDepth = some limit ∧
    limit - scope.partialDepth ≤ room

variable {limit : Int} {room : Nat}

theorem Outlook.Limited.push (limited : outlook.Limited fitting limit room) {view : Value}
    (writable : fitting → view.isWritable = true) :
    (outlook.push view).Limited fitting limit room :=
  ⟨limited.toFits.push writable, limited.bounded⟩

theorem Outlook.Limited.inPartial {inside : Outlook} (limited : outlook.Limited fitting limit room)
    (entered : outlook.inPartial name = .ok inside) :
    ∃ less, room = less + 1 ∧ inside.Limited fitting limit less := by
  have fits := limited.toFits.inPartial entered
  obtain ⟨scope, here, noFurther, bound⟩ := limited.bounded
  rcases Outlook.eq_of_inPartial entered with ⟨none, -⟩ | ⟨other, same, checked, rfl⟩
  · rw [here] at none
    cases none
  · obtain rfl : scope = other := Option.some.inj (here.symm.trans same)
    unfold Scope.check at checked
    simp only [noFurther] at checked
    split at checked
    · refine ⟨room - 1, by omega, fits, scope.child name, rfl, noFurther, ?_⟩
      simp only [Scope.child]
      omega
    · cases checked

end Parts

def Named (fitting : Prop) (nodes : List Node) : Prop :=
  fitting → ∀ node, Node.Within node nodes →
    (∀ token, node = .leaf token → token.isTag = true) → Readable node.token.value.toList

theorem named_of_parseTemplate {fitting : Prop} {source : String} {pair : Delimiters}
    {name : Option String} {nodes : List Node} (parsed : parseTemplate source pair name = .ok nodes)
    (isReadable : fitting → Readable source.toList) : Named fitting nodes := by
  intro readableTexts node within isTag
  refine readable_of_within parsed (isReadable readableTexts) within ?_
  cases node with
  | leaf token => exact isTag token rfl
  | block opener children closeStart =>
    obtain ⟨-, -, nests⟩ := parseTemplate_eq_ok_iff.1 parsed
    obtain ⟨_, _, _, _, -, -, opens, -⟩ := nests.exists_section within
    exact isTag_of_opensBody opens

section Named

variable {fitting : Prop} {node : Node} {rest : List Node}

theorem Named.head (named : Named fitting (node :: rest)) : Named fitting [node] :=
  fun isSo other within => named isSo other (within.of_singleton rest)

theorem Named.tail (named : Named fitting (node :: rest)) : Named fitting rest :=
  fun isSo other within => named isSo other (.tail within)

theorem Named.tag {token : Token} (named : Named fitting [.leaf token])
    (isTag : token.isTag = true) (isSo : fitting) : Readable token.value.toList :=
  named isSo _ (.head _ []) fun _ same => Node.leaf.inj same ▸ isTag

variable {opener : Token} {children : List Node} {closeStart : Nat}

theorem Named.opens (named : Named fitting [.block opener children closeStart])
    (isSo : fitting) : Readable opener.value.toList :=
  named isSo _ (.head _ []) fun _ same => by cases same

theorem Named.body (named : Named fitting [.block opener children closeStart]) :
    Named fitting children :=
  fun isSo other within => named isSo other (.inside within)

/-- A section fails only of its name, of a fault of its body, or of one of the faults that rendering
ends with. -/
theorem Outlook.Fits.block_fails {allowed : Fault → Prop} {style : Style} {inner : Writer}
    {outlook : Outlook} (fits : outlook.Fits fitting)
    (admits : ∀ fault, fault.OfEngine ∨ fault = .host .tooManyDigits ∧ ¬ fitting → allowed fault)
    (named : Named fitting [.block opener children closeStart])
    (here : Fails allowed (inner outlook children))
    (pushed : ∀ view, (fitting → view.isWritable = true) →
      Fails allowed (inner (outlook.push view) children)) :
    Fails allowed (style.writeNode inner outlook (.block opener children closeStart)) := by
  have found : Fails allowed (outlook.find opener.value) := fun fault failed =>
    admits fault (Outlook.find_ends named.opens outlook fault failed)
  refine found.bind fun value isFound => ?_
  have writable := fits.find isFound
  split
  · exact writeInverted_fails here value
  · refine writeSection_fails here (pushed value writable) fun items listed item member => ?_
    exact pushed item fun isSo => (Value.isWritable_of_items? (writable isSo) listed).2 item member

end Named

def Style.Sources (fitting : Prop) (style : Style) : Prop :=
  ∀ name, style.source? name = .ok none ∨
    ∃ text, style.source? name = .ok (some text) ∧ (fitting → Readable text.toList)

/-- What is written of something ends if there is enough depth, however much is enough for it. -/
def Settles (fitting : Prop) (limit : Int) (room : Nat)
    (written : Nat → Outlook → Except Fault String) : Prop :=
  ∃ enough, ∀ outlook, Outlook.Limited fitting limit room outlook → ∀ depth, enough ≤ depth →
    Ends fitting (written depth outlook)

section Nodes

variable {fitting : Prop} {style : Style} {limit : Int} {room : Nat}

theorem Settles.atOnce {written : Nat → Outlook → Except Fault String}
    (ends : ∀ depth outlook, Ends fitting (written depth outlook)) :
    Settles fitting limit room written :=
  ⟨0, fun outlook _ depth _ => ends depth outlook⟩

theorem Settles.joined {first second : Nat → Outlook → Except Fault String}
    (settles : Settles fitting limit room first) (onward : Settles fitting limit room second) :
    Settles fitting limit room fun depth outlook =>
      joined (first depth outlook) (second depth outlook) := by
  obtain ⟨enough, ends⟩ := settles
  obtain ⟨more, ends'⟩ := onward
  refine ⟨max enough more, fun outlook limited depth deep => ?_⟩
  exact (ends outlook limited depth (by omega)).joined (ends' outlook limited depth (by omega))

theorem Settles.deeper {nodes : List Node}
    (settles : Settles fitting limit room fun depth outlook =>
      style.writeNodes (style.write depth) outlook nodes) :
    Settles fitting limit room fun depth outlook => style.write depth outlook nodes := by
  obtain ⟨enough, ends⟩ := settles
  refine ⟨enough + 1, fun outlook limited depth deep => ?_⟩
  obtain ⟨depth, rfl⟩ := Nat.exists_eq_add_of_le' deep
  exact ends outlook limited (depth + enough) (by omega)

variable (sources : style.Sources fitting)
  (below : ∀ less, room = less + 1 → ∀ nodes, Named fitting nodes →
    Settles fitting limit less fun depth outlook => style.write depth outlook nodes)

include sources below

theorem writePartial_settles (token : Token) :
    Settles fitting limit room fun depth outlook =>
      style.writePartial (style.write depth) outlook token := by
  rcases sources token.value with missing | ⟨found, there, isReadable⟩
  · simp only [Style.writePartial_of_none missing]
    exact .atOnce fun _ _ => .ok _
  simp only [Style.writePartial_of_some there]
  cases parsed : parseTemplate (Job.partialSource token found) style.pair with
  | error fault =>
    have ofEngine := ofEngine_of_parseTemplate parsed
    exact .atOnce fun _ _ => Ends.error ofEngine
  | ok nodes =>
    have named : Named fitting nodes := named_of_parseTemplate parsed fun readableTexts =>
      readable_partialSource (isReadable readableTexts) token
    -- Without room the partial is refused; with room it is written with less of it.
    cases room with
    | zero =>
      refine ⟨0, fun outlook limited depth _ => ?_⟩
      refine (limited.toFits.inPartial_ends token.value).bind fun inside entered => ?_
      obtain ⟨less, roomLeft, -⟩ := limited.inPartial entered
      omega
    | succ room =>
      obtain ⟨enough, ends⟩ := below room rfl nodes named
      refine ⟨enough, fun outlook limited depth deep => ?_⟩
      refine (limited.toFits.inPartial_ends token.value).bind fun inside entered => ?_
      obtain ⟨less, roomLeft, limitedInside⟩ := limited.inPartial entered
      obtain rfl : room = less := by omega
      exact ends inside limitedInside depth deep

theorem writeLeaf_settles {token : Token} (named : Named fitting [.leaf token]) :
    Settles fitting limit room fun depth outlook =>
      style.writeLeaf (style.write depth) outlook token := by
  have found (isTag : token.isTag = true) (convert : String → String) :
      Settles fitting limit room fun _ outlook => outlook.find token.value >>= written convert :=
    ⟨0, fun _ limited _ _ => limited.toFits.found_ends convert (named.tag isTag)⟩
  unfold Style.writeLeaf
  cases kind : token.kind with
  | escaped => exact found (by simp [Token.isTag, kind]) _
  | unescaped => exact found (by simp [Token.isTag, kind]) _
  | partialTag => exact writePartial_settles sources below token
  | _ => exact .atOnce fun _ _ => .ok _

omit sources below in
theorem writeBlock_settles {opener : Token} {children : List Node} {closeStart : Nat}
    (named : Named fitting [.block opener children closeStart])
    (body : Settles fitting limit room fun depth outlook => style.write depth outlook children) :
    Settles fitting limit room fun depth outlook =>
      style.writeNode (style.write depth) outlook (.block opener children closeStart) := by
  obtain ⟨enough, ends⟩ := body
  refine ⟨enough, fun outlook limited depth deep => ?_⟩
  refine limited.toFits.block_fails (fun _ => id) named (ends outlook limited depth deep) ?_
  exact fun view writable => ends _ (limited.push writable) depth deep

end Nodes

section Trees

variable {fitting : Prop} {style : Style} {limit : Int} {room : Nat}

mutual

theorem writeNode_settles (sources : style.Sources fitting)
    (below : ∀ less, room = less + 1 → ∀ nodes, Named fitting nodes →
      Settles fitting limit less fun depth outlook => style.write depth outlook nodes) :
    (node : Node) → Named fitting [node] →
    Settles fitting limit room fun depth outlook =>
      style.writeNode (style.write depth) outlook node
  | .leaf _, named => writeLeaf_settles sources below named
  | .block _ children _, named =>
      writeBlock_settles named (writeNodes_settles sources below children named.body).deeper

theorem writeNodes_settles (sources : style.Sources fitting)
    (below : ∀ less, room = less + 1 → ∀ nodes, Named fitting nodes →
      Settles fitting limit less fun depth outlook => style.write depth outlook nodes) :
    (nodes : List Node) → Named fitting nodes →
    Settles fitting limit room fun depth outlook =>
      style.writeNodes (style.write depth) outlook nodes
  | [], _ => .atOnce fun _ _ => .ok _
  | node :: rest, named =>
      (writeNode_settles sources below node named.head).joined
        (writeNodes_settles sources below rest named.tail)

end

theorem write_settles (sources : style.Sources fitting) {nodes : List Node}
    (named : Named fitting nodes) :
    Settles fitting limit room fun depth outlook => style.write depth outlook nodes := by
  -- Each partial takes up room. For one amount of it the sections of a tree are smaller trees.
  induction room generalizing nodes with
  | zero =>
    refine (writeNodes_settles sources (fun less => ?_) nodes named).deeper
    omega
  | succ room ih =>
    refine (writeNodes_settles sources (fun less same other named => ?_) nodes named).deeper
    obtain rfl : room = less := by omega
    exact ih named

end Trees

section Renders

variable {engine : Engine} {limit : Int} {pair : Delimiters} {tags view : Value} {source : String}
  {entries : List (Value × Value)} {s : Session}

def ReadableTexts (source : String) (entries : List (Value × Value)) : Prop :=
  Readable source.toList ∧ ∀ entry ∈ entries, ∀ text, entry.2 = .str text → Readable text.toList

/-- No whole number that a render comes across has too many digits: in its source and its partials,
where it is read, or in its view and as the limit on open partials, where it is written. -/
structure FittingNumbers (source : String) (entries : List (Value × Value)) (view : Value)
    (limit : Int) : Prop where
  texts : ReadableTexts source entries
  view : view.isWritable = true
  limit : fitsDigits limit = true

theorem sources_of_texts (texts : ∀ entry ∈ entries, ∃ text, entry.2 = .str text) :
    (engine.style pair entries).Sources (FittingNumbers source entries view limit) := by
  intro name
  change mappedSource entries name = _ ∨ ∃ text, mappedSource entries name = _ ∧ _
  unfold mappedSource
  cases found : Value.valueAt? (.str name) entries with
  | none => exact .inl rfl
  | some value =>
    obtain ⟨entry, member, rfl⟩ := Value.mem_of_valueAt? found
    obtain ⟨text, isText⟩ := texts entry member
    rw [Option.getD_some, isText]
    exact .inr ⟨text, rfl, fun fits => fits.texts.2 entry member text isText⟩

theorem Value.isWritable_of_ofView (writable : view.isWritable = true) :
    ∀ frame ∈ (Context.ofView view).views, frame.isWritable = true := by
  have alone : (Context.ofView view).views = [view] →
      ∀ frame ∈ (Context.ofView view).views, frame.isWritable = true := by
    intro same
    rwa [same, List.forall_mem_singleton]
  cases view with
  | chain views =>
    cases views with
    | nil => exact alone rfl
    | cons first outer =>
      have views : (Context.ofView (.chain (first :: outer))).views = first :: outer := by
        simp [Context.ofView, Context.views, Context.view, Function.comp_def]
      rw [views]
      exact allWritable_iff.1 writable
  | _ => exact alone rfl

theorem Engine.outlook_limited (limited : engine.maxPartialDepth = some limit) :
    (engine.outlook view).Limited (FittingNumbers source entries view limit) limit
      limit.toNat where
  viewsFit fits := Value.isWritable_of_ofView fits.view
  limitFits fits scope other here isLimit := by
    obtain rfl := Option.some.inj here
    obtain rfl := Option.some.inj (limited.symm.trans isLimit)
    exact fits.limit
  bounded := by
    refine ⟨_, rfl, limited, ?_⟩
    simp only
    omega

theorem render_ends (limited : engine.maxPartialDepth = some limit)
    (ready : engine.Ready pair s) (paired : engine.pairFor tags = .ok pair)
    (data : view.IsDataView) (texts : ∀ entry ∈ entries, ∃ text, entry.2 = .str text) :
    (∃ outcome, (∃ enough, ∀ depth, enough ≤ depth →
        (engine.render depth (.str source) view (.map entries) tags s).1 = outcome) ∧
      ∀ fault, outcome = .error fault → fault.OfEngine ∨
        fault = .host .tooManyDigits ∧ ¬ FittingNumbers source entries view limit) ∧
    ∀ text pair name tokens, tokenize text pair name = .ok tokens →
      ∃ nodes, nest (squash tokens) = some nodes := by
  refine ⟨?_, fun text pair name tokens tokenized => ?_⟩
  · simp only [Engine.render_of_data ready paired data]
    cases parsed : parseTemplate source pair with
    | error fault =>
      have ofEngine := ofEngine_of_parseTemplate parsed
      exact ⟨.error fault, ⟨0, fun _ _ => rfl⟩, Ends.error ofEngine⟩
    | ok nodes =>
      have named : Named (FittingNumbers source entries view limit) nodes :=
        named_of_parseTemplate parsed fun fits => fits.texts.1
      obtain ⟨enough, ends⟩ := write_settles (sources_of_texts texts) named
      have settled := ends _ (Engine.outlook_limited limited) enough (Nat.le_refl enough)
      refine ⟨_, ⟨enough, fun depth deep => ?_⟩, settled⟩
      refine (engine.style pair entries).write_deepens deep _ _ nodes (.refl _) fun exhausted => ?_
      rcases settled _ exhausted with ofEngine | ⟨same, -⟩
      · cases ofEngine
      · cases same
  · obtain ⟨nodes, -, nests⟩ := exists_nests_of_tokenize tokenized
    exact ⟨nodes, nest_eq_some nests⟩

theorem render_ends_of_partials_in_turn :
    ∃ outcome, (∃ enough, ∀ depth, enough ≤ depth →
        (Engine.render { cache := .keepFirst 0, maxPartialDepth := some 2 } depth
          (.str "{{>p}}") (.int 1) (.map [(.str "p", .str "a{{>q}}"), (.str "q", .str "{{>p}}")])
          .null { caches := [{}] }).1 = outcome) ∧
      ∀ fault, outcome = .error fault → fault.OfEngine ∨
        fault = .host .tooManyDigits ∧ ¬ FittingNumbers "{{>p}}"
          [(.str "p", .str "a{{>q}}"), (.str "q", .str "{{>p}}")] (.int 1) 2 := by
  let engine : Engine := { cache := .keepFirst 0, maxPartialDepth := some 2 }
  have ready : engine.Ready .standard { caches := [{}] } := .ofEmpty .standard rfl rfl (by simp)
  have data : (Value.int 1).IsDataView := Value.isDataView_of_isData rfl
  have texts : ∀ entry ∈ [(Value.str "p", Value.str "a{{>q}}"), (.str "q", .str "{{>p}}")],
      ∃ text, entry.2 = .str text := by simp
  exact (@render_ends engine 2 _ .null _ _ _ _ rfl ready rfl data texts).1

/-- A whole number of the view that has too many digits is not put out, whatever the depth. -/
theorem render_fails_of_long_number :
    (Value.map [(.str "x", .int digitBound)]).IsDataView ∧
      ¬ (Fault.host .tooManyDigits).OfEngine ∧
      ∀ depth, (Engine.render { cache := .keepFirst 0, maxPartialDepth := some 0 } (depth + 1)
        (.str "{{x}}") (.map [(.str "x", .int digitBound)]) (.map []) .null
        { caches := [{}] }).1 = .error (.host .tooManyDigits) := by
  have long := not_fitsDigits_digitBound
  generalize (digitBound : Int) = n at long ⊢
  have data : (Value.map [(.str "x", .int n)]).IsDataView := Value.isDataView_of_isData rfl
  refine ⟨data, nofun, fun depth => ?_⟩
  have parsed : parseTemplate "{{x}}" .standard =
      .ok [.leaf ⟨.escaped, "x", 0, 5, {}⟩] := rfl
  refine Engine.render_of_parsed (.ofEmpty .standard rfl rfl (by simp)) rfl data parsed ?_
  change joined (written _ (.int n)) _ = _
  change joined (_ <$> (Value.wholeText n).mapError .host) _ = _
  rw [Value.wholeText_of_not_fitsDigits long]
  rfl

end Renders

end Mustache

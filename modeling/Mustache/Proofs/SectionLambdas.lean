import Mustache.Proofs.Behaviour
import Mustache.Proofs.CacheKeys
import Mustache.Proofs.ParseInStep
import Mustache.Proofs.SectionText
import Mustache.Proofs.TreesInStep

set_option autoImplicit false

namespace Mustache

/-- A parse of the source gives a section, and the text is what the source holds from the end of its
tag to the start of the close tag that matches it. -/
def HoldsSection (source : String) (pair : Delimiters) (opener : Token) (children : List Node)
    (closeStart : Nat) (text : String) : Prop :=
  ∃ (name : Option String) (nodes : List Node),
    parseTemplate source pair name = .ok nodes ∧
      Node.Within (.block opener children closeStart) nodes ∧
      ∃ (ahead between behind : List Piece) (first last : Piece) (close : Token)
          (front back : List Char),
        (scan pair source.toList).pieces = ahead ++ first :: (between ++ last :: behind) ∧
          first.bareTag? = some opener.bare ∧ last.bareTag? = some close ∧
          close.kind = .closeTag ∧ close.start = closeStart ∧
          Nests (between.filterMap Piece.bareTag?) (outlines children) ∧
          source.toList = front ++ text.toList ++ back ∧ front.length = opener.stop ∧
          (front ++ text.toList).length = closeStart

theorem holdsSection_of_within {source : String} {pair : Delimiters} {name : Option String}
    {nodes children : List Node} {opener : Token} {closeStart : Nat}
    (parsed : parseTemplate source pair name = .ok nodes)
    (within : Node.Within (.block opener children closeStart) nodes) :
    HoldsSection source pair opener children closeStart
      (textBetween source opener.stop closeStart) := by
  obtain ⟨⟨inForce, ended⟩, -⟩ := parseTemplate_eq_ok_iff.1 parsed
  have run := readsAll_scan ended
  obtain ⟨ahead, between, behind, first, last, inner, close, pieces, isOpener, isInner, isClose,
    nested, closes, starts⟩ := exists_section_pieces parsed within
  have opened : first.stop = opener.stop := (start_of_bareTag? isOpener).2
  have closed : last.start = closeStart := (start_of_bareTag? isClose).1.trans starts
  have inSource := (run.stop_bounds first (by simp [pieces])).2
  rw [pieces] at run
  obtain ⟨atBody, atClose, inside, bodyStart, bodyStop, text, -⟩ := run.exists_between
  obtain ⟨forward, bound, -⟩ := inside.offsets
  rw [text, List.length_drop] at bound
  rw [opened] at inSource bodyStart bound
  rw [closed] at bodyStop
  dsimp only at inSource bound
  have upToClose : source.toList.take opener.stop ++
      (textBetween source opener.stop closeStart).toList = source.toList.take closeStart := by
    have less : opener.stop ≤ closeStart := by omega
    rw [textBetween, String.toList_ofList, ← Nat.min_eq_left less, ← List.take_take,
      Nat.min_eq_left less, List.take_append_drop]
  refine ⟨name, nodes, parsed, within, ahead, between, behind, first, last, close.bare,
    source.toList.take opener.stop, source.toList.drop closeStart, pieces, isOpener, isClose,
    closes, starts, ?_, ?_, ?_, ?_⟩
  · rw [isInner]
    exact nested.outlines
  · rw [upToClose, List.take_append_drop]
  · rw [List.length_take, Nat.min_eq_left inSource]
  · rw [upToClose, List.length_take]
    omega

/-- The source that the text of a lambda was cut from, and the text. -/
def Event.handed? : Event → Option (String × String)
  | .sectionLambda _ _ _ source text => some (source, text)
  | _ => none

/-- A lambda's event holds the text that its source has for its section, under delimiters in use. -/
def Event.Exact (inUse : Delimiters → Prop) : Event → Prop
  | .sectionLambda opener children closeStart source text =>
      ∃ pair, inUse pair ∧ HoldsSection source pair opener children closeStart text
  | _ => True

def Action.HandsExact {α : Type} (inUse : Delimiters → Prop) (action : Action α) : Prop :=
  Behaves (Event.Exact inUse) (· ≠ .missingSource) action

open Mustache.Action (HandsExact Behaves)

theorem Action.HandsExact.inStep (inUse : Delimiters → Prop) :
    CatchInStep fun _ action _ => HandsExact inUse action := by
  apply Behaves.inStep
  · intro event ordinary
    cases event with
    | sectionLambda => exact False.elim ordinary
    | _ => trivial
  · exact fun _ => trivial
  · exact fun _ => trivial
  · rintro fault ordinary rfl
    exact ordinary

theorem Action.HandsExact.of_mem {α : Type} {inUse : Delimiters → Prop} {action : Action α}
    {s : Session} {event : Event} (exact : HandsExact inUse action) (fresh : s.log = [])
    (logged : event ∈ (action s).2.log) : event.Exact inUse := by
  obtain ⟨happened, grown, each⟩ := exact.logs s
  rw [grown, fresh, List.append_nil] at logged
  exact each event logged

theorem Engine.parse_handsExact {α : Type} {inUse : Delimiters → Prop} {engine : Engine}
    (uncached : engine.cache = .nothing) (source : String) (pair : Delimiters)
    (name : Option String) {next : Tree → Action α}
    (onward : ∀ nodes, parseTemplate source pair name = .ok nodes →
      HandsExact inUse (next (.parsed nodes))) :
    HandsExact inUse (engine.parse source pair name >>= next) := by
  rw [← uncached_of_nothing uncached, parse_uncached, bind_assoc]
  refine Behaves.bind (.record trivial) fun _ => ?_
  cases parsed : parseTemplate source pair name with
  | ok nodes => exact onward nodes parsed
  | error fault =>
    obtain ⟨cause, rfl⟩ | ⟨shown, rfl⟩ := fault_of_parseTemplate parsed <;>
      exact Behaves.throw (by rintro ⟨⟩)

structure Job.HasSource (inUse : Delimiters → Prop) (job : Job) (nodes : List Node) : Prop where
  uncached : job.engine.cache = .nothing
  used : inUse job.pair
  parsed : ∃ (source : String) (pair : Delimiters) (name : Option String) (tree : List Node),
    job.source = some source ∧ inUse pair ∧ parseTemplate source pair name = .ok tree ∧
      ∀ node, Node.Within node nodes → Node.Within node tree

theorem Job.handsExact (inUse : Delimiters → Prop) :
    TreesInStep (fun _ : Unit => fun _ action _ => HandsExact inUse action)
      (fun _ : Unit => fun _ action _ => HandsExact inUse action) (fun _ _ => ()) id
      (HasSource inUse) where
  steps _ := (HandsExact.inStep inUse).toInStep
  catches _ := HandsExact.inStep inUse
  find _ _ := Behaves.quiet (fun _ => rfl) fun _ _ failed => by cases failed
  weaken := id
  escaper _ := rfl
  partials _ := rfl
  source _ := rfl
  withSource _ _ := rfl
  part sound among := by
    obtain ⟨source, pair, name, tree, known, given, parsed, within⟩ := sound.parsed
    exact { sound with
      parsed := ⟨source, pair, name, tree, known, given, parsed,
        fun node here => within node (among node here)⟩ }
  inFrame view exact := Behaves.inFrame exact view
  inRender job exact := Behaves.inRender exact job.engine none
  inPartial name exact := Behaves.inPartial exact trivial trivial fun limit title opened => by
    rcases Scope.refusal_cases limit name title opened with refused | ⟨-, refused⟩ <;>
      rw [refused] <;> rintro ⟨⟩
  parse source sound onward _ :=
    Engine.parse_handsExact sound.uncached source _ none fun nodes parsed => onward nodes
      { uncached := sound.uncached
        used := sound.used
        parsed := ⟨source, _, none, nodes, rfl, sound.used, parsed, fun _ => id⟩ }
  lambda sound here known := by
    obtain ⟨source, pair, name, tree, known', given, parsed, within⟩ := sound.parsed
    obtain rfl := Option.some.inj (known.symm.trans known')
    exact Behaves.record ⟨pair, given, holdsSection_of_within parsed (within _ here)⟩
  sourceless sound _ unknown := by
    obtain ⟨source, _, _, _, known, -⟩ := sound.parsed
    rw [unknown] at known
    cases known

namespace Engine

/-- The engine makes the template, of a source of the host's or of its loader's, under the pair. -/
inductive Makes (engine : Engine) (template : Template) : Delimiters → Prop
  | ofSource {source tags : Value} {name : Option String} {pair : Delimiters} {s : Session} :
      engine.pairFor tags = .ok pair →
      (engine.template source name tags s).1 = .ok template → Makes engine template pair
  | loaded {name : String} {s : Session} :
      (engine.loadTemplate name s).1 = .ok template → Makes engine template engine.pair

section Making

variable {engine : Engine} (uncached : engine.cache = .nothing)

include uncached

theorem parse_eq_ok {source : String} {pair : Delimiters} {name : Option String} {tree : Tree}
    {s : Session} (done : (engine.parse source pair name s).1 = .ok tree) :
    ∃ nodes, tree = .parsed nodes ∧ parseTemplate source pair name = .ok nodes := by
  rw [← uncached_of_nothing uncached, parse_uncached] at done
  obtain ⟨_, _, _, done⟩ := Action.bind_eq_ok done
  obtain ⟨nodes, _, parsed, done⟩ := Action.bind_eq_ok done
  exact ⟨nodes, (Except.ok.inj done).symm, Action.eq_ok_of_ofExcept parsed⟩

theorem template_of_parsed {source : String} {name : Option String} {nodes : List Node}
    (parsed : parseTemplate source engine.pair name = .ok nodes) (s : Session) :
    (engine.template (.str source) name .null s).1 =
      .ok { source, tree := .parsed nodes, name } := by
  have tree : (engine.parse source engine.pair name s).1 = .ok (.parsed nodes) := by
    rw [← uncached_of_nothing uncached, parse_uncached]
    change ((Action.ofExcept (parseTemplate source engine.pair name) >>= fun nodes =>
      pure (Tree.parsed nodes)) _).1 = _
    rw [parsed]
    rfl
  change ((engine.parse source engine.pair name >>= fun tree =>
    pure ({ source, tree, name } : Template)) s).1 = _
  rw [Action.bind_pure_apply, tree]
  rfl

theorem template_eq_ok {source tags : Value} {name : Option String} {pair : Delimiters}
    {template : Template} {s : Session} (paired : engine.pairFor tags = .ok pair)
    (made : (engine.template source name tags s).1 = .ok template) :
    ∃ nodes, template.tree = .parsed nodes ∧
      parseTemplate template.source pair template.name = .ok nodes := by
  unfold Engine.template at made
  split at made
  next source =>
    rw [paired] at made
    obtain ⟨_, _, chosen, done⟩ := Action.bind_eq_ok made
    obtain rfl := Except.ok.inj (Action.eq_ok_of_ofExcept chosen)
    obtain ⟨tree, _, parsed, done⟩ := Action.bind_eq_ok done
    obtain rfl := Except.ok.inj done
    exact parse_eq_ok uncached (congrArg Prod.fst parsed)
  next => cases made

theorem Makes.parsed {template : Template} {pair : Delimiters}
    (makes : engine.Makes template pair) :
    ∃ nodes, template.tree = .parsed nodes ∧
      parseTemplate template.source pair template.name = .ok nodes := by
  cases makes with
  | ofSource paired made => exact template_eq_ok uncached paired made
  | loaded made =>
    unfold loadTemplate at made
    split at made
    · obtain ⟨source, _, _, made⟩ := Action.bind_eq_ok made
      exact template_eq_ok uncached rfl made
    · cases made

end Making

section Rendering

variable {engine : Engine} (uncached : engine.cache = .nothing)

include uncached

theorem renderTree_handsExact {inUse : Delimiters → Prop} {source : String}
    {pair given : Delimiters} {title name : Option String} {nodes : List Node} (used : inUse pair)
    (isUsed : inUse given) (parsed : parseTemplate source given title = .ok nodes) (depth : Nat)
    (view partials : Value) :
    HandsExact inUse
      (engine.renderTree depth (.parsed nodes) view partials (some source) pair name) := by
  have sound : Job.HasSource inUse ⟨engine, partials, some source, pair⟩ nodes :=
    ⟨uncached, used, source, given, title, nodes, rfl, isUsed, parsed, fun _ => id⟩
  have exact := (Job.handsExact inUse).render_same depth () _ nodes sound
  exact (Behaves.inRender exact engine name).inContext (.ofView view)

theorem render_hands_exact (depth : Nat) (view partials : Value) :
    (∀ template tags, HandsExact (engine.pairFor tags = .ok ·)
        (engine.render depth template view partials tags)) ∧
      ∀ (maker : Engine) (template : Template) (pair : Delimiters) (names : List (String × Value)),
        maker.cache = .nothing → maker.Makes template pair →
          HandsExact (fun used => used = pair ∨ used = template.tags.getD engine.pair)
            (engine.renderTemplate depth template view partials names) := by
  constructor
  · intro template tags
    unfold render
    split
    next source =>
      cases paired : engine.pairFor tags with
      | ok pair =>
        refine parse_handsExact uncached source pair none fun nodes parsed => ?_
        have given : Except.ok pair = (.ok pair : Except Fault Delimiters) := rfl
        exact renderTree_handsExact uncached given given parsed depth view partials
      | error fault =>
        refine Behaves.throw ?_
        rintro rfl
        exact ordinary_of_pairFor paired
    next => exact Behaves.throw (by rintro ⟨⟩)
  · intro maker template pair names makerUncached makes
    obtain ⟨nodes, tree, parsed⟩ := makes.parsed makerUncached
    unfold renderTemplate
    rw [tree]
    exact renderTree_handsExact uncached (.inr rfl) (.inl rfl) parsed depth _ partials

end Rendering

theorem render_hands_exact_in_indented_partial :
    let engine : Engine := { cache := .nothing }
    let echo : Value := .callable (.written (.mk 0 [] true
      (.lambda (.mk 1 [.required true, .required true] true (.render (.arg 0))))) 0 none [])
    let view : Value := .map [(.str "f", echo)]
    let partials : Value := .map [(.str "p", .str "{{#f}}b{{/f}}\n")]
    let template : Template :=
      { source := "{{>p}}", tree := .parsed [.leaf ⟨.partialTag, "p", 0, 6, ⟨"", 0, false⟩⟩] }
    (∃ opener children closeStart,
      .sectionLambda opener children closeStart "  {{#f}}b{{/f}}\n" "b" ∈
          (engine.render 5 (.str "{{#f}}a\n  {{>p}}\n{{/f}}") view partials .null {}).2.log ∧
        HoldsSection "  {{#f}}b{{/f}}\n" .standard opener children closeStart "b") ∧
      engine.Makes template .standard ∧
      HandsExact (fun used => used = .standard ∨ used = template.tags.getD engine.pair)
        (engine.renderTemplate 5 template view partials []) := by
  intro engine echo view partials template
  have handed : (engine.render 5 (.str "{{#f}}a\n  {{>p}}\n{{/f}}") view partials .null
      {}).2.log.filterMap Event.handed? =
        [("  {{#f}}b{{/f}}\n", "b"), ("{{#f}}a\n  {{>p}}\n{{/f}}", "a\n  {{>p}}\n")] := by
    decide +kernel
  have parsed : parseTemplate "{{>p}}" .standard none =
      .ok [.leaf ⟨.partialTag, "p", 0, 6, ⟨"", 0, false⟩⟩] := rfl
  have made : (engine.template (.str "{{>p}}") none .null {}).1 = .ok template :=
    template_of_parsed rfl parsed {}
  have makes : engine.Makes template .standard := .ofSource rfl made
  obtain ⟨renders, rendersMade⟩ := @render_hands_exact engine rfl 5 view partials
  refine ⟨?_, makes, rendersMade engine template .standard [] rfl makes⟩
  obtain ⟨event, logged, isInner⟩ := List.mem_filterMap.1
    (List.mem_of_mem_head? (congrArg List.head? handed))
  cases event with
  | sectionLambda opener children closeStart source text =>
    cases isInner
    have exact := renders (.str "{{#f}}a\n  {{>p}}\n{{/f}}") .null
    obtain ⟨pair, isPair, holds⟩ := exact.of_mem (s := {}) rfl logged
    obtain rfl : Delimiters.standard = pair := Except.ok.inj isPair
    exact ⟨opener, children, closeStart, logged, holds⟩
  | _ => cases isInner

end Engine

end Mustache

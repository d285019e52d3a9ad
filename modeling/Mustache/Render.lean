import Mustache.Engine
import Mustache.Text.Lines

set_option autoImplicit false

namespace Mustache

def indentLines (indentation : List Char) (lines : List (List Char)) : List (List Char) :=
  lines.map fun line => if line.isEmpty then line else indentation ++ line

def indentPartial (source indentation : String) (hasText : Bool) : String :=
  let margin := indentation.toList.filter fun c => c = ' ' ∨ c = '\t'
  let lines := cutLines source.toList
  let indented :=
    -- With visible text before the partial, its first line stays as it is.
    if hasText then lines.take 1 ++ indentLines margin (lines.drop 1)
    else indentLines margin lines
  String.ofList (joinLines indented)

/-- What stays the same while a tree is rendered: the engine, where partials come from, the source
of the tree if it is known, and the delimiters of partials and of text that lambdas render. -/
structure Job where
  engine : Engine
  partials : Value
  source : Option String
  pair : Delimiters

def lookup (name : String) : Action Value := do
  let session ← get
  let (value, context) ← Action.ofHost (session.context.find name)
  set { session with context }
  match value with
  | .callable f => f.call (if f.takesView then [context.view] else [])
  | value => pure value

def Engine.inRender {α : Type} (engine : Engine) (name : Option String) (action : Action α) :
    Action α := do
  match (← get).scope with
  | some _ => action
  | none =>
      Action.inScope { templateName := name, maxPartialDepth := engine.maxPartialDepth } action

def textBetween (text : String) (start stop : Nat) : String :=
  String.ofList ((text.toList.take stop).drop start)

namespace Job

abbrev Inner := Job → List Node → Action String

def checkForeign (item : Value) : Except HostFault Unit :=
  match item.attribute? "type" with
  | none => .error .noAttribute
  | some kind => if kind.canBeKey then .ok () else .error .wrongType

def renderForeign (answer : Value) : Action String :=
  match answer.iterate? with
  | none => throw (.host .wrongType)
  | some items => do
      Action.ofHost (items.forM checkForeign)
      pure ""

def renderTree (job : Job) (inner : Inner) : Tree → Action String
  | .parsed nodes => inner job nodes
  | .foreign answer => renderForeign answer

def plainValue (name : String) : Action String := do
  match ← lookup name with
  | .null => pure ""
  | value => Action.ofHost value.display

def escapedValue (job : Job) (name : String) : Action String := do
  match ← lookup name with
  | .null => pure ""
  | value => do
      let text ← Action.ofHost value.display
      pure (job.engine.escaper.escape text)

def renderText (job : Job) (inner : Inner) : Value → Action Value
  | .str text => do
      let tree ← job.engine.parse text job.pair
      let output ← job.engine.inRender none
        (Job.renderTree { job with source := some text } inner tree)
      pure (.str output)
  | value => throw (.invalidTemplate value.typeName true)

def callLambda (job : Job) (inner : Inner) (opener : Token) (children : List Node)
    (closeStart : Nat) (f : Closure) : Action String := do
  match job.source with
  | none => throw .missingSource
  | some source => do
      let text := textBetween source opener.stop closeStart
      Action.record (.sectionLambda opener children closeStart source text)
      let result ← f.callOnText text (job.renderText inner)
      Action.ofHost result.partText

def eachItem (body : Action String) : List Value → Action String
  | [] => pure ""
  | item :: rest => do
      let first ← Action.inFrame item body
      let others ← eachItem body rest
      pure (first ++ others)

def renderSection (job : Job) (inner : Inner) (opener : Token) (children : List Node)
    (closeStart : Nat) : Action String := do
  let value ← lookup opener.value
  if value.isFalsy then pure ""
  else match value with
    | .list items | .tuple items => eachItem (inner job children) items
    | .callable f => job.callLambda inner opener children closeStart f
    | .bool _ => inner job children
    | value => Action.inFrame value (inner job children)

def renderInverted (job : Job) (inner : Inner) (name : String) (children : List Node) :
    Action String := do
  let value ← lookup name
  if value.isFalsy || (value.items?.map List.isEmpty).getD false then inner job children
  else pure ""

def partialSource (token : Token) (source : String) : String :=
  -- Only the first tag of a line indents its partial.
  if token.mark.tagIndex = 0 ∧ token.mark.indentation ≠ "" then
    indentPartial source token.mark.indentation token.mark.hasText
  else source

def renderPartial (job : Job) (inner : Inner) (token : Token) : Action String := do
  match ← resolvePartial token.value (job.engine.partialsFor job.partials) with
  | none => pure ""
  | some found => do
      let source := partialSource token found
      let tree ← job.engine.parse source job.pair
      Action.inPartial token.value (Job.renderTree { job with source := some source } inner tree)

def renderLeaf (job : Job) (inner : Inner) (token : Token) : Action String :=
  match token.kind with
  | .text => pure token.value
  | .escaped => job.escapedValue token.value
  | .unescaped => plainValue token.value
  | .partialTag => job.renderPartial inner token
  | _ => pure ""

def renderNode (job : Job) (inner : Inner) : Node → Action String
  | .leaf token => job.renderLeaf inner token
  | .block opener children closeStart =>
      if opener.kind = .invertedTag then job.renderInverted inner opener.value children
      else job.renderSection inner opener children closeStart

def renderNodes (job : Job) (inner : Inner) : List Node → Action String
  | [] => pure ""
  | node :: rest => do
      let first ← job.renderNode inner node
      let others ← job.renderNodes inner rest
      pure (first ++ others)

def render : Nat → Job → List Node → Action String
  | 0, _, _ => throw .exhausted
  | depth + 1, job, nodes => job.renderNodes (render depth) nodes

end Job

def Job.start (depth : Nat) (job : Job) (tree : Tree) : Action String :=
  job.renderTree (Job.render depth) tree

def Value.extend (names : List (String × Value)) (view : Value) : Value :=
  let entries := names.map fun entry => (Value.str entry.1, entry.2)
  if names.isEmpty then view
  else match view with
    | .null => Value.mapOf entries
    | .map old => Value.mapOf (old ++ entries)
    -- Any other view has the names in a frame on top.
    | view => .chain (Value.mapOf entries :: (Context.ofView view).views)

structure Template where
  source : String
  tree : Tree
  name : Option String := none
  tags : Option Delimiters := none

def Template.describe (template : Template) : String :=
  "<Template " ++ (nonEmpty? template.name).getD "(inline)" ++ ">"

namespace Engine

def renderTree (engine : Engine) (depth : Nat) (tree : Tree) (view partials : Value)
    (source : Option String) (pair : Delimiters) (name : Option String := none) :
    Action String :=
  -- The source is needed for lambdas in sections only.
  Action.inContext (.ofView view)
    (engine.inRender name (Job.start depth ⟨engine, partials, source, pair⟩ tree))

def render (engine : Engine) (depth : Nat) (template view partials tags : Value) :
    Action String := do
  match template with
  | .str source => do
      let pair ← Action.ofExcept (engine.pairFor tags)
      let tree ← engine.parse source pair
      engine.renderTree depth tree view partials (some source) pair
  | value => throw (.invalidTemplate value.typeName true)

def template (engine : Engine) (source : Value) (name : Option String) (tags : Value) :
    Action Template := do
  match source with
  | .str source => do
      let pair ← Action.ofExcept (engine.pairFor tags)
      let tree ← engine.parse source pair name
      pure { source, tree, name, tags := if tags matches .null then none else some pair }
  | value => throw (.invalidTemplate value.typeName false)

def loadTemplate (engine : Engine) (name : String) : Action Template := do
  if engine.loader.canLoad then
    let source ← loadSource engine.loader name
    engine.template source (some name) .null
  else throw (.notFound name .noLoader)

def renderTemplate (engine : Engine) (depth : Nat) (template : Template) (view partials : Value)
    (names : List (String × Value)) : Action String :=
  engine.renderTree depth template.tree (view.extend names) partials (some template.source)
    (template.tags.getD engine.pair) template.name

end Engine

end Mustache

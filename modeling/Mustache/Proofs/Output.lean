import Mustache.Render

set_option autoImplicit false

namespace Mustache

structure Outlook where
  views : List Value
  scope : Option Scope

namespace Outlook

def push (outlook : Outlook) (view : Value) : Outlook :=
  { outlook with views := view :: outlook.views }

def find (outlook : Outlook) (name : String) : Except Fault Value :=
  if name = "." then .ok (Value.innermost outlook.views)
  else (resolve name outlook.views).mapError .host

def inPartial (outlook : Outlook) (name : String) : Except Fault Outlook :=
  match outlook.scope with
  | none => .ok outlook
  | some scope => do
      scope.check name
      pure { outlook with scope := some (scope.child name) }

end Outlook

def joined (first second : Except Fault String) : Except Fault String := do
  let text ← first
  let more ← second
  pure (text ++ more)

def written (convert : String → String) : Value → Except Fault String
  | .null => .ok ""
  | value => convert <$> value.display.mapError .host

section Sections

variable (here : Except Fault String) (inside : Value → Except Fault String)

def writeItems : List Value → Except Fault String
  | [] => pure ""
  | item :: rest => joined (inside item) (writeItems rest)

def writeSection (value : Value) : Except Fault String :=
  if value.isFalsy then pure ""
  else match value with
    | .list items | .tuple items => writeItems inside items
    | .bool _ => here
    | value => inside value

def writeInverted (value : Value) : Except Fault String :=
  if value.isFalsy || (value.items?.map List.isEmpty).getD false then here else pure ""

end Sections

abbrev Writer := Outlook → List Node → Except Fault String

/-- What a render writes with: its escaper, the delimiters of its partials, and the source of each
name that has one. -/
structure Style where
  escaper : Escaper
  pair : Delimiters
  source? : String → Except Fault (Option String)

namespace Style

section Nodes

variable (style : Style) (inner : Writer) (outlook : Outlook)

def writePartial (token : Token) : Except Fault String := do
  match ← style.source? token.value with
  | none => pure ""
  | some found => do
      let nodes ← parseTemplate (Job.partialSource token found) style.pair
      let inside ← outlook.inPartial token.value
      inner inside nodes

def writeLeaf (token : Token) : Except Fault String :=
  match token.kind with
  | .text => pure token.value
  | .escaped => outlook.find token.value >>= written style.escaper.escape
  | .unescaped => outlook.find token.value >>= written id
  | .partialTag => style.writePartial inner outlook token
  | _ => pure ""

def writeNode : Node → Except Fault String
  | .leaf token => style.writeLeaf inner outlook token
  | .block opener children _ => do
      let value ← outlook.find opener.value
      if opener.kind = .invertedTag then writeInverted (inner outlook children) value
      else
        writeSection (inner outlook children) (fun view => inner (outlook.push view) children) value

def writeNodes : List Node → Except Fault String
  | [] => pure ""
  | node :: rest => joined (style.writeNode inner outlook node) (writeNodes rest)

end Nodes

def write (style : Style) : Nat → Writer
  | 0, _, _ => throw .exhausted
  | depth + 1, outlook, nodes => style.writeNodes (style.write depth) outlook nodes

end Style

theorem joined_ok (text more : String) : joined (.ok text) (.ok more) = .ok (text ++ more) := rfl

theorem joined_ok_error (text : String) (fault : Fault) :
    joined (.ok text) (.error fault) = .error fault := rfl

theorem joined_empty (second : Except Fault String) : joined (.ok "") second = second := by
  cases second <;> simp [joined_ok, joined_ok_error]

theorem joined_assoc (first second third : Except Fault String) :
    joined (joined first second) third = joined first (joined second third) := by
  cases first with
  | error fault => rfl
  | ok text =>
    cases second with
    | error fault => rfl
    | ok more => cases third <;> simp [joined_ok, joined_ok_error, String.append_assoc]

theorem Style.writeNodes_append (style : Style) (inner : Writer) (outlook : Outlook)
    (before after : List Node) :
    style.writeNodes inner outlook (before ++ after) =
      joined (style.writeNodes inner outlook before) (style.writeNodes inner outlook after) := by
  induction before with
  | nil => exact (joined_empty _).symm
  | cons node rest ih => rw [List.cons_append, writeNodes, writeNodes, ih, joined_assoc]

namespace Style

variable {style : Style} {inner : Writer} {outlook : Outlook} {token : Token}

theorem writePartial_of_none (missing : style.source? token.value = .ok none) :
    style.writePartial inner outlook token = .ok "" := by
  rw [writePartial, missing]
  rfl

theorem writePartial_of_some {found : String}
    (there : style.source? token.value = .ok (some found)) :
    style.writePartial inner outlook token =
      (parseTemplate (Job.partialSource token found) style.pair >>= fun nodes =>
        outlook.inPartial token.value >>= fun inside => inner inside nodes) := by
  rw [writePartial, there]
  rfl

end Style

section Depth

def Deepens {α : Type} (first second : Except Fault α) : Prop :=
  first ≠ .error .exhausted → second = first

namespace Deepens

variable {α β : Type}

theorem refl (outcome : Except Fault α) : Deepens outcome outcome :=
  fun _ => rfl

theorem bind {first second : Except Fault α} {next next' : α → Except Fault β}
    (deepens : Deepens first second) (onward : ∀ value, Deepens (next value) (next' value)) :
    Deepens (first >>= next) (second >>= next') := by
  intro reached
  cases first with
  | error fault =>
    rw [deepens fun same => reached (by rw [same]; rfl)]
    rfl
  | ok value =>
    rw [deepens (by simp)]
    exact onward value reached

theorem joined {first first' second second' : Except Fault String} (deepens : Deepens first first')
    (onward : Deepens second second') :
    Deepens (joined first second) (Mustache.joined first' second') :=
  deepens.bind fun _ => onward.bind fun _ => .refl _

end Deepens

namespace Outlook

def Unlimited (outlook : Outlook) : Prop :=
  ∀ scope, outlook.scope = some scope → scope.maxPartialDepth = none

structure Similar (first second : Outlook) : Prop where
  views : first.views = second.views
  scope : first.scope = second.scope ∨ first.Unlimited ∧ second.Unlimited

variable {first second : Outlook} {name : String}

theorem Similar.refl (outlook : Outlook) : outlook.Similar outlook :=
  ⟨rfl, .inl rfl⟩

theorem Similar.push (similar : first.Similar second) (view : Value) :
    (first.push view).Similar (second.push view) :=
  ⟨congrArg (view :: ·) similar.views, similar.scope⟩

theorem Similar.find (similar : first.Similar second) (name : String) :
    first.find name = second.find name := by
  rw [Outlook.find, similar.views, Outlook.find]

theorem eq_of_inPartial {inside : Outlook} (entered : first.inPartial name = .ok inside) :
    first.scope = none ∧ inside = first ∨
      ∃ scope, first.scope = some scope ∧ scope.check name = .ok () ∧
        inside = { first with scope := some (scope.child name) } := by
  unfold inPartial at entered
  split at entered
  next none =>
    obtain rfl := Except.ok.inj entered
    exact .inl ⟨none, rfl⟩
  next scope here =>
    cases checked : scope.check name with
    | error fault => simp [checked, bind, Except.bind] at entered
    | ok _ =>
      rw [checked] at entered
      exact .inr ⟨scope, here, checked, (Except.ok.inj entered).symm⟩

theorem views_of_inPartial {inside : Outlook} (entered : first.inPartial name = .ok inside) :
    inside.views = first.views := by
  rcases eq_of_inPartial entered with ⟨-, rfl⟩ | ⟨scope, -, -, rfl⟩ <;> rfl

theorem exists_inPartial_of_unlimited (unlimited : first.Unlimited) (name : String) :
    ∃ inside, first.inPartial name = .ok inside ∧ inside.views = first.views ∧
      inside.Unlimited := by
  unfold inPartial
  split
  next => exact ⟨first, rfl, rfl, unlimited⟩
  next scope here =>
    have noLimit := unlimited scope here
    refine ⟨{ first with scope := some (scope.child name) }, ?_, rfl, ?_⟩
    · simp [Scope.check, noLimit, pure, Except.pure, bind, Except.bind]
    · intro deeper below
      obtain rfl := Option.some.inj below
      exact noLimit

theorem Similar.inPartial (similar : first.Similar second) (name : String) :
    (∃ fault, first.inPartial name = .error fault ∧ second.inPartial name = .error fault) ∨
      ∃ inside inside', first.inPartial name = .ok inside ∧
        second.inPartial name = .ok inside' ∧ inside.Similar inside' := by
  rcases similar.scope with same | ⟨unlimited, unlimited'⟩
  · obtain ⟨views, scope⟩ := first
    obtain ⟨views', scope'⟩ := second
    obtain rfl : views = views' := similar.views
    obtain rfl : scope = scope' := same
    cases Outlook.inPartial ⟨views, scope⟩ name with
    | error fault => exact .inl ⟨fault, rfl, rfl⟩
    | ok inside => exact .inr ⟨inside, inside, rfl, rfl, .refl inside⟩
  · obtain ⟨inside, entered, views, noLimit⟩ := exists_inPartial_of_unlimited unlimited name
    obtain ⟨inside', entered', views', noLimit'⟩ := exists_inPartial_of_unlimited unlimited' name
    refine .inr ⟨inside, inside', entered, entered', ?_, .inr ⟨noLimit, noLimit'⟩⟩
    rw [views, views', similar.views]

end Outlook

def Writer.Deepens (inner inner' : Writer) : Prop :=
  ∀ (first second : Outlook) (nodes : List Node), first.Similar second →
    Mustache.Deepens (inner first nodes) (inner' second nodes)

section Nodes

variable {inner inner' : Writer} {first second : Outlook}

theorem writeItems_deepens {inside inside' : Value → Except Fault String}
    (deepens : ∀ item, Deepens (inside item) (inside' item)) (items : List Value) :
    Deepens (writeItems inside items) (writeItems inside' items) := by
  induction items with
  | nil => exact .refl _
  | cons item rest ih => exact (deepens item).joined ih

theorem writeSection_deepens {here here' : Except Fault String}
    {inside inside' : Value → Except Fault String} (body : Deepens here here')
    (deepens : ∀ item, Deepens (inside item) (inside' item)) (value : Value) :
    Deepens (writeSection here inside value) (writeSection here' inside' value) := by
  unfold writeSection
  split
  · exact .refl _
  · split
    · exact writeItems_deepens deepens _
    · exact writeItems_deepens deepens _
    · exact body
    · exact deepens _

theorem writeInverted_deepens {here here' : Except Fault String} (body : Deepens here here')
    (value : Value) : Deepens (writeInverted here value) (writeInverted here' value) := by
  unfold writeInverted
  split
  · exact body
  · exact .refl _

namespace Style

variable (style : Style) (deepens : inner.Deepens inner') (similar : first.Similar second)

include deepens similar

theorem writePartial_deepens (token : Token) :
    Deepens (style.writePartial inner first token) (style.writePartial inner' second token) := by
  unfold writePartial
  refine .bind (.refl _) fun source => ?_
  cases source with
  | none => exact .refl _
  | some source =>
    refine .bind (.refl _) fun nodes => ?_
    rcases similar.inPartial token.value with
      ⟨fault, refused, refused'⟩ | ⟨_, _, entered, entered', inside⟩
    · rw [refused, refused']
      exact .refl _
    · rw [entered, entered']
      exact deepens _ _ nodes inside

theorem writeLeaf_deepens (token : Token) :
    Deepens (style.writeLeaf inner first token) (style.writeLeaf inner' second token) := by
  unfold writeLeaf
  rw [similar.find]
  cases token.kind with
  | partialTag => exact style.writePartial_deepens deepens similar token
  | _ => exact .refl _

theorem writeNode_deepens (node : Node) :
    Deepens (style.writeNode inner first node) (style.writeNode inner' second node) := by
  cases node with
  | leaf token => exact style.writeLeaf_deepens deepens similar token
  | block opener children closeStart =>
    simp only [writeNode, similar.find]
    refine .bind (.refl _) fun value => ?_
    have body := deepens first second children similar
    split
    · exact writeInverted_deepens body value
    · exact writeSection_deepens body (fun view => deepens _ _ children (similar.push view)) value

theorem writeNodes_deepens (nodes : List Node) :
    Deepens (style.writeNodes inner first nodes) (style.writeNodes inner' second nodes) := by
  induction nodes with
  | nil => exact .refl _
  | cons node rest ih => exact (style.writeNode_deepens deepens similar node).joined ih

end Style

end Nodes

theorem Style.write_deepens (style : Style) {depth deeper : Nat} (further : depth ≤ deeper) :
    (style.write depth).Deepens (style.write deeper) := by
  induction depth generalizing deeper with
  | zero => exact fun _ _ _ _ reached => absurd rfl reached
  | succ depth ih =>
    cases deeper with
    | zero => exact absurd further (Nat.not_succ_le_zero depth)
    | succ deeper =>
      have onward := ih (Nat.le_of_succ_le_succ further)
      exact fun first second nodes similar => style.writeNodes_deepens onward similar nodes

end Depth

end Mustache

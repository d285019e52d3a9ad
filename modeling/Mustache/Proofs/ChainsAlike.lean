import Mustache.Proofs.Following
import Mustache.Proofs.SectionBodies

set_option autoImplicit false

namespace Mustache

def Node.name? : Node → Option String
  | .leaf token => if token.kind.writesValue then some token.value else none
  | .block opener _ _ => some opener.value

section Names

variable {node : Node} {nodes children : List Node} {name : String}

theorem mem_treeNames {some : Node} (member : some ∈ nodes) (named : name ∈ some.names) :
    name ∈ treeNames nodes := by
  induction nodes with
  | nil => cases member
  | cons first rest ih =>
    rw [treeNames, List.mem_append]
    rcases List.mem_cons.1 member with rfl | later
    · exact .inl named
    · exact .inr (ih later)

theorem mem_treeNames_of_name? (member : node ∈ nodes) (named : node.name? = some name) :
    name ∈ treeNames nodes := by
  refine mem_treeNames member ?_
  cases node with
  | leaf token =>
    rw [Node.name?] at named
    split at named
    next writes =>
      cases named
      simp [Node.names, writes]
    next => cases named
  | block opener children closeStart =>
    cases named
    simp [Node.names]

theorem mem_treeNames_of_block {opener : Token} {closeStart : Nat}
    (member : .block opener children closeStart ∈ nodes) (named : name ∈ treeNames children) :
    name ∈ treeNames nodes :=
  mem_treeNames member (List.mem_cons_of_mem opener.value named)

end Names

/-- What makes a job render nodes alike in two chains of views: the views are data, their names mean
the same, and all this holds again of the bodies of their sections, in whatever frame, and of the
partials that they tag. -/
structure ChainsAlike (admitted : List Node → Prop)
    (alike : Job → List Value → List Value → List Node → Prop) : Prop where
  data {job : Job} {views views' : List Value} {nodes : List Node} :
    alike job views views' nodes → ∀ view ∈ views, view.isData = true
  means {job : Job} {views views' : List Value} {nodes : List Node} {node : Node} {name : String} :
    alike job views views' nodes → node ∈ nodes → node.name? = some name →
    meaning name views = meaning name views'
  framed {job : Job} {views views' : List Value} {nodes children : List Node} {opener : Token}
    {closeStart : Nat} {value : Value} :
    alike job views views' nodes → .block opener children closeStart ∈ nodes →
    value.isData = true → alike job (value :: views) (value :: views') children
  unframed {job : Job} {views views' : List Value} {nodes children : List Node} {opener : Token}
    {closeStart : Nat} {value : Value} :
    alike job views views' nodes → .block opener children closeStart ∈ nodes →
    meaning opener.value views = .ok value →
    (if opener.kind = .invertedTag then value.times = 0 else value = .bool true) →
    alike job views views' children
  tagged {job : Job} {views views' : List Value} {nodes tree : List Node} {token : Token}
    {found : String} :
    alike job views views' nodes → .leaf token ∈ nodes → token.kind = .partialTag →
    (∃ s, (resolvePartial token.value (job.engine.partialsFor job.partials) s).1 =
      .ok (some found)) →
    parseTemplate (Job.partialSource token found) job.pair = .ok tree → admitted tree →
    alike { job with source := some (Job.partialSource token found) } views views' tree

namespace Job

open Mustache.Action (FollowWhile)

structure FollowsIn (admitted : List Node → Prop)
    (alike : Job → List Value → List Value → List Node → Prop) (inner : Inner) : Prop where
  grows (job : Job) (nodes : List Node) : (inner job nodes).Grows
  follows {job : Job} {views views' : List Value} {nodes : List Node} :
    alike job views views' nodes →
      FollowWhile admitted (Session.Mirrors job.engine job.pair views views') (inner job nodes)
        (inner job nodes)

section Nodes

variable {admitted : List Node → Prop} {alike : Job → List Value → List Value → List Node → Prop}
  (chains : ChainsAlike admitted alike) {job : Job} {inner : Inner} {views views' : List Value}
  {nodes : List Node} (here : alike job views views' nodes)

include chains here

theorem lookup_follows {α : Type} {node : Node} {name : String} {next : Value → Action α}
    (grows : (lookup name >>= next).Grows) (member : node ∈ nodes)
    (named : node.name? = some name)
    (onward : ∀ value, meaning name views = .ok value → value.isData = true →
      FollowWhile admitted (Session.Mirrors job.engine job.pair views views') (next value)
        (next value)) :
    FollowWhile admitted (Session.Mirrors job.engine job.pair views views') (lookup name >>= next)
      (lookup name >>= next) :=
  follow_lookup grows (chains.means here member named)
    (fun _ means => isData_of_meaning (chains.data here) means) onward

theorem escapedValue_follows {token : Token} (member : .leaf token ∈ nodes)
    (named : (Node.leaf token).name? = some token.value) :
    FollowWhile admitted (Session.Mirrors job.engine job.pair views views')
      (job.escapedValue token.value) (job.escapedValue token.value) := by
  refine lookup_follows chains here (job.escapedValue_grows token.value) member named
    fun value _ _ => ?_
  split
  · exact .pure _
  · exact (FollowWhile.ofHost _).bind fun text => .pure _

theorem plainValue_follows {token : Token} (member : .leaf token ∈ nodes)
    (named : (Node.leaf token).name? = some token.value) :
    FollowWhile admitted (Session.Mirrors job.engine job.pair views views')
      (plainValue token.value) (plainValue token.value) := by
  refine lookup_follows chains here (plainValue_grows token.value) member named fun value _ _ => ?_
  split
  · exact .pure _
  · exact .ofHost _

variable (inside : FollowsIn admitted alike inner)

include inside

section Sections

variable {opener : Token} {children : List Node} {closeStart : Nat}
  (member : .block opener children closeStart ∈ nodes)

include member

theorem eachItem_follows {items : List Value} (data : ∀ item ∈ items, item.isData = true) :
    FollowWhile admitted (Session.Mirrors job.engine job.pair views views')
      (eachItem (inner job children) items) (eachItem (inner job children) items) := by
  induction items with
  | nil => exact .pure _
  | cons item rest ih =>
    rw [List.forall_mem_cons] at data
    have body := inside.follows (chains.framed here member data.1)
    refine (follow_inFrame body).bind fun first => ?_
    exact (ih data.2).bind fun others => .pure _

theorem renderInverted_follows (inverted : opener.kind = .invertedTag) :
    FollowWhile admitted (Session.Mirrors job.engine job.pair views views')
      (job.renderInverted inner opener.value children)
      (job.renderInverted inner opener.value children) := by
  refine lookup_follows chains here (job.renderInverted_grows inside.grows opener.value children)
    member rfl fun value means _ => ?_
  split
  next never =>
    refine inside.follows (chains.unframed here member means ?_)
    rw [if_pos inverted]
    exact Value.times_eq_zero_iff.2 never
  next => exact .pure _

theorem renderSection_follows (upright : opener.kind ≠ .invertedTag) :
    FollowWhile admitted (Session.Mirrors job.engine job.pair views views')
      (job.renderSection inner opener children closeStart)
      (job.renderSection inner opener children closeStart) := by
  refine lookup_follows chains here
    (job.renderSection_grows inside.grows opener children closeStart) member rfl
    fun value means data => ?_
  have items : ∀ items, value.items? = some items →
      FollowWhile admitted (Session.Mirrors job.engine job.pair views views')
        (eachItem (inner job children) items) (eachItem (inner job children) items) :=
    fun items listed =>
      eachItem_follows chains here inside member (Value.isData_of_items? data listed)
  split
  · exact .pure _
  · cases value with
    | list found => exact items found rfl
    | tuple found => exact items found rfl
    | callable f => contradiction
    | bool b =>
      refine inside.follows (chains.unframed here member means ?_)
      cases b with
      | true => rw [if_neg upright]
      | false => contradiction
    | _ => exact follow_inFrame (inside.follows (chains.framed here member data))

end Sections

theorem renderPartial_follows {token : Token} (member : .leaf token ∈ nodes)
    (tagged : token.kind = .partialTag) :
    FollowWhile admitted (Session.Mirrors job.engine job.pair views views')
      (job.renderPartial inner token) (job.renderPartial inner token) := by
  have grown (found : String) (tree : Tree) : (Action.inPartial token.value
      (renderTree { job with source := some (partialSource token found) } inner tree)).Grows :=
    (renderTree_grows _ inside.grows tree).inPartial token.value
  have parse_grows (found : String) :=
    Engine.parse_inStep Action.Grows.cachesInStep job.engine (partialSource token found) job.pair
      none
  -- Only a source that the provider can give has to make a tree that is rendered alike.
  refine (follow_resolvePartial token.value _).bind_of_given (fun found => ?_) fun found given => ?_
  · cases found with
    | none => exact .silent fun _ => rfl
    | some found => exact (parse_grows found).bind (grown found)
  · cases found with
    | none => exact .pure _
    | some found =>
      refine follow_parse (partialSource token found) (grown found) fun tree parsed admits => ?_
      exact (inside.follows (chains.tagged here member tagged given parsed admits)).inPartial
        (scopeShared_mirrors _ _ _ _) token.value

theorem renderNode_follows {node : Node} (member : node ∈ nodes) :
    FollowWhile admitted (Session.Mirrors job.engine job.pair views views')
      (job.renderNode inner node) (job.renderNode inner node) := by
  cases node with
  | leaf token =>
    unfold renderNode renderLeaf
    dsimp only
    split
    next => exact .pure _
    next escaped =>
      exact escapedValue_follows chains here member (by rw [Node.name?, escaped]; rfl)
    next unescaped =>
      exact plainValue_follows chains here member (by rw [Node.name?, unescaped]; rfl)
    next tagged => exact renderPartial_follows chains here inside member tagged
    next => exact .pure _
  | block opener children closeStart =>
    unfold renderNode
    dsimp only
    split
    next inverted => exact renderInverted_follows chains here inside member inverted
    next upright => exact renderSection_follows chains here inside member upright

theorem renderNodes_follows {some : List Node} (members : ∀ node ∈ some, node ∈ nodes) :
    FollowWhile admitted (Session.Mirrors job.engine job.pair views views')
      (job.renderNodes inner some) (job.renderNodes inner some) := by
  induction some with
  | nil => exact .pure _
  | cons node rest ih =>
    rw [List.forall_mem_cons] at members
    refine (renderNode_follows chains here inside members.1).bind fun first => ?_
    exact (ih members.2).bind fun others => .pure _

end Nodes

theorem render_followsIn {admitted : List Node → Prop}
    {alike : Job → List Value → List Value → List Node → Prop}
    (chains : ChainsAlike admitted alike) (depth : Nat) :
    FollowsIn admitted alike (Job.render depth) := by
  induction depth with
  | zero => exact ⟨Job.render_grows 0, fun _ => .throw .exhausted⟩
  | succ depth ih =>
    exact ⟨Job.render_grows (depth + 1), fun here =>
      renderNodes_follows chains here ih fun _ member => member⟩

end Job

end Mustache

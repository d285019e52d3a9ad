import Mustache.Proofs.Nesting
import Mustache.Proofs.Output

set_option autoImplicit false

namespace Mustache

def Token.unplaced (marks : LineMark → LineMark) (token : Token) : Token where
  kind := token.kind
  value := token.value
  start := 0
  stop := 0
  mark := marks token.mark

def Token.ofChar (c : Char) : Token where
  kind := .text
  value := String.singleton c
  start := 0
  stop := 0

def Token.spell (marks : LineMark → LineMark) (token : Token) : List Token :=
  if token.kind = .text then token.value.toList.map Token.ofChar else [token.unplaced marks]

def spell (marks : LineMark → LineMark) (tokens : List Token) : List Token :=
  tokens.flatMap (Token.spell marks)

mutual

def Node.spelled (marks : LineMark → LineMark) : Node → List Node
  | .leaf token => (token.spell marks).map .leaf
  | .block opener children _ => [.block (opener.unplaced marks) (spelled marks children) 0]

def spelled (marks : LineMark → LineMark) : List Node → List Node
  | [] => []
  | node :: rest => node.spelled marks ++ spelled marks rest

end

section Streams

variable {marks : LineMark → LineMark} {tokens more : List Token} {nodes others : List Node}

theorem spell_append : spell marks (tokens ++ more) = spell marks tokens ++ spell marks more :=
  List.flatMap_append

theorem spell_cons (token : Token) :
    spell marks (token :: tokens) = token.spell marks ++ spell marks tokens := rfl

theorem spell_squashFrom (last : Token) :
    spell marks (squash.squashFrom last tokens) = spell marks (last :: tokens) := by
  induction tokens generalizing last with
  | nil => rfl
  | cons token rest ih =>
    unfold squash.squashFrom
    split
    next both =>
      rw [ih]
      simp [spell_cons, Token.spell, both]
    next => rw [spell_cons, ih, ← spell_cons]

theorem spell_squash : spell marks (squash tokens) = spell marks tokens := by
  cases tokens with
  | nil => rfl
  | cons token rest => exact spell_squashFrom token

theorem spell_moved (distance : Nat) :
    spell marks (tokens.map (Token.moved distance)) = spell marks tokens :=
  List.flatMap_map ..

theorem Token.spell_tag {token : Token} (isTag : token.kind ≠ .text) :
    token.spell marks = [token.unplaced marks] :=
  if_neg isTag

theorem Token.kind_of_mem_spell {token piece : Token} (member : piece ∈ token.spell marks) :
    piece.kind = token.kind := by
  unfold Token.spell at member
  split at member
  next isText =>
    obtain ⟨c, -, rfl⟩ := List.mem_map.1 member
    exact isText.symm
  next =>
    obtain rfl := List.mem_singleton.1 member
    rfl

theorem Nests.spelled (nests : Nests tokens nodes) (marks : LineMark → LineMark) :
    Nests (spell marks tokens) (spelled marks nodes) := by
  induction nests with
  | nil => exact .nil
  | @leaf token rest nodes opens closes _ ih =>
    refine ih.leaves fun piece member => ?_
    rw [Token.kind_of_mem_spell member]
    exact ⟨opens, closes⟩
  | @block opener close inner rest children nodes opens closes named _ _ ihInner ihRest =>
    have isOpener : opener.kind ≠ .text := by
      intro isText
      rw [isText] at opens
      contradiction
    have isClose : close.kind ≠ .text := by simp [closes]
    rw [spell_cons, spell_append, spell_cons, Token.spell_tag isOpener, Token.spell_tag isClose]
    exact @Nests.block (opener.unplaced marks) (close.unplaced marks) _ _ _ _ opens closes named
      ihInner ihRest

end Streams

/-- The partials of a tree have the same sources whatever is known of the lines of their tags. -/
def Style.Ignores (style : Style) (marks : LineMark → LineMark) (nodes : List Node) : Prop :=
  ∀ token, Node.Within (.leaf token) nodes → token.kind = .partialTag →
    ∀ found, style.source? token.value = .ok (some found) →
      Job.partialSource (token.unplaced marks) found = Job.partialSource token found

section Writing

variable {style : Style} {marks : LineMark → LineMark} {inner : Writer} {outlook : Outlook}

theorem Style.writeNodes_singleton (style : Style) (node : Node) :
    style.writeNodes inner outlook [node] = style.writeNode inner outlook node := by
  unfold writeNodes writeNodes
  cases style.writeNode inner outlook node with
  | error fault => rfl
  | ok text => exact congrArg Except.ok String.append_empty

theorem Style.writeNodes_ofChars (style : Style) (text : List Char) :
    style.writeNodes inner outlook ((text.map Token.ofChar).map .leaf) =
      .ok (String.ofList text) := by
  induction text with
  | nil => rfl
  | cons c rest ih =>
    rw [List.map_cons, List.map_cons, writeNodes, ih]
    change Except.ok (String.singleton c ++ String.ofList rest) = _
    rw [Except.ok.injEq, ← String.toList_inj]
    simp

theorem Style.writePartial_unplaced {token : Token}
    (ignores : ∀ found, style.source? token.value = .ok (some found) →
      Job.partialSource (token.unplaced marks) found = Job.partialSource token found) :
    style.writePartial inner outlook (token.unplaced marks) =
      style.writePartial inner outlook token := by
  unfold writePartial
  change (style.source? token.value >>= _) = _
  cases known : style.source? token.value with
  | error fault => rfl
  | ok source =>
    cases source with
    | none => rfl
    | some found =>
      have same := ignores found known
      change (parseTemplate _ _ >>= _) = (parseTemplate _ _ >>= _)
      rw [same]
      rfl

theorem Style.writeNodes_spelled_node (body : ∀ outlook children, style.Ignores marks children →
      inner outlook (spelled marks children) = inner outlook children) {node : Node}
    (ignores : style.Ignores marks [node]) :
    style.writeNodes inner outlook (node.spelled marks) = style.writeNode inner outlook node := by
  cases node with
  | leaf token =>
    by_cases isText : token.kind = .text
    · rw [Node.spelled, Token.spell, if_pos isText, writeNodes_ofChars, String.ofList_toList,
        writeNode, writeLeaf, isText]
      rfl
    · rw [Node.spelled, Token.spell_tag isText, List.map_singleton, writeNodes_singleton]
      have pieces := fun isPartial => ignores token (.head _ []) isPartial
      obtain ⟨kind, value, start, stop, mark⟩ := token
      cases kind with
      | text => contradiction
      | partialTag => exact writePartial_unplaced (pieces rfl)
      | _ => rfl
  | block opener children closeStart =>
    have same : ∀ outlook, inner outlook (spelled marks children) = inner outlook children :=
      fun outlook => body outlook children fun token within =>
        ignores token (.inside within)
    rw [Node.spelled, writeNodes_singleton]
    simp only [writeNode, same]
    rfl

theorem Style.writeNodes_spelled (body : ∀ outlook children, style.Ignores marks children →
      inner outlook (spelled marks children) = inner outlook children) {nodes : List Node}
    (ignores : style.Ignores marks nodes) :
    style.writeNodes inner outlook (spelled marks nodes) =
      style.writeNodes inner outlook nodes := by
  induction nodes with
  | nil => rfl
  | cons node rest ih =>
    have here : style.Ignores marks [node] :=
      fun token within => ignores token (within.of_singleton rest)
    rw [spelled, writeNodes_append, writeNodes_spelled_node body here,
      ih fun token within => ignores token (.tail within), writeNodes]

theorem Style.write_spelled (style : Style) (depth : Nat) (outlook : Outlook) {nodes : List Node}
    (ignores : style.Ignores marks nodes) :
    style.write depth outlook (spelled marks nodes) = style.write depth outlook nodes := by
  induction depth generalizing outlook nodes with
  | zero => rfl
  | succ depth ih => exact writeNodes_spelled (fun outlook children => ih outlook) ignores

end Writing

end Mustache

import Mustache.Proofs.Nesting

set_option autoImplicit false

namespace Mustache

/-- The sections open after a stream with what was read in front of them, and what was read in the
innermost one; nothing if a close tag finds no section open. -/
def collect (opened : List OpenBlock) (body : List Node) :
    List Token → Option (List OpenBlock × List Node)
  | [] => some (opened, body)
  | token :: rest =>
      if token.kind.opensBody then collect (⟨token, body⟩ :: opened) [] rest
      else if token.kind = .closeTag then
        match opened with
        | [] => none
        | innermost :: outer =>
            collect outer
              (.block innermost.opener body.reverse token.start :: innermost.before) rest
      else collect opened (.leaf token :: body) rest

theorem nestFrom_eq_collect (opened : List OpenBlock) (body : List Node) (tokens : List Token) :
    nestFrom opened body tokens = (collect opened body tokens).map fun left =>
      ((left.1.getLast?.map (·.before)).getD left.2).reverse := by
  induction tokens generalizing opened body with
  | nil => rfl
  | cons token rest ih =>
    unfold nestFrom collect
    split
    next => exact ih _ _
    next =>
      split
      next => cases opened with
        | nil => rfl
        | cons innermost outer => exact ih _ _
      next => exact ih _ _

theorem nest_of_collect {tokens : List Token} {nodes : List Node}
    (collected : collect [] [] tokens = some ([], nodes.reverse)) : nest tokens = some nodes := by
  rw [nest, nestFrom_eq_collect, collected]
  simp

theorem collect_append {tokens : List Token} {nodes : List Node} (nests : Nests tokens nodes)
    (opened : List OpenBlock) (body : List Node) (rest : List Token) :
    collect opened body (tokens ++ rest) = collect opened (nodes.reverse ++ body) rest := by
  induction nests generalizing opened body rest with
  | nil => rfl
  | leaf opens closes _ ih =>
    simp [collect, opens, closes, ih]
  | @block opener close inner more children nodes opens closes named _ _ ihInner ihRest =>
    simp only [List.cons_append, List.append_assoc, collect, opens, if_true, ihInner]
    simp [closes, opensBody_closeTag, ihRest]

theorem collect_of_nests {tokens : List Token} {nodes : List Node} (nests : Nests tokens nodes) :
    collect [] [] tokens = some ([], nodes.reverse) := by
  have whole := collect_append nests [] [] []
  simpa [collect] using whole

def Token.closing (opener : Token) (start : Nat) : Token where
  kind := .closeTag
  value := opener.value
  start := start
  stop := start

mutual

/-- The stream of a node: the tag of a section, the streams of its children, and a close tag. -/
def Node.flatten : Node → List Token
  | .leaf token => [token]
  | .block opener children closeStart =>
      opener :: (flatten children ++ [opener.closing closeStart])

def flatten : List Node → List Token
  | [] => []
  | node :: rest => node.flatten ++ flatten rest

end

mutual

def Node.Formed : Node → Prop
  | .leaf token => token.kind.opensBody = false ∧ token.kind ≠ .closeTag
  | .block opener children _ => opener.kind.opensBody = true ∧ Formed children

def Formed : List Node → Prop
  | [] => True
  | node :: rest => node.Formed ∧ Formed rest

end

def Token.endless (token : Token) : Token :=
  if token.kind = .closeTag then { token with stop := token.start } else token

@[simp] theorem Token.kind_endless (token : Token) : token.endless.kind = token.kind := by
  unfold endless
  split <;> rfl

theorem Token.endless_of_ne {token : Token} (other : token.kind ≠ .closeTag) :
    token.endless = token :=
  if_neg other

theorem Token.endless_of_closeTag {token : Token} (closes : token.kind = .closeTag)
    (unmarked : token.mark = {}) {opener : Token} (named : token.value = opener.value) :
    token.endless = opener.closing token.start := by
  cases token
  simp_all [endless, closing]

theorem ne_closeTag_of_opensBody {kind : Kind} (opens : kind.opensBody = true) :
    kind ≠ .closeTag := by
  rintro rfl
  contradiction

section Streams

variable {tokens : List Token} {nodes : List Node}

theorem Nests.flatten (nests : Nests tokens nodes)
    (unmarked : ∀ token ∈ tokens, token.kind = .closeTag → token.mark = {}) :
    Formed nodes ∧ Mustache.flatten nodes = tokens.map Token.endless := by
  induction nests with
  | nil => exact ⟨trivial, rfl⟩
  | @leaf token rest nodes opens closes _ ih =>
    obtain ⟨formed, later⟩ := ih fun other member => unmarked other (by simp [member])
    refine ⟨⟨⟨opens, closes⟩, formed⟩, ?_⟩
    rw [Mustache.flatten, Node.flatten, later, List.map_cons, Token.endless_of_ne closes]
    rfl
  | @block opener close inner rest children nodes opens closes named _ _ ihInner ihRest =>
    obtain ⟨formedBody, body⟩ := ihInner fun token member => unmarked token (by simp [member])
    obtain ⟨formed, later⟩ := ihRest fun token member => unmarked token (by simp [member])
    have bare := unmarked close (by simp) closes
    refine ⟨⟨⟨opens, formedBody⟩, formed⟩, ?_⟩
    rw [Mustache.flatten, Node.flatten, body, later, List.map_cons, List.map_append, List.map_cons,
      Token.endless_of_ne (ne_closeTag_of_opensBody opens),
      Token.endless_of_closeTag closes bare named]
    simp

mutual

theorem Node.map_endless_flatten (node : Node) (formed : node.Formed) :
    node.flatten.map Token.endless = node.flatten := by
  cases node with
  | leaf token =>
    rw [Node.flatten, List.map_singleton, Token.endless_of_ne formed.2]
  | block opener children closeStart =>
    rw [Node.flatten, List.map_cons, List.map_append, map_endless_flatten children formed.2,
      Token.endless_of_ne (ne_closeTag_of_opensBody formed.1), List.map_singleton,
      Token.endless_of_closeTag rfl rfl rfl]
    rfl

theorem map_endless_flatten (nodes : List Node) (formed : Formed nodes) :
    (Mustache.flatten nodes).map Token.endless = Mustache.flatten nodes := by
  cases nodes with
  | nil => rfl
  | cons node rest =>
    rw [Mustache.flatten, List.map_append, node.map_endless_flatten formed.1,
      map_endless_flatten rest formed.2]

end

theorem eq_of_endless {token other : Token} (same : token.endless = other)
    (isOther : other.kind ≠ .closeTag) : token = other := by
  subst same
  rw [Token.kind_endless] at isOther
  exact (Token.endless_of_ne isOther).symm

mutual

theorem Node.nests_of_flatten (node : Node) (formed : node.Formed) {front rest : List Token}
    (same : front.map Token.endless = node.flatten) {nodes : List Node} (nests : Nests rest nodes) :
    Nests (front ++ rest) (node :: nodes) := by
  cases node with
  | leaf token =>
    rw [Node.flatten] at same
    obtain ⟨first, rfl, isLeaf⟩ := List.map_eq_singleton_iff.1 same
    obtain ⟨opens, closes⟩ := formed
    obtain rfl := eq_of_endless isLeaf closes
    exact .leaf opens closes nests
  | block opener children closeStart =>
    rw [Node.flatten] at same
    obtain ⟨first, behind, rfl, isOpener, isBody⟩ := List.map_eq_cons_iff.1 same
    obtain ⟨inner, last, rfl, isInner, isLast⟩ := List.map_eq_append_iff.1 isBody
    obtain ⟨close, rfl, isClose⟩ := List.map_eq_singleton_iff.1 isLast
    obtain ⟨opens, formedBody⟩ := formed
    obtain rfl := eq_of_endless isOpener (ne_closeTag_of_opensBody opens)
    have body := nests_of_flatten children formedBody isInner
    have closes : close.kind = .closeTag :=
      (Token.kind_endless close).symm.trans (congrArg Token.kind isClose)
    simp only [Token.endless, if_pos closes, Token.closing, Token.mk.injEq] at isClose
    obtain ⟨-, named, rfl, -⟩ := isClose
    have block := Nests.block opens closes named body nests
    simpa using block

theorem nests_of_flatten (nodes : List Node) (formed : Formed nodes) {tokens : List Token}
    (same : tokens.map Token.endless = Mustache.flatten nodes) : Nests tokens nodes := by
  cases nodes with
  | nil =>
    rw [Mustache.flatten, List.map_eq_nil_iff] at same
    exact same ▸ .nil
  | cons node rest =>
    rw [Mustache.flatten] at same
    obtain ⟨front, behind, rfl, isNode, isRest⟩ := List.map_eq_append_iff.1 same
    exact node.nests_of_flatten formed.1 isNode (nests_of_flatten rest formed.2 isRest)

end

end Streams

section Parsing

variable {source : String} {pair : Delimiters} {name : Option String} {tokens : List Token}

theorem mark_of_mem_squash (tokenized : tokenize source pair name = .ok tokens) {token : Token}
    (member : token ∈ squash tokens) (closes : token.kind = .closeTag) : token.mark = {} := by
  obtain ⟨⟨inForce, ended⟩, -, rfl⟩ := tokenize_eq_ok_iff.1 tokenized
  -- A close tag is not merged with anything, so it is one of the raw stream.
  have kept := List.mem_filter.2 ⟨member, isTag_of_closeTag closes⟩
  rw [filter_isTag_squash] at kept
  have raw := (settle_sublist (readsAll_scan ended).proper).subset (List.mem_filter.1 kept).1
  obtain ⟨piece, -, ahead, rfl⟩ := exists_piece_of_mem_rawFrom raw
  cases piece with
  | text start c => rfl
  | tag kind value start stop inForce =>
    obtain rfl : kind = .closeTag := closes
    rfl

theorem nest_flatten :
    (∀ source pair name tokens, tokenize source pair name = .ok tokens →
      ∃ nodes, collect [] [] (squash tokens) = some ([], nodes.reverse) ∧
        nest (squash tokens) = some nodes ∧ Formed nodes ∧
        flatten nodes = (squash tokens).map Token.endless) ∧
    ∀ nodes, Formed nodes →
      nest (flatten nodes) = some nodes ∧
        ∀ tokens, tokens.map Token.endless = flatten nodes → nest tokens = some nodes := by
  constructor
  · intro source pair name tokens tokenized
    obtain ⟨nodes, -, nests⟩ := exists_nests_of_tokenize tokenized
    obtain ⟨formed, flattened⟩ :=
      nests.flatten fun token member => mark_of_mem_squash tokenized member
    have collected := collect_of_nests nests
    exact ⟨nodes, collected, nest_of_collect collected, formed, flattened⟩
  · intro nodes formed
    have nested (tokens : List Token) (same : tokens.map Token.endless = flatten nodes) :
        nest tokens = some nodes := nest_eq_some (nests_of_flatten nodes formed same)
    exact ⟨nested _ (map_endless_flatten nodes formed), nested⟩

theorem nest_flatten_of_sections :
    ∃ tokens nodes,
      tokenize "{{#a}}xy{{^b}}{{>p}}{{/b}}{{/a}}z" .standard none = .ok tokens ∧
      collect [] [] (squash tokens) = some ([], nodes.reverse) ∧
      flatten nodes = (squash tokens).map Token.endless ∧ Formed nodes ∧
      nest (flatten nodes) = some nodes ∧ nest (squash tokens) = some nodes :=
  have tokenized : tokenize "{{#a}}xy{{^b}}{{>p}}{{/b}}{{/a}}z" .standard none = .ok
      [⟨.sectionTag, "a", 0, 6, {}⟩, ⟨.text, "x", 6, 7, {}⟩, ⟨.text, "y", 7, 8, {}⟩,
        ⟨.invertedTag, "b", 8, 14, {}⟩, ⟨.partialTag, "p", 14, 20, ⟨"  ", 2, true⟩⟩,
        ⟨.closeTag, "b", 20, 26, {}⟩, ⟨.closeTag, "a", 26, 32, {}⟩,
        ⟨.text, "z", 32, 33, {}⟩] := rfl
  have ⟨nodes, collected, _, formed, flattened⟩ := nest_flatten.1 _ _ _ _ tokenized
  have ⟨again, nested⟩ := nest_flatten.2 nodes formed
  ⟨_, nodes, tokenized, collected, flattened, formed, again, nested _ flattened.symm⟩

end Parsing

end Mustache

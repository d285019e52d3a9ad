import Mustache.Proofs.StandAlone
import Mustache.Tree

set_option autoImplicit false

namespace Mustache

/-- The stream of a forest: the tokens of a section's body stand between its tag and a close tag of
its name. -/
inductive Nests : List Token → List Node → Prop
  | nil : Nests [] []
  | leaf {token : Token} {rest : List Token} {nodes : List Node}
      (opens : token.kind.opensBody = false) (closes : token.kind ≠ .closeTag) :
      Nests rest nodes → Nests (token :: rest) (.leaf token :: nodes)
  | block {opener close : Token} {inner rest : List Token} {children nodes : List Node}
      (opens : opener.kind.opensBody = true) (closes : close.kind = .closeTag)
      (named : close.value = opener.value) :
      Nests inner children → Nests rest nodes →
      Nests (opener :: (inner ++ close :: rest)) (.block opener children close.start :: nodes)

theorem opensBody_closeTag : Kind.closeTag.opensBody = false := rfl

theorem nestFrom_append {tokens : List Token} {nodes : List Node} (nests : Nests tokens nodes)
    (opened : List OpenBlock) (body : List Node) (rest : List Token) :
    nestFrom opened body (tokens ++ rest) = nestFrom opened (nodes.reverse ++ body) rest := by
  induction nests generalizing opened body rest with
  | nil => rfl
  | leaf opens closes _ ih =>
    simp [nestFrom, opens, closes, ih]
  | @block opener close inner more children nodes opens closes named _ _ ihInner ihRest =>
    simp only [List.cons_append, List.append_assoc, nestFrom, opens, if_true, ihInner]
    simp [closes, opensBody_closeTag, ihRest]

theorem nest_eq_some {tokens : List Token} {nodes : List Node} (nests : Nests tokens nodes) :
    nest tokens = some nodes := by
  have whole := nestFrom_append nests [] [] []
  simpa [nest, nestFrom] using whole

theorem Nests.unique {tokens : List Token} {nodes others : List Node} (nests : Nests tokens nodes)
    (again : Nests tokens others) : nodes = others :=
  Option.some.inj ((nest_eq_some nests).symm.trans (nest_eq_some again))

theorem Nests.leaves {tokens front : List Token} {nodes : List Node}
    (isLeaf : ∀ token ∈ front, token.kind.opensBody = false ∧ token.kind ≠ .closeTag)
    (nests : Nests tokens nodes) : Nests (front ++ tokens) (front.map .leaf ++ nodes) := by
  induction front with
  | nil => exact nests
  | cons token rest ih =>
    rw [List.forall_mem_cons] at isLeaf
    exact .leaf isLeaf.1.1 isLeaf.1.2 (ih isLeaf.2)

theorem Nests.append {tokens more : List Token} {nodes others : List Node}
    (nests : Nests tokens nodes) (onward : Nests more others) :
    Nests (tokens ++ more) (nodes ++ others) := by
  induction nests with
  | nil => exact onward
  | leaf opens closes _ ih => exact .leaf opens closes ih
  | block opens closes named inside _ _ ih =>
    rw [List.cons_append, List.append_assoc, List.cons_append]
    exact .block opens closes named inside ih

def openNames (opened : List String) : List Token → Option (List String)
  | [] => some opened
  | token :: rest =>
      if token.kind.opensBody then openNames (token.value :: opened) rest
      else if token.kind = .closeTag then
        match opened with
        | [] => none
        | innermost :: outer =>
            if innermost = token.value then openNames outer rest else none
      else openNames opened rest

section Names

variable {opened : List String} {token : Token} {rest : List Token}

theorem openNames_opener (opens : token.kind.opensBody = true) :
    openNames opened (token :: rest) = openNames (token.value :: opened) rest := by
  simp [openNames, opens]

theorem openNames_other (opens : token.kind.opensBody = false) (closes : token.kind ≠ .closeTag) :
    openNames opened (token :: rest) = openNames opened rest := by
  simp [openNames, opens, closes]

theorem openNames_close (closes : token.kind = .closeTag) {names : List String} :
    openNames opened (token :: rest) = some names ↔
      ∃ outer, opened = token.value :: outer ∧ openNames outer rest = some names := by
  cases opened with
  | nil => simp [openNames, closes, opensBody_closeTag]
  | cons innermost outer =>
    by_cases same : innermost = token.value <;>
      simp [openNames, closes, opensBody_closeTag, same]

theorem openNames_append {tokens : List Token} {nodes : List Node} (nests : Nests tokens nodes) :
    openNames opened (tokens ++ rest) = openNames opened rest := by
  induction nests generalizing opened rest with
  | nil => rfl
  | leaf opens closes _ ih => rw [List.cons_append, openNames_other opens closes, ih]
  | block opens closes named _ _ ihInner ihRest =>
    rw [List.cons_append, openNames_opener opens, List.append_assoc, ihInner, List.cons_append]
    simp [openNames, closes, opensBody_closeTag, named, ihRest]

theorem openNames_of_nests {tokens : List Token} {nodes : List Node} (nests : Nests tokens nodes) :
    openNames opened tokens = some opened := by
  have whole : openNames opened (tokens ++ []) = openNames opened [] := openNames_append nests
  simpa [openNames] using whole

theorem exists_body {name : String} {outer : List String} {tokens : List Token}
    (matched : openNames (name :: outer) tokens = some []) :
    ∃ (inner : List Token) (close : Token) (rest : List Token) (children : List Node),
      tokens = inner ++ close :: rest ∧ Nests inner children ∧ close.kind = .closeTag ∧
        close.value = name ∧ openNames outer rest = some [] := by
  -- The body may hold sections, so what follows one of them has to be searched again.
  induction size : tokens.length using Nat.strongRecOn generalizing name outer tokens with
  | ind n ih =>
    subst size
    cases tokens with
    | nil => simp [openNames] at matched
    | cons token more =>
      cases opens : token.kind.opensBody with
      | true =>
        rw [openNames_opener opens] at matched
        obtain ⟨body, close, after, children, rfl, nested, closes, named, left⟩ :=
          ih more.length (by simp) matched rfl
        obtain ⟨inner, last, rest, nodes, rfl, nests, ends, same, done⟩ :=
          ih after.length (by simp; omega) left rfl
        exact ⟨token :: (body ++ close :: inner), last, rest, _, by simp,
          .block opens closes named nested nests, ends, same, done⟩
      | false =>
        by_cases closes : token.kind = .closeTag
        · obtain ⟨outer', same, left⟩ := (openNames_close closes).1 matched
          obtain ⟨rfl, rfl⟩ := List.cons.inj same
          exact ⟨[], token, more, [], rfl, .nil, closes, rfl, left⟩
        · rw [openNames_other opens closes] at matched
          obtain ⟨inner, last, rest, nodes, rfl, nests, ends, same, done⟩ :=
            ih more.length (by simp) matched rfl
          exact ⟨token :: inner, last, rest, _, rfl, .leaf opens closes nests, ends, same, done⟩

theorem exists_nests {tokens : List Token} (matched : openNames [] tokens = some []) :
    ∃ nodes, Nests tokens nodes := by
  induction size : tokens.length using Nat.strongRecOn generalizing tokens with
  | ind n ih =>
    subst size
    cases tokens with
    | nil => exact ⟨[], .nil⟩
    | cons token more =>
      cases opens : token.kind.opensBody with
      | true =>
        rw [openNames_opener opens] at matched
        obtain ⟨inner, close, rest, children, rfl, nested, closes, named, left⟩ :=
          exists_body matched
        obtain ⟨nodes, nests⟩ := ih rest.length (by simp; omega) left rfl
        exact ⟨_, .block opens closes named nested nests⟩
      | false =>
        by_cases closes : token.kind = .closeTag
        · obtain ⟨outer, same, -⟩ := (openNames_close closes).1 matched
          contradiction
        · rw [openNames_other opens closes] at matched
          obtain ⟨nodes, nests⟩ := ih more.length (by simp) matched rfl
          exact ⟨_, .leaf opens closes nests⟩

end Names

section Text

theorem isTag_of_opensBody {token : Token} (opens : token.kind.opensBody = true) :
    token.isTag = true := by
  cases kind : token.kind <;> simp_all [Kind.opensBody, Token.isTag]

theorem isTag_of_closeTag {token : Token} (closes : token.kind = .closeTag) :
    token.isTag = true := by
  simp [Token.isTag, closes]

theorem openNames_filter_isTag (opened : List String) (tokens : List Token) :
    openNames opened (tokens.filter Token.isTag) = openNames opened tokens := by
  induction tokens generalizing opened with
  | nil => rfl
  | cons token rest ih =>
    by_cases isTag : token.isTag = true
    · rw [List.filter_cons_of_pos isTag]
      simp only [openNames, ih]
    · have isText : token.kind = .text := by simpa [Token.isTag] using isTag
      rw [List.filter_cons_of_neg isTag, ih, openNames_other (by simp [isText, Kind.opensBody])
        (by simp [isText])]

theorem filter_isTag_squashFrom (last : Token) (tokens : List Token) :
    (squash.squashFrom last tokens).filter Token.isTag = (last :: tokens).filter Token.isTag := by
  induction tokens generalizing last with
  | nil => rfl
  | cons token rest ih =>
    unfold squash.squashFrom
    split
    next both =>
      rw [ih]
      simp [Token.isTag, both]
    next =>
      simp only [List.filter_cons (x := last), ih]

theorem filter_isTag_squash (tokens : List Token) :
    (squash tokens).filter Token.isTag = tokens.filter Token.isTag := by
  cases tokens with
  | nil => rfl
  | cons token rest => exact filter_isTag_squashFrom token rest

end Text

def Piece.bareTag? : Piece → Option Token
  | text _ _ => none
  | tag kind value start stop _ => some { kind, value, start, stop }

@[simp] theorem filterMap_bareTag?_text (start : Nat) (c : Char) (rest : List Piece) :
    (Piece.text start c :: rest).filterMap Piece.bareTag? = rest.filterMap Piece.bareTag? := rfl

@[simp] theorem filterMap_bareTag?_tag (kind : Kind) (value : String) (start stop : Nat)
    (inForce : Delimiters) (rest : List Piece) :
    (Piece.tag kind value start stop inForce :: rest).filterMap Piece.bareTag? =
      { kind, value, start, stop } :: rest.filterMap Piece.bareTag? := rfl

def Token.bare (token : Token) : Token :=
  { token with mark := {} }

@[simp] theorem Token.kind_bare (token : Token) : token.bare.kind = token.kind := rfl

@[simp] theorem Token.value_bare (token : Token) : token.bare.value = token.value := rfl

def bareTags (tokens : List Token) : List Token :=
  (tokens.filter Token.isTag).map Token.bare

theorem bareTags_append (tokens more : List Token) :
    bareTags (tokens ++ more) = bareTags tokens ++ bareTags more := by
  simp [bareTags]

theorem bareTags_cons_of_isTag {token : Token} (isTag : token.isTag = true) (rest : List Token) :
    bareTags (token :: rest) = token.bare :: bareTags rest := by
  simp [bareTags, isTag]

theorem bareTags_cons_of_text {token : Token} (isText : token.kind = .text) (rest : List Token) :
    bareTags (token :: rest) = bareTags rest := by
  simp [bareTags, Token.isTag, isText]

theorem bareTags_squash (tokens : List Token) : bareTags (squash tokens) = bareTags tokens := by
  rw [bareTags, filter_isTag_squash, bareTags]

theorem bareTags_rawFrom {pieces : List Piece} (proper : ∀ piece ∈ pieces, piece.Proper)
    (line : List Piece) : bareTags (rawFrom line pieces) = pieces.filterMap Piece.bareTag? := by
  induction pieces generalizing line with
  | nil => rfl
  | cons piece rest ih =>
    have later := ih fun piece member => proper piece (by simp [member])
    cases piece with
    | text start c => rw [rawFrom, bareTags_cons_of_text rfl, later]; rfl
    | tag kind value start stop inForce =>
      have isTag : kind ≠ .text := proper (.tag kind value start stop inForce) (by simp)
      have kept : ((Piece.tag kind value start stop inForce).token line).isTag = true := by
        simp [Piece.token, Token.isTag, isTag]
      rw [rawFrom, bareTags_cons_of_isTag kept, later]
      rfl

theorem openNames_map {f : Token → Token} (kind : ∀ token, (f token).kind = token.kind)
    (value : ∀ token, (f token).value = token.value) (opened : List String) (tokens : List Token) :
    openNames opened (tokens.map f) = openNames opened tokens := by
  induction tokens generalizing opened with
  | nil => rfl
  | cons token rest ih => simp only [List.map_cons, openNames, ih, kind, value]

theorem openNames_bareTags (opened : List String) (tokens : List Token) :
    openNames opened (bareTags tokens) = openNames opened tokens := by
  rw [bareTags, openNames_map Token.kind_bare Token.value_bare, openNames_filter_isTag]

theorem openAfterAll_eq_ok_iff {opened names : List String} {pieces : List Piece} :
    openAfterAll opened pieces = .ok names ↔
      openNames opened (pieces.filterMap Piece.bareTag?) = some names := by
  -- Both check the names of close tags against those of the open sections.
  induction pieces generalizing opened with
  | nil => simp [openAfterAll, openNames]
  | cons piece rest ih =>
    cases piece with
    | text start c => simp [openAfterAll, openAfter, ih]
    | tag kind value start stop inForce =>
      by_cases opens : kind.opensBody = true
      · simp [openAfterAll, openAfter, opens, openNames, ih]
      by_cases closes : kind = .closeTag
      · subst closes
        cases opened with
        | nil => simp [openAfterAll, openAfter, openNames, Kind.opensBody]
        | cons innermost outer =>
          by_cases same : innermost = value <;>
            simp [openAfterAll, openAfter, openNames, Kind.opensBody, same, ih]
      · simp [openAfterAll, openAfter, opens, closes, openNames, ih]

theorem bareTags_settle {pieces : List Piece} (proper : ∀ piece ∈ pieces, piece.Proper) :
    bareTags (settle {} pieces) = pieces.filterMap Piece.bareTag? := by
  rw [bareTags, filter_isTag_settle proper]
  exact bareTags_rawFrom proper []

theorem exists_nests_squash_settle {pieces : List Piece} (proper : ∀ piece ∈ pieces, piece.Proper)
    (matched : openAfterAll [] pieces = .ok []) :
    ∃ nodes, Nests (squash (settle {} pieces)) nodes := by
  apply exists_nests
  rw [← openNames_bareTags, bareTags_squash, bareTags_settle proper]
  exact openAfterAll_eq_ok_iff.1 matched

theorem parseTemplate_eq_ok_iff {source : String} {pair : Delimiters} {name : Option String}
    {nodes : List Node} :
    parseTemplate source pair name = .ok nodes ↔
      (∃ inForce, (scan pair source.toList).ending = .complete inForce) ∧
        openAfterAll [] (scan pair source.toList).pieces = .ok [] ∧
        Nests (squash (settle {} (scan pair source.toList).pieces)) nodes := by
  have tokenized := @tokenize_eq_ok_iff source pair name
  constructor
  · intro parsed
    unfold parseTemplate at parsed
    split at parsed
    next => contradiction
    next tokens found =>
      obtain ⟨ended, matched, rfl⟩ := tokenized.1 found
      obtain ⟨inForce, complete⟩ := ended
      obtain ⟨forest, nests⟩ :=
        exists_nests_squash_settle (readsAll_scan complete).proper matched
      rw [nest_eq_some nests, Option.getD_some, Except.ok.injEq] at parsed
      exact ⟨⟨inForce, complete⟩, matched, parsed ▸ nests⟩
  · rintro ⟨ended, matched, nests⟩
    simp [parseTemplate, tokenized.2 ⟨ended, matched, rfl⟩, nest_eq_some nests]

theorem parseTemplate_eq_ok_iff_nests {source : String} {pair : Delimiters}
    {name : Option String} {nodes : List Node} :
    parseTemplate source pair name = .ok nodes ↔
      (∃ inForce, (scan pair source.toList).ending = .complete inForce) ∧
        Nests (squash (settle {} (scan pair source.toList).pieces)) nodes := by
  rw [parseTemplate_eq_ok_iff]
  refine and_congr_right fun ⟨inForce, complete⟩ => and_iff_right_of_imp fun nests => ?_
  -- The names match in the stream, and so in the pieces that its tags come from.
  rw [openAfterAll_eq_ok_iff, ← bareTags_settle (readsAll_scan complete).proper,
    ← bareTags_squash, openNames_bareTags]
  exact openNames_of_nests nests

theorem fault_of_parseTemplate {source : String} {pair : Delimiters} {name : Option String}
    {fault : Fault} (failed : parseTemplate source pair name = .error fault) :
    (∃ cause, fault = .parse cause) ∨ ∃ shown, fault = .invalidTags shown := by
  unfold parseTemplate at failed
  split at failed
  next tokenized =>
    obtain rfl := Except.error.inj failed
    simp only [tokenize] at tokenized
    split at tokenized
    next =>
      cases tokenized
      exact .inl ⟨_, rfl⟩
    next =>
      split at tokenized
      next =>
        cases tokenized
        exact .inl ⟨_, rfl⟩
      next =>
        cases tokenized
        exact .inr ⟨_, rfl⟩
      next =>
        split at tokenized
        next => cases tokenized
        next =>
          cases tokenized
          exact .inl ⟨_, rfl⟩
  next => contradiction

def Token.moved (distance : Nat) (token : Token) : Token :=
  { token with start := token.start + distance, stop := token.stop + distance }

mutual

def Node.outline : Node → List Node
  | .leaf token => if token.isTag then [.leaf token.bare] else []
  | .block opener children closeStart => [.block opener.bare (outlines children) closeStart]

def outlines : List Node → List Node
  | [] => []
  | node :: rest => node.outline ++ outlines rest

end

theorem Nests.outlines {tokens : List Token} {nodes : List Node} (nests : Nests tokens nodes) :
    Nests (bareTags tokens) (outlines nodes) := by
  induction nests with
  | nil => exact .nil
  | @leaf token rest nodes opens closes _ ih =>
    by_cases isTag : token.isTag = true
    · rw [bareTags_cons_of_isTag isTag]
      have kept := @Nests.leaf token.bare _ _ opens closes ih
      simpa [Mustache.outlines, Node.outline, isTag] using kept
    · have isText : token.kind = .text := by simpa [Token.isTag] using isTag
      rw [bareTags_cons_of_text isText]
      simpa [Mustache.outlines, Node.outline, isTag] using ih
  | @block opener close inner rest children nodes opens closes named _ _ ihInner ihRest =>
    rw [bareTags_cons_of_isTag (isTag_of_opensBody opens), bareTags_append,
      bareTags_cons_of_isTag (isTag_of_closeTag closes)]
    exact @Nests.block opener.bare close.bare _ _ _ _ opens closes named ihInner ihRest

mutual

def Node.moved (distance : Nat) : Node → Node
  | .leaf token => .leaf (token.moved distance)
  | .block opener children closeStart =>
      .block (opener.moved distance) (movedAll distance children) (closeStart + distance)

def movedAll (distance : Nat) : List Node → List Node
  | [] => []
  | node :: rest => node.moved distance :: movedAll distance rest

end

theorem Nests.moved {tokens : List Token} {nodes : List Node} (nests : Nests tokens nodes)
    (distance : Nat) : Nests (tokens.map (Token.moved distance)) (movedAll distance nodes) := by
  induction nests with
  | nil => exact .nil
  | @leaf token rest nodes opens closes _ ih =>
    exact @Nests.leaf (token.moved distance) _ _ opens closes ih
  | @block opener close inner rest children nodes opens closes named _ _ ihInner ihRest =>
    rw [List.map_cons, List.map_append, List.map_cons]
    exact @Nests.block (opener.moved distance) (close.moved distance) _ _ _ _ opens closes named
      ihInner ihRest

inductive Node.Within : Node → List Node → Prop
  | head (node : Node) (rest : List Node) : Within node (node :: rest)
  | tail {node other : Node} {rest : List Node} : Within node rest → Within node (other :: rest)
  | inside {node : Node} {token : Token} {children rest : List Node} {closeStart : Nat} :
      Within node children → Within node (.block token children closeStart :: rest)

theorem Nests.exists_section {tokens : List Token} {nodes : List Node} (nests : Nests tokens nodes)
    {opener : Token} {children : List Node} {closeStart : Nat}
    (within : Node.Within (.block opener children closeStart) nodes) :
    ∃ (before inner : List Token) (close : Token) (after : List Token),
      tokens = before ++ opener :: (inner ++ close :: after) ∧ Nests inner children ∧
        opener.kind.opensBody = true ∧ close.kind = .closeTag ∧ close.start = closeStart := by
  -- The case split on `within` follows the forest: in front, behind, or inside a body.
  induction nests with
  | nil => cases within
  | @leaf token rest nodes opens closes _ ih =>
    cases within with
    | tail within =>
      obtain ⟨before, inner, close, after, rfl, found⟩ := ih within
      exact ⟨token :: before, inner, close, after, rfl, found⟩
  | @block first last body rest forest nodes opens closes named nested _ ihBody ihRest =>
    cases within with
    | head => exact ⟨[], body, last, rest, rfl, nested, opens, closes, rfl⟩
    | tail within =>
      obtain ⟨before, inner, close, after, rfl, found⟩ := ihRest within
      exact ⟨first :: (body ++ last :: before), inner, close, after, by simp, found⟩
    | inside within =>
      obtain ⟨before, inner, close, after, rfl, found⟩ := ihBody within
      exact ⟨first :: before, inner, close, after ++ last :: rest, by simp, found⟩

theorem Node.Within.ofBody {node : Node} {opener : Token} {children nodes : List Node}
    {closeStart : Nat} (here : Node.Within (.block opener children closeStart) nodes)
    (within : Node.Within node children) : Node.Within node nodes := by
  induction here with
  | head => exact .inside within
  | tail _ ih => exact .tail ih
  | inside _ ih => exact .inside ih

theorem Node.Within.of_singleton {node first : Node} (within : Node.Within node [first])
    (rest : List Node) : Node.Within node (first :: rest) := by
  cases within with
  | head => exact .head _ rest
  | tail none => cases none
  | inside within => exact .inside within

theorem Nests.token_mem {tokens : List Token} {nodes : List Node} (nests : Nests tokens nodes)
    {node : Node} (within : Node.Within node nodes) : node.token ∈ tokens := by
  induction nests with
  | nil => cases within
  | leaf opens closes _ ih =>
    cases within with
    | head => exact List.mem_cons_self
    | tail within => exact List.mem_cons_of_mem _ (ih within)
  | block opens closes named _ _ ihBody ihRest =>
    cases within with
    | head => exact List.mem_cons_self
    | tail within => simp [ihRest within]
    | inside within => simp [ihBody within]

section Parsing

variable {source : String} {pair : Delimiters} {name : Option String} {tokens : List Token}
  {nodes : List Node}

theorem exists_tokens_of_parseTemplate (parsed : parseTemplate source pair name = .ok nodes) :
    ∃ tokens, tokenize source pair name = .ok tokens ∧ Nests (squash tokens) nodes := by
  obtain ⟨ended, matched, nests⟩ := parseTemplate_eq_ok_iff.1 parsed
  exact ⟨_, tokenize_eq_ok_iff.2 ⟨ended, matched, rfl⟩, nests⟩

theorem exists_nests_of_tokenize (tokenized : tokenize source pair name = .ok tokens) :
    ∃ nodes, parseTemplate source pair name = .ok nodes ∧ Nests (squash tokens) nodes := by
  obtain ⟨⟨inForce, ended⟩, matched, rfl⟩ := tokenize_eq_ok_iff.1 tokenized
  obtain ⟨nodes, nests⟩ := exists_nests_squash_settle (readsAll_scan ended).proper matched
  exact ⟨nodes, parseTemplate_eq_ok_iff.2 ⟨⟨inForce, ended⟩, matched, nests⟩, nests⟩

theorem exists_piece_of_within (parsed : parseTemplate source pair name = .ok nodes) {node : Node}
    (within : Node.Within node nodes) (isTag : node.token.isTag = true) :
    ∃ piece ∈ (scan pair source.toList).pieces, piece.bareTag? = some node.token.bare := by
  obtain ⟨⟨inForce, ended⟩, -, nests⟩ := parseTemplate_eq_ok_iff.1 parsed
  have kept : node.token.bare ∈ bareTags (squash (settle {} (scan pair source.toList).pieces)) :=
    List.mem_map_of_mem (List.mem_filter.2 ⟨nests.token_mem within, isTag⟩)
  rw [bareTags_squash, bareTags_settle (readsAll_scan ended).proper] at kept
  exact List.mem_filterMap.1 kept

end Parsing

end Mustache

import Mustache.Proofs.DataRendering
import Mustache.Proofs.LineByLine
import Mustache.Proofs.Spelling

set_option autoImplicit false

namespace Mustache

section Parsing

variable {source : String} {pair : Delimiters} {name : Option String} {tokens : List Token}
  {nodes : List Node}

theorem Reads.pair_eq {first last : Reader} {piece : Piece} (step : Reads first piece last)
    (keeps : ∀ tag, piece.bareTag? = some tag → tag.kind ≠ .delimiterTag) :
    last.pair = first.pair := by
  cases step with
  | text plain => rfl
  | tag opened read after =>
    have other := keeps _ rfl
    rw [Tag.pairAfter, if_neg other] at after
    exact (Except.ok.inj after).symm

theorem ReadsAll.pair_eq {first last : Reader} {pieces : List Piece}
    (run : ReadsAll first pieces last)
    (keeps : ∀ tag ∈ pieces.filterMap Piece.bareTag?, tag.kind ≠ .delimiterTag) :
    last.pair = first.pair := by
  induction run with
  | nil reader => rfl
  | @cons first middle last piece pieces step run ih =>
    have later := ih fun tag member =>
      keeps tag ((List.sublist_cons_self piece pieces).filterMap _ |>.subset member)
    exact later.trans (step.pair_eq fun tag isTag =>
      keeps tag (List.mem_filterMap.2 ⟨piece, List.mem_cons_self, isTag⟩))

theorem inForce_eq_of_tokenize {inForce : Delimiters}
    (tokenized : tokenize source pair name = .ok tokens)
    (complete : (scan pair source.toList).ending = .complete inForce)
    (keeps : ∀ token ∈ tokens, token.kind ≠ .delimiterTag) : inForce = pair := by
  obtain ⟨-, -, rfl⟩ := tokenize_eq_ok_iff.1 tokenized
  have run := readsAll_scan complete
  refine run.pair_eq ?_
  rw [← bareTags_settle run.proper]
  intro tag member
  obtain ⟨token, isKept, rfl⟩ := List.mem_map.1 member
  exact keeps token (List.mem_of_mem_filter isKept)

end Parsing

section Writing

variable {first second : String} {pair : Delimiters} {name : Option String} {tokens : List Token}
  {nodes before after : List Node}

theorem Style.ignores_id (style : Style) (nodes : List Node) : style.Ignores id nodes :=
  fun _ _ _ _ _ => rfl

theorem write_of_spelled_append {style : Style} {outlook : Outlook} {depth before' after' : Nat}
    {out more : String} (spelling : spelled id nodes = spelled id before ++ spelled id after)
    (beforeIs : style.write before' outlook before = .ok out)
    (afterIs : style.write after' outlook after = .ok more)
    (deepBefore : before' ≤ depth) (deepAfter : after' ≤ depth) :
    style.write depth outlook nodes = .ok (out ++ more) := by
  have reached : style.write depth outlook before = .ok out := by
    rw [style.write_deepens deepBefore outlook outlook before (.refl outlook) (by simp [beforeIs]),
      beforeIs]
  have reached' : style.write depth outlook after = .ok more := by
    rw [style.write_deepens deepAfter outlook outlook after (.refl outlook) (by simp [afterIs]),
      afterIs]
  rw [← style.write_spelled depth outlook (style.ignores_id nodes), spelling]
  rw [← style.write_spelled depth outlook (style.ignores_id _)] at reached reached'
  cases depth with
  | zero => cases reached
  | succ depth =>
    rw [Style.write, Style.writeNodes_append]
    rw [Style.write] at reached reached'
    rw [reached, reached', joined_ok]

theorem spelled_append_of_tokenize {moved : List Token} {distance : Nat}
    (nests : Nests (squash (tokens ++ moved.map (Token.moved distance))) nodes)
    (nestsBefore : Nests (squash tokens) before) (nestsAfter : Nests (squash moved) after) :
    spelled id nodes = spelled id before ++ spelled id after := by
  have whole := nests.spelled id
  have parts := (nestsBefore.spelled id).append (nestsAfter.spelled id)
  rw [spell_squash, spell_append, spell_moved] at whole
  rw [spell_squash, spell_squash] at parts
  exact whole.unique parts

end Writing

theorem tokenize_append_lineFeed {first second : String} {pair : Delimiters} {name : Option String}
    {tokens : List Token} (unblank : pair.Unblank) (ends : first.toList.getLast? = some '\n')
    (tokenized : tokenize first pair name = .ok tokens) :
    ∃ inForce, (scan pair first.toList).ending = .complete inForce ∧
      (tokenize (first ++ second) pair name =
        match tokenize second inForce name with
        | .ok more => .ok (tokens ++ more.map (Token.moved first.length))
        | .error fault => .error (fault.behind first)) ∧
      ((∀ token ∈ tokens, token.kind ≠ .delimiterTag) →
        ∀ (engine : Engine) (tags view : Value) (entries : List (Value × Value)) (s t u : Session)
          (depth depth' : Nat) (out more : String),
          engine.pairFor tags = .ok pair → view.IsDataView →
          engine.Ready pair s → engine.Ready pair t → engine.Ready pair u →
          (engine.render depth (.str first) view (.map entries) tags s).1 = .ok out →
          (engine.render depth' (.str second) view (.map entries) tags t).1 = .ok more →
          ∀ deeper, depth ≤ deeper → depth' ≤ deeper →
            (engine.render deeper (.str (first ++ second)) view (.map entries) tags u).1 =
              .ok (out ++ more)) := by
  obtain ⟨⟨inForce, complete⟩, -⟩ := tokenize_eq_ok_iff.1 tokenized
  refine ⟨inForce, complete, tokenize_append unblank ends tokenized complete, ?_⟩
  intro keeps engine tags view entries s t u depth depth' out more paired data readyFirst
    readySecond ready renderedFirst renderedSecond deeper deep deep'
  obtain rfl := inForce_eq_of_tokenize tokenized complete keeps
  obtain ⟨before, parsedFirst, wroteFirst⟩ :=
    Engine.exists_parsed_of_render readyFirst paired data renderedFirst
  obtain ⟨after, parsedSecond, wroteSecond⟩ :=
    Engine.exists_parsed_of_render readySecond paired data renderedSecond
  -- The trees of the parts are spelled one after the other.
  obtain ⟨tokensFirst, tokenizedFirst, nestsFirst⟩ := exists_tokens_of_parseTemplate parsedFirst
  obtain ⟨tokensSecond, tokenizedSecond, nestsSecond⟩ := exists_tokens_of_parseTemplate parsedSecond
  have tokenizedBoth :=
    @tokenize_append first second _ _ none _ unblank ends tokenizedFirst complete
  rw [tokenizedSecond] at tokenizedBoth
  obtain ⟨nodes, parsed, nests⟩ := exists_nests_of_tokenize tokenizedBoth
  exact Engine.render_of_parsed ready paired data parsed <|
    write_of_spelled_append (spelled_append_of_tokenize nests nestsFirst nestsSecond)
      wroteFirst wroteSecond deep deep'

theorem tokenize_append_lineFeed_of_section :
    ∃ (engine : Engine) (view : Value) (tokens : List Token),
      Delimiters.standard.Unblank ∧
      tokenize "{{#a}}\nx\n{{/a}}\n" .standard none = .ok tokens ∧
      tokenize ("{{#a}}\nx\n{{/a}}\n" ++ "y{{>p}}") .standard none = .ok (tokens ++
        [⟨.text, "y", 16, 17, {}⟩, ⟨.partialTag, "p", 17, 23, ⟨" ", 0, true⟩⟩]) ∧
      (engine.render 2 (.str ("{{#a}}\nx\n{{/a}}\n" ++ "y{{>p}}")) view
        (.map [(.str "p", .str "!")]) .null { caches := [{}] }).1 = .ok ("x\n" ++ "y!") := by
  let engine : Engine := { cache := .keepFirst 0 }
  let view : Value := .map [(.str "a", .bool true)]
  have tokenized : tokenize "{{#a}}\nx\n{{/a}}\n" .standard none = .ok
      [⟨.sectionTag, "a", 0, 6, {}⟩, ⟨.text, "x", 7, 8, {}⟩, ⟨.text, "\n", 8, 9, {}⟩,
        ⟨.closeTag, "a", 9, 15, {}⟩] := rfl
  have ready : engine.Ready .standard { caches := [{}] } := .ofEmpty .standard rfl rfl (by simp)
  have data : view.IsDataView := Value.isDataView_of_isData rfl
  have parsedFirst : parseTemplate "{{#a}}\nx\n{{/a}}\n" .standard none = .ok
      [.block ⟨.sectionTag, "a", 0, 6, {}⟩ [.leaf ⟨.text, "x\n", 7, 9, {}⟩] 9] := rfl
  have parsedSecond : parseTemplate "y{{>p}}" .standard none = .ok
      [.leaf ⟨.text, "y", 0, 1, {}⟩, .leaf ⟨.partialTag, "p", 1, 7, ⟨" ", 0, true⟩⟩] := rfl
  have renderedFirst := @Engine.render_of_parsed _ _ .null _ _ [(.str "p", .str "!")] _ ready rfl
    data 2 _ parsedFirst (.ok "x\n") rfl
  have renderedSecond := @Engine.render_of_parsed _ _ .null _ _ [(.str "p", .str "!")] _ ready rfl
    data 2 _ parsedSecond (.ok "y!") rfl
  obtain ⟨inForce, complete, both, renders⟩ :=
    @tokenize_append_lineFeed _ "y{{>p}}" _ _ _ (by decide) rfl tokenized
  obtain rfl := Ending.complete.inj complete
  have rendered := renders (by decide) engine .null view _ _ _ _ 2 2 "x\n" "y!" rfl data ready ready
    ready renderedFirst renderedSecond 2 (Nat.le_refl 2) (Nat.le_refl 2)
  exact ⟨engine, view, _, by decide, tokenized, both, rendered⟩

end Mustache

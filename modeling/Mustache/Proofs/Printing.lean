import Mustache.Proofs.TagText
import Mustache.Proofs.Nesting

set_option autoImplicit false

namespace Mustache

inductive Shape where
  | leaf (kind : Kind) (value : String)
  | block (kind : Kind) (value : String) (children : List Shape)

def Shape.isText : Shape → Bool
  | leaf kind _ => kind = .text
  | block _ _ _ => false

mutual

def Node.shape : Node → Shape
  | .leaf token => .leaf token.kind token.value
  | .block opener children _ => .block opener.kind opener.value (shapes children)

def shapes : List Node → List Shape
  | [] => []
  | node :: rest => node.shape :: shapes rest

end

mutual

def Shape.hasContent : Shape → Bool
  | .leaf kind value => kind.writesValue || kind = .text && !value.toList.all isBlank
  | .block _ _ children => haveContent children

def haveContent : List Shape → Bool
  | [] => false
  | shape :: rest => shape.hasContent || haveContent rest

end

/-- Text on one line, or a tag of a kind that keeps its value and owns no body. -/
def LeafFits (pair : Delimiters) (value : List Char) : Kind → Prop
  | .text => value ≠ [] ∧ '\n' ∉ value ∧ OnlyAtEnd pair.opening value
  | .escaped => FitsTag pair .escaped value
  | .unescaped => FitsTag pair .unescaped value
  | .partialTag => FitsTag pair .partialTag value
  | .comment => FitsTag pair .comment value
  | _ => False

mutual

def Shape.Fits (pair : Delimiters) : Shape → Prop
  | .leaf kind value => LeafFits pair value.toList kind
  | .block kind value children =>
      kind.opensBody = true ∧ TagValue pair value.toList ∧ AllFit pair children

def AllFit (pair : Delimiters) : List Shape → Prop
  | [] => True
  | shape :: rest =>
      shape.Fits pair ∧ (shape.isText && rest.head?.any Shape.isText) = false ∧ AllFit pair rest

end

instance (pair : Delimiters) (value : List Char) (kind : Kind) :
    Decidable (LeafFits pair value kind) :=
  match kind with
  | .text => inferInstanceAs (Decidable (_ ∧ _ ∧ _))
  | .escaped => inferInstanceAs (Decidable (FitsTag pair .escaped value))
  | .unescaped => inferInstanceAs (Decidable (FitsTag pair .unescaped value))
  | .partialTag => inferInstanceAs (Decidable (FitsTag pair .partialTag value))
  | .comment => inferInstanceAs (Decidable (FitsTag pair .comment value))
  | .sectionTag | .invertedTag | .closeTag | .delimiterTag => inferInstanceAs (Decidable False)

mutual

def Shape.decideFits (pair : Delimiters) : (shape : Shape) → Decidable (shape.Fits pair)
  | .leaf kind value => inferInstanceAs (Decidable (LeafFits pair value.toList kind))
  | .block _ _ children =>
      have := decideAllFit pair children
      inferInstanceAs (Decidable (_ ∧ _ ∧ _))

def decideAllFit (pair : Delimiters) : (forest : List Shape) → Decidable (AllFit pair forest)
  | [] => inferInstanceAs (Decidable True)
  | shape :: rest =>
      have := Shape.decideFits pair shape
      have := decideAllFit pair rest
      inferInstanceAs (Decidable (_ ∧ _ ∧ _))

end

instance (pair : Delimiters) (forest : List Shape) : Decidable (AllFit pair forest) :=
  decideAllFit pair forest

/-- The prints of a forest. An unescaped variable may be printed in either of two ways. -/
inductive Prints (pair : Delimiters) : List Shape → List Char → Prop
  | nil : Prints pair [] []
  | text {value : String} {rest : List Shape} {out : List Char} :
      Prints pair rest out → Prints pair (.leaf .text value :: rest) (value.toList ++ out)
  | tag {kind : Kind} {value : String} {rest : List Shape} {out : List Char}
      (isTag : kind ≠ .text) :
      Prints pair rest out →
      Prints pair (.leaf kind value :: rest) (tagText pair kind.mark value.toList ++ out)
  | brace {value : String} {rest : List Shape} {out : List Char}
      (closes : OnlyAtEnd ('}' :: pair.closing) value.toList) :
      Prints pair rest out →
      Prints pair (.leaf .unescaped value :: rest) (braceText pair value.toList ++ out)
  | block {kind : Kind} {value : String} {children rest : List Shape} {inner out : List Char} :
      Prints pair children inner → Prints pair rest out →
      Prints pair (.block kind value children :: rest)
        (tagText pair kind.mark value.toList ++
          (inner ++ (tagText pair Kind.closeTag.mark value.toList ++ out)))

def textPieces (start : Nat) : List Char → List Piece
  | [] => []
  | c :: rest => .text start c :: textPieces (start + 1) rest

inductive Spells : List Shape → List Piece → Prop
  | nil : Spells [] []
  | text {value : String} {rest : List Shape} {start : Nat} {pieces : List Piece}
      (nonempty : value.toList ≠ []) (oneLine : '\n' ∉ value.toList)
      (apart : ∀ next, rest.head? = some next → next.isText = false) :
      Spells rest pieces →
      Spells (.leaf .text value :: rest) (textPieces start value.toList ++ pieces)
  | leaf {kind : Kind} {value : String} {rest : List Shape} {start stop : Nat}
      {inForce : Delimiters} {pieces : List Piece} (isTag : kind ≠ .text)
      (opens : kind.opensBody = false) (closes : kind ≠ .closeTag) :
      Spells rest pieces →
      Spells (.leaf kind value :: rest) (.tag kind value start stop inForce :: pieces)
  | block {kind : Kind} {value : String} {children rest : List Shape}
      {start stop closeStart closeStop : Nat} {before after : Delimiters}
      {inner pieces : List Piece} (opens : kind.opensBody = true) :
      Spells children inner → Spells rest pieces →
      Spells (.block kind value children :: rest)
        (.tag kind value start stop before ::
          (inner ++ .tag .closeTag value closeStart closeStop after :: pieces))

section Reading

variable {pair : Delimiters}

theorem OnlyAtEnd.tail {word text : List Char} {c : Char} (only : OnlyAtEnd word (c :: text)) :
    OnlyAtEnd word text :=
  fun k early => only (k + 1) (Nat.succ_lt_succ early)

theorem readsAll_textPieces {text tail : List Char} (only : OnlyAtEnd pair.opening text)
    (follows : tail = [] ∨ pair.opening <+: tail) (offset : Nat) :
    ReadsAll ⟨pair, offset, text ++ tail⟩ (textPieces offset text)
      ⟨pair, offset + text.length, tail⟩ := by
  induction text generalizing offset with
  | nil => exact .nil _
  | cons c rest ih =>
    have plain : ¬ pair.opening <+: c :: (rest ++ tail) := by
      rcases follows with rfl | ⟨more, rfl⟩
      · intro occurs
        apply only 0 (Nat.succ_pos _)
        simpa using occurs.trans (List.prefix_append _ pair.opening)
      · simpa using only.not_prefix (Nat.succ_pos _) more
    have onward := ih only.tail (offset + 1)
    rw [Nat.add_right_comm] at onward
    rw [← List.isPrefixOf_iff_prefix, Bool.not_eq_true] at plain
    exact .cons (.text plain) onward

theorem readsAll_tag {text rest : List Char} {kind : Kind} {value : String}
    (opened : pair.opening <+: text)
    (read : readTag? pair (text ++ rest) = some ⟨kind, value.toList, text.length⟩)
    (notDelimiter : kind ≠ .delimiterTag) (offset : Nat) :
    ReadsAll ⟨pair, offset, text ++ rest⟩
      [.tag kind value offset (offset + text.length) pair]
      ⟨pair, offset + text.length, rest⟩ := by
  have isPrefix : pair.opening.isPrefixOf (text ++ rest) = true :=
    List.isPrefixOf_iff_prefix.2 (opened.trans (List.prefix_append text _))
  have same : Tag.pairAfter ⟨kind, value.toList, text.length⟩ pair = .ok pair := by
    simp [Tag.pairAfter, notDelimiter]
  have step : Reads ⟨pair, offset, text ++ rest⟩ _ _ := .tag isPrefix read same
  rw [List.drop_left] at step
  refine .cons ?_ (.nil _)
  simpa [Tag.piece] using step

theorem ReadsAll.behind {first second tail : List Char} {offset : Nat} {before after : List Piece}
    (run : ReadsAll ⟨pair, offset, first ++ (second ++ tail)⟩ before
      ⟨pair, offset + first.length, second ++ tail⟩)
    (onward : ReadsAll ⟨pair, offset + first.length, second ++ tail⟩ after
      ⟨pair, offset + first.length + second.length, tail⟩) :
    ReadsAll ⟨pair, offset, first ++ second ++ tail⟩ (before ++ after)
      ⟨pair, offset + (first ++ second).length, tail⟩ := by
  rw [List.append_assoc, List.length_append, ← Nat.add_assoc]
  exact readsAll_append.2 ⟨_, run, onward⟩

theorem opening_prefix_tagText (sigil value : List Char) :
    pair.opening <+: tagText pair sigil value := by
  simp [tagText, List.append_assoc]

theorem opening_prefix_braceText (value : List Char) : pair.opening <+: braceText pair value := by
  simp [braceText]

theorem Prints.follows {forest : List Shape} {out tail : List Char}
    (printed : Prints pair forest out)
    (apart : ∀ next, forest.head? = some next → next.isText = false)
    (follows : tail = [] ∨ pair.opening <+: tail) :
    out ++ tail = [] ∨ pair.opening <+: out ++ tail := by
  have behind {text : List Char} (opens : pair.opening <+: text) (more : List Char) :
      text ++ more ++ tail = [] ∨ pair.opening <+: text ++ more ++ tail := by
    rw [List.append_assoc]
    exact .inr (opens.trans (List.prefix_append text (more ++ tail)))
  cases printed with
  | nil => exact follows
  | text => simpa [Shape.isText] using apart _ rfl
  | tag => exact behind (opening_prefix_tagText _ _) _
  | brace => exact behind (opening_prefix_braceText _) _
  | block => exact behind (opening_prefix_tagText _ _) _

theorem LeafFits.fitsTag {kind : Kind} {value : List Char} (fits : LeafFits pair value kind)
    (isTag : kind ≠ .text) :
    FitsTag pair kind value ∧ kind.opensBody = false ∧ kind ≠ .closeTag ∧ kind ≠ .delimiterTag := by
  cases kind with
  | text => contradiction
  | escaped => exact ⟨fits, rfl, by decide, by decide⟩
  | unescaped => exact ⟨fits, rfl, by decide, by decide⟩
  | partialTag => exact ⟨fits, rfl, by decide, by decide⟩
  | comment => exact ⟨fits, rfl, by decide, by decide⟩
  | _ => exact False.elim fits

theorem Prints.reads (visible : ∀ c ∈ pair.closing, isBlank c = false) {forest : List Shape}
    {out tail : List Char} (printed : Prints pair forest out) (fits : AllFit pair forest)
    (offset : Nat) (follows : tail = [] ∨ pair.opening <+: tail) :
    ∃ pieces, ReadsAll ⟨pair, offset, out ++ tail⟩ pieces ⟨pair, offset + out.length, tail⟩ ∧
      Spells forest pieces := by
  -- The print of a section is followed by its close tag, so the induction is for every tail.
  induction printed generalizing offset tail with
  | nil => exact ⟨[], .nil _, .nil⟩
  | @text value rest out printed ih =>
    obtain ⟨⟨nonempty, oneLine, opens⟩, apart, fitsRest⟩ := fits
    have next : ∀ next, rest.head? = some next → next.isText = false := by
      intro next first
      simpa [first, Shape.isText] using apart
    obtain ⟨pieces, onward, spells⟩ := ih fitsRest (offset + value.toList.length) follows
    have run := readsAll_textPieces opens (printed.follows next follows) offset
    exact ⟨_, run.behind onward, .text nonempty oneLine next spells⟩
  | @tag kind value rest out isTag printed ih =>
    obtain ⟨fitsLeaf, -, fitsRest⟩ := fits
    obtain ⟨fitsTag, opens, closes, notDelimiter⟩ := LeafFits.fitsTag fitsLeaf isTag
    have run := readsAll_tag (opening_prefix_tagText _ _)
      (readTag?_tagText visible fitsTag (out ++ tail)) notDelimiter offset
    obtain ⟨pieces, onward, spells⟩ := ih fitsRest _ follows
    exact ⟨_, run.behind onward, .leaf isTag opens closes spells⟩
  | @brace value rest out closes printed ih =>
    obtain ⟨isValue, -, fitsRest⟩ := fits
    have run := readsAll_tag (opening_prefix_braceText _)
      (readTag?_brace visible isValue closes (out ++ tail)) (by decide) offset
    obtain ⟨pieces, onward, spells⟩ := ih fitsRest _ follows
    exact ⟨_, run.behind onward, .leaf (by decide) rfl (by decide) spells⟩
  | @block kind value children rest inner out _ _ ihInner ihRest =>
    obtain ⟨⟨opens, isValue, fitsInner⟩, -, fitsRest⟩ := fits
    have run := readsAll_tag (opening_prefix_tagText _ _)
      (readTag?_tagText visible (fitsTag_of_opensBody opens isValue)
        (inner ++ (tagText pair Kind.closeTag.mark value.toList ++ out) ++ tail))
      (by rintro rfl; contradiction) offset
    have close : pair.opening <+: tagText pair Kind.closeTag.mark value.toList ++ out ++ tail := by
      rw [List.append_assoc]
      exact (opening_prefix_tagText _ _).trans (List.prefix_append _ _)
    obtain ⟨body, runBody, spellsBody⟩ := ihInner fitsInner _ (.inr close)
    have fitsClose : FitsTag pair .closeTag value.toList := isValue
    have runClose := readsAll_tag (opening_prefix_tagText _ _)
      (readTag?_tagText visible fitsClose (out ++ tail)) (by decide)
      (offset + (tagText pair kind.mark value.toList).length + inner.length)
    obtain ⟨pieces, onward, spells⟩ := ihRest fitsRest _ follows
    exact ⟨_, run.behind (runBody.behind (runClose.behind onward)), .block opens spellsBody spells⟩

end Reading

section Tokens

theorem squashFrom_text {last : Token} {tokens rest : List Token} (isText : last.kind = .text)
    (allText : ∀ token ∈ tokens, token.kind = .text)
    (apart : ∀ next, rest.head? = some next → next.kind ≠ .text) :
    ∃ token, squash.squashFrom last (tokens ++ rest) = token :: squash rest ∧ token.kind = .text ∧
      token.value.toList = last.value.toList ++ tokens.flatMap fun token => token.value.toList := by
  induction tokens generalizing last with
  | nil =>
    refine ⟨last, ?_, isText, by simp⟩
    cases rest with
    | nil => rfl
    | cons next rest =>
      have other := apart next rfl
      simp [squash, squash.squashFrom, other]
  | cons token tokens ih =>
    have alsoText := allText token (by simp)
    obtain ⟨merged, squashed, kind, value⟩ :=
      @ih { last with value := last.value ++ token.value, stop := token.stop } isText
        fun token member => allText token (by simp [member])
    refine ⟨merged, ?_, kind, by simp [value]⟩
    simpa [squash.squashFrom, isText, alsoText] using squashed

theorem squash_cons_tag {tag : Token} (isTag : tag.kind ≠ .text) (rest : List Token) :
    squash (tag :: rest) = tag :: squash rest := by
  cases rest with
  | nil => rfl
  | cons next rest => simp [squash, squash.squashFrom, isTag]

theorem squashFrom_append_tag {tag : Token} (isTag : tag.kind ≠ .text) (last : Token)
    (tokens rest : List Token) :
    squash.squashFrom last (tokens ++ tag :: rest) =
      squash.squashFrom last tokens ++ tag :: squash rest := by
  induction tokens generalizing last with
  | nil =>
    have behind : squash.squashFrom tag rest = tag :: squash rest := squash_cons_tag isTag rest
    simp [squash.squashFrom, isTag, behind]
  | cons token tokens ih =>
    simp only [List.cons_append, squash.squashFrom]
    split
    · rw [ih]
    · rw [ih, List.cons_append]

theorem squash_append_tag {tag : Token} (isTag : tag.kind ≠ .text) (tokens rest : List Token) :
    squash (tokens ++ tag :: rest) = squash tokens ++ tag :: squash rest := by
  cases tokens with
  | nil => exact squash_cons_tag isTag rest
  | cons token tokens => exact squashFrom_append_tag isTag token tokens rest

theorem rawFrom_append {before : List Piece} (opened : ∀ piece ∈ before, piece.endsLine = false)
    (line after : List Piece) :
    rawFrom line (before ++ after) = rawFrom line before ++ rawFrom (line ++ before) after := by
  induction before generalizing line with
  | nil => simp [rawFrom]
  | cons piece before ih =>
    have here := opened piece (by simp)
    have later := ih fun piece member => opened piece (by simp [member])
    simp [rawFrom, here, later]

theorem mem_textPieces {piece : Piece} {start : Nat} {text : List Char}
    (member : piece ∈ textPieces start text) : ∃ place, ∃ c ∈ text, piece = .text place c := by
  induction text generalizing start with
  | nil => simp [textPieces] at member
  | cons c rest ih =>
    rcases List.mem_cons.1 member with rfl | later
    · exact ⟨start, c, by simp, rfl⟩
    · obtain ⟨place, d, inside, rfl⟩ := ih later
      exact ⟨place, d, by simp [inside], rfl⟩

theorem proper_textPieces (start : Nat) (text : List Char) :
    ∀ piece ∈ textPieces start text, piece.Proper := by
  intro piece member
  obtain ⟨place, c, -, rfl⟩ := mem_textPieces member
  trivial

theorem endsLine_text {c : Char} (other : c ≠ '\n') (start : Nat) :
    (Piece.text start c).endsLine = false := by
  simpa [Piece.endsLine] using other

theorem endsLine_textPieces {start : Nat} {text : List Char} (oneLine : '\n' ∉ text) :
    ∀ piece ∈ textPieces start text, piece.endsLine = false := by
  intro piece member
  obtain ⟨place, c, inside, rfl⟩ := mem_textPieces member
  exact endsLine_text (fun same => oneLine (same ▸ inside)) place

theorem Spells.endsLine {forest : List Shape} {pieces : List Piece}
    (spells : Spells forest pieces) : ∀ piece ∈ pieces, piece.endsLine = false := by
  induction spells with
  | nil => simp
  | text nonempty oneLine apart _ ih =>
    intro piece member
    rcases List.mem_append.1 member with inText | later
    · exact endsLine_textPieces oneLine piece inText
    · exact ih piece later
  | leaf isTag opens closes _ ih =>
    rw [List.forall_mem_cons]
    exact ⟨rfl, ih⟩
  | block opens _ _ ihInner ihRest =>
    rw [List.forall_mem_cons, List.forall_mem_append, List.forall_mem_cons]
    exact ⟨rfl, ihInner, rfl, ihRest⟩

theorem rawFrom_textPieces (text : List Char) (line : List Piece) (start : Nat) :
    (∀ token ∈ rawFrom line (textPieces start text), token.kind = .text) ∧
      (rawFrom line (textPieces start text)).flatMap (fun token => token.value.toList) = text := by
  induction text generalizing line start with
  | nil => simp [textPieces, rawFrom]
  | cons c rest ih =>
    obtain ⟨kinds, values⟩ :=
      ih (if (Piece.text start c).endsLine then [] else line ++ [.text start c]) (start + 1)
    simp only [textPieces, rawFrom, List.forall_mem_cons, List.flatMap_cons]
    exact ⟨⟨rfl, kinds⟩, by simp [Piece.token, values]⟩

theorem squash_textPieces {text : List Char} (nonempty : text ≠ []) (line : List Piece)
    {rest : List Token} (apart : ∀ next, rest.head? = some next → next.kind ≠ .text)
    (start : Nat) :
    ∃ token, squash (rawFrom line (textPieces start text) ++ rest) = token :: squash rest ∧
      token.kind = .text ∧ token.value = String.ofList text := by
  obtain ⟨kinds, values⟩ := rawFrom_textPieces text line start
  cases tokens : rawFrom line (textPieces start text) with
  | nil =>
    rw [tokens] at values
    exact absurd values.symm nonempty
  | cons first others =>
    rw [tokens, List.forall_mem_cons] at kinds
    obtain ⟨token, squashed, kind, value⟩ := squashFrom_text kinds.1 kinds.2 apart
    refine ⟨token, squashed, kind, ?_⟩
    rw [← String.toList_inj, value, String.toList_ofList, ← values, tokens, List.flatMap_cons]

theorem Spells.head_kind {forest : List Shape} {pieces : List Piece} (spells : Spells forest pieces)
    (apart : ∀ next, forest.head? = some next → next.isText = false) (line : List Piece) :
    ∀ next, (rawFrom line pieces).head? = some next → next.kind ≠ .text := by
  cases spells with
  | nil => simp [rawFrom]
  | text => simpa [Shape.isText] using apart _ rfl
  | leaf isTag => simpa [rawFrom, Piece.token] using isTag
  | @block kind _ _ _ _ _ _ _ _ _ _ _ opens =>
    have isTag : kind ≠ .text := by
      rintro rfl
      contradiction
    simpa [rawFrom, Piece.token] using isTag

theorem Spells.nests {forest : List Shape} {pieces : List Piece} (spells : Spells forest pieces)
    (line : List Piece) :
    ∃ nodes, Nests (squash (rawFrom line pieces)) nodes ∧ shapes nodes = forest := by
  induction spells generalizing line with
  | nil => exact ⟨[], .nil, rfl⟩
  | @text value rest start pieces nonempty oneLine apart spells ih =>
    obtain ⟨nodes, nests, rfl⟩ := ih (line ++ textPieces start value.toList)
    obtain ⟨token, squashed, kind, isValue⟩ := squash_textPieces nonempty line
      (spells.head_kind apart (line ++ textPieces start value.toList)) start
    refine ⟨.leaf token :: nodes, ?_, ?_⟩
    · rw [rawFrom_append (endsLine_textPieces oneLine), squashed]
      exact .leaf (by rw [kind]; rfl) (by rw [kind]; decide) nests
    · simp [shapes, Node.shape, kind, isValue]
  | @leaf kind value rest start stop inForce pieces isTag opens closes spells ih =>
    obtain ⟨nodes, nests, rfl⟩ := ih (line ++ [.tag kind value start stop inForce])
    have tag : ((Piece.tag kind value start stop inForce).token line).kind ≠ .text := isTag
    refine ⟨.leaf ((Piece.tag kind value start stop inForce).token line) :: nodes, ?_, rfl⟩
    rw [rawFrom, squash_cons_tag tag]
    exact .leaf opens closes nests
  | @block kind value children rest start stop closeStart closeStop before after inner pieces opens
      spellsInner _ ihInner ihRest =>
    -- The body follows the section's tag on its line, and the close tag follows the body.
    let opener := Piece.tag kind value start stop before
    let close := Piece.tag .closeTag value closeStart closeStop after
    obtain ⟨body, nestsInner, rfl⟩ := ihInner (line ++ [opener])
    obtain ⟨nodes, nests, rfl⟩ := ihRest (line ++ [opener] ++ inner ++ [close])
    refine ⟨.block (opener.token line) body closeStart :: nodes, ?_, rfl⟩
    have openerTag : (opener.token line).kind ≠ .text := by
      rintro (same : kind = .text)
      simp [same, Kind.opensBody] at opens
    have closeTag : (close.token (line ++ [opener] ++ inner)).kind ≠ .text :=
      show Kind.closeTag ≠ .text by decide
    have tokens : rawFrom line (opener :: (inner ++ close :: pieces)) =
        opener.token line :: (rawFrom (line ++ [opener]) inner ++
          close.token (line ++ [opener] ++ inner) ::
            rawFrom (line ++ [opener] ++ inner ++ [close]) pieces) := by
      rw [rawFrom]
      change _ :: rawFrom (line ++ [opener]) (inner ++ close :: pieces) = _
      rw [rawFrom_append spellsInner.endsLine, rawFrom]
      rfl
    rw [tokens, squash_cons_tag openerTag, squash_append_tag closeTag]
    exact .block opens rfl rfl nestsInner nests

theorem any_isContent_textPieces {text : List Char} (oneLine : '\n' ∉ text) (line : List Piece)
    (start : Nat) :
    (rawFrom line (textPieces start text)).any Token.isContent = !text.all isBlank := by
  induction text generalizing line start with
  | nil => rfl
  | cons c rest ih =>
    have here := endsLine_text (show c ≠ '\n' from fun same => oneLine (by simp [same])) start
    have later :=
      ih (fun member => oneLine (by simp [member])) (line ++ [.text start c]) (start + 1)
    simp only [textPieces, rawFrom, here, Bool.false_eq_true, if_false, List.any_cons, later,
      List.all_cons, Bool.not_and]
    simp [Piece.token, Token.isContent, Kind.writesValue]

theorem Spells.any_isContent {forest : List Shape} {pieces : List Piece}
    (spells : Spells forest pieces) (line : List Piece) :
    (rawFrom line pieces).any Token.isContent = haveContent forest := by
  induction spells generalizing line with
  | nil => rfl
  | text nonempty oneLine apart spells ih =>
    rw [rawFrom_append (endsLine_textPieces oneLine), List.any_append, ih,
      any_isContent_textPieces oneLine]
    simp [haveContent, Shape.hasContent, Kind.writesValue]
  | leaf isTag opens closes spells ih =>
    rw [rawFrom, List.any_cons, ih]
    simp [haveContent, Shape.hasContent, Piece.token, Token.isContent, isTag]
  | @block kind _ _ _ _ _ _ _ _ _ _ _ opens spellsInner _ ihInner ihRest =>
    have writes : kind.writesValue = false := by
      cases kind <;> simp_all [Kind.opensBody, Kind.writesValue]
    have closes : Kind.closeTag.writesValue = false := rfl
    have isTag : kind ≠ .text := by
      rintro rfl
      contradiction
    rw [rawFrom, List.any_cons, rawFrom_append spellsInner.endsLine, List.any_append, rawFrom,
      List.any_cons, ihInner, ihRest]
    simp [haveContent, Shape.hasContent, Piece.token, Token.isContent, writes, closes, isTag]

theorem endsLine_rawFrom {pieces : List Piece} (proper : ∀ piece ∈ pieces, piece.Proper)
    (opened : ∀ piece ∈ pieces, piece.endsLine = false) (line : List Piece) :
    ∀ token ∈ rawFrom line pieces, token.endsLine = false := by
  induction pieces generalizing line with
  | nil => simp [rawFrom]
  | cons piece rest ih =>
    rw [List.forall_mem_cons] at proper opened
    rw [rawFrom, List.forall_mem_cons, endsLine_token line proper.1]
    exact ⟨opened.1, ih proper.2 opened.2 _⟩

theorem Spells.settle {forest : List Shape} {pieces : List Piece} (spells : Spells forest pieces)
    (proper : ∀ piece ∈ pieces, piece.Proper) (content : haveContent forest = true) :
    settle {} pieces = rawTokens pieces := by
  have opened := endsLine_rawFrom proper spells.endsLine []
  -- The print is all on one line, and its content keeps that line.
  have kept : standsAlone (rawTokens pieces) = false := by
    rw [standsAlone, rawTokens, spells.any_isContent, content]
    simp
  rw [settle_eq_stripped_lines proper, rawTokens, cutAfterLines_of_open opened, ← rawTokens]
  simp [stripLine, kept]

end Tokens

theorem parseTemplate_of_prints {pair : Delimiters}
    (visible : ∀ c ∈ pair.closing, isBlank c = false) {forest : List Shape} {out : List Char}
    (fits : AllFit pair forest) (content : haveContent forest = true)
    (printed : Prints pair forest out) (name : Option String) :
    ∃ nodes, parseTemplate (String.ofList out) pair name = .ok nodes ∧ shapes nodes = forest := by
  obtain ⟨pieces, run, spells⟩ := printed.reads visible fits 0 (.inl (Eq.refl []))
  have scanned : scan pair (String.ofList out).toList = ⟨pieces, .complete pair⟩ := by
    simpa [Reader.scan, scan, scanFrom, Scan.prependAll] using run.scan
  obtain ⟨nodes, nests, same⟩ := spells.nests []
  have settled := spells.settle run.proper content
  refine ⟨nodes, parseTemplate_eq_ok_iff_nests.2 ?_, same⟩
  rw [scanned]
  exact ⟨⟨pair, rfl⟩, by rwa [settled]⟩

theorem parseTemplate_of_prints_nested :
    ∃ out, String.ofList out = "x <<%#s%><%>p%> <%^i%><%!c%><%/i%><%/s%><%&%u%><%{v}%><%n%>" ∧
      ∃ nodes,
        parseTemplate (String.ofList out) ⟨['<', '%'], ['%', '>'], by simp, by simp⟩ none =
          .ok nodes ∧
        shapes nodes = [.leaf .text "x <",
          .block .sectionTag "s" [.leaf .partialTag "p", .leaf .text " ",
            .block .invertedTag "i" [.leaf .comment "c"]],
          .leaf .unescaped "%u", .leaf .unescaped "v", .leaf .escaped "n"] := by
  let pair : Delimiters := ⟨['<', '%'], ['%', '>'], by simp, by simp⟩
  have body := @Prints.tag pair .partialTag "p" _ _ (by decide) <| @Prints.text _ " " _ _ <|
    @Prints.block _ .invertedTag "i" _ _ _ _ (@Prints.tag _ .comment "c" _ _ (by decide) .nil) .nil
  have behind := @Prints.tag pair .unescaped "%u" _ _ (by decide) <|
    @Prints.brace _ "v" _ _ (by decide) (@Prints.tag _ .escaped "n" _ _ (by decide) .nil)
  have printed := @Prints.text _ "x <" _ _ (@Prints.block _ .sectionTag "s" _ _ _ _ body behind)
  have visible : ∀ c ∈ pair.closing, isBlank c = false := by
    rw [List.forall_mem_cons, List.forall_mem_singleton]
    decide
  exact ⟨_, rfl, parseTemplate_of_prints visible (by decide) rfl printed none⟩

end Mustache

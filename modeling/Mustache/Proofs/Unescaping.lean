import Mustache.Proofs.Markup

set_option autoImplicit false

namespace Mustache

def entities : List (Char × String) :=
  [('&', "&amp;"), ('<', "&lt;"), ('>', "&gt;"), ('"', "&quot;"), ('\'', "&#39;"), ('/', "&#x2F;"),
    ('\x60', "&#x60;"), ('=', "&#x3D;")]

def entityAt? (text : List Char) : Option (Char × String) :=
  entities.find? fun entry => entry.2.toList.isPrefixOf text

def unescapeFrom : Nat → List Char → List Char
  | _, [] => []
  -- What is left of an entity whose character stands already.
  | skipped + 1, _ :: rest => unescapeFrom skipped rest
  | 0, c :: rest =>
      match entityAt? (c :: rest) with
      | some (character, entity) => character :: unescapeFrom (entity.length - 1) rest
      | none => c :: unescapeFrom 0 rest

def unescapeHtml (text : String) : String :=
  String.ofList (unescapeFrom 0 text.toList)

section Entities

variable {c : Char} {entity : String}

theorem entity?_eq_some_iff : entity? c = some entity ↔ (c, entity) ∈ entities := by
  constructor
  · intro known
    unfold entity? at known
    split at known <;> cases known <;> decide
  · intro member
    have listed : ∀ entry ∈ entities, entity? entry.1 = some entry.2 := by decide
    exact listed _ member

theorem eq_of_entity_begins : ∀ entry ∈ entities, ∀ other ∈ entities,
    entry.2.toList <+: other.2.toList → entry = other := by
  decide

theorem exists_entity_tail (member : (c, entity) ∈ entities) :
    ∃ tail, entity.toList = '&' :: tail ∧ '&' ∉ tail := by
  have begins : ∀ entry ∈ entities,
      entry.2.toList.head? = some '&' ∧ '&' ∉ entry.2.toList.tail := by
    decide
  obtain ⟨head, free⟩ := begins _ member
  obtain ⟨tail, whole⟩ := List.head?_eq_some_iff.1 head
  rw [whole] at free
  exact ⟨tail, whole, free⟩

theorem entityAt?_append (member : (c, entity) ∈ entities) (rest : List Char) :
    entityAt? (entity.toList ++ rest) = some (c, entity) := by
  cases found : entityAt? (entity.toList ++ rest) with
  | none =>
    have missed := List.find?_eq_none.1 found _ member
    simp at missed
  | some entry =>
    have isEntity := List.mem_of_find?_eq_some found
    have isPrefix : entry.2.toList <+: entity.toList ++ rest := by
      have := List.find?_some found
      simpa using this
    -- Both entities begin the text, so that one of them begins the other.
    rcases List.prefix_or_prefix_of_prefix isPrefix (List.prefix_append _ _) with inside | around
    · rw [eq_of_entity_begins _ isEntity _ member inside]
    · rw [eq_of_entity_begins _ member _ isEntity around]

theorem entityAt?_cons_of_ne (other : c ≠ '&') (rest : List Char) :
    entityAt? (c :: rest) = none := by
  apply List.find?_eq_none.2
  rintro ⟨d, entity⟩ member isPrefix
  obtain ⟨tail, whole, -⟩ := exists_entity_tail member
  rw [List.isPrefixOf_iff_prefix, whole, List.cons_prefix_cons] at isPrefix
  exact other isPrefix.1.symm

end Entities

section Unescaping

theorem unescapeFrom_append (skipped rest : List Char) :
    unescapeFrom skipped.length (skipped ++ rest) = unescapeFrom 0 rest := by
  induction skipped with
  | nil => rfl
  | cons c skipped ih => exact ih

theorem unescapeFrom_escapeChar (c : Char) (rest : List Char) :
    unescapeFrom 0 (escapeChar c ++ rest) = c :: unescapeFrom 0 rest := by
  unfold escapeChar
  split
  next entity known =>
    have member := entity?_eq_some_iff.1 known
    have found := entityAt?_append member rest
    obtain ⟨tail, whole, -⟩ := exists_entity_tail member
    have length : entity.length - 1 = tail.length := by
      rw [← String.length_toList, whole]
      rfl
    rw [whole, List.cons_append] at found ⊢
    rw [unescapeFrom, found]
    simp only [length, unescapeFrom_append]
  next plain =>
    have other : c ≠ '&' := by
      rintro rfl
      cases plain
    rw [List.singleton_append, unescapeFrom, entityAt?_cons_of_ne other]

theorem unescapeFrom_flatMap_escapeChar (text : List Char) :
    unescapeFrom 0 (text.flatMap escapeChar) = text := by
  induction text with
  | nil => rfl
  | cons c text ih => rw [List.flatMap_cons, unescapeFrom_escapeChar, ih]

theorem unescapeHtml_escapeHtml (text : String) : unescapeHtml (escapeHtml text) = text := by
  simp [unescapeHtml, escapeHtml, unescapeFrom_flatMap_escapeChar]

theorem entity_of_escapeChar {c : Char} {before behind : List Char}
    (split : escapeChar c = before ++ '&' :: behind) :
    ∃ entry ∈ entities, entry.2.toList = '&' :: behind := by
  unfold escapeChar at split
  cases known : entity? c with
  | none =>
    simp only [known] at split
    cases before with
    | nil =>
      obtain ⟨rfl, -⟩ := List.cons.inj split
      cases known
    | cons d before => simp at split
  | some entity =>
    simp only [known] at split
    have member := entity?_eq_some_iff.1 known
    obtain ⟨tail, whole, free⟩ := exists_entity_tail member
    rw [whole] at split
    cases before with
    | nil => exact ⟨_, member, whole.trans split⟩
    | cons d before =>
      obtain ⟨-, rfl⟩ := List.cons.inj split
      simp at free

theorem exists_entity_of_ampersand {text before after : List Char}
    (split : text.flatMap escapeChar = before ++ '&' :: after) :
    ∃ entry ∈ entities, entry.2.toList <+: '&' :: after := by
  induction text generalizing before with
  | nil => simp at split
  | cons c text ih =>
    rw [List.flatMap_cons] at split
    -- The ampersand is behind what the first character is escaped to, or in it.
    rcases List.append_eq_append_iff.1 split with ⟨front, -, later⟩ | ⟨behind, here, rest⟩
    · exact ih later
    · cases behind with
      | nil => exact @ih [] rest.symm
      | cons d behind =>
        obtain ⟨rfl, -⟩ := List.cons.inj rest
        obtain ⟨entry, member, same⟩ := entity_of_escapeChar here
        refine ⟨entry, member, ?_⟩
        rw [rest, ← same]
        exact List.prefix_append _ _

theorem escapeHtml_reversible :
    (∀ text, (∀ c ∈ markup, c ∉ (escapeHtml text).toList) ∧
      (∀ before after, (escapeHtml text).toList = before ++ '&' :: after →
        ∃ entry ∈ entities, entry.2.toList <+: '&' :: after) ∧
      unescapeHtml (escapeHtml text) = text) ∧
    Function.Injective escapeHtml := by
  refine ⟨fun text => ⟨fun c isMarkup => not_mem_escapeHtml isMarkup text, ?_,
    unescapeHtml_escapeHtml text⟩, Function.LeftInverse.injective unescapeHtml_escapeHtml⟩
  intro before after split
  rw [escapeHtml, String.toList_ofList] at split
  exact exists_entity_of_ampersand split

end Unescaping

end Mustache

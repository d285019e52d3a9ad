import Mustache.Proofs.Remembering

set_option autoImplicit false

namespace Mustache

def Listed (name : String) (items : List Value) (value : Value) : Prop :=
  (name = "length" ∧ value = .int items.length) ∨
    ∃ index, decimalNumber? name.toList = some index ∧ items[index]? = some value

def ShortNumber (name : String) : Prop :=
  (decimalNumber? name.toList).isSome = true → name.length ≤ digitLimit

def askedFor (name : String) : List String :=
  if isPath name then segments name else [name]

namespace Value

/-- The members of keyed values: the entries of mappings, the members of sequences other than texts,
and the public attributes of all else. -/
inductive Keyed (name : String) : Value → Value → Prop where
  | entry {entries : List (Value × Value)} {value : Value} :
      valueAt? (.str name) entries = some value → Keyed name (.map entries) value
  | listed {view value : Value} {items : List Value} :
      view.items? = some items → Listed name items value → Keyed name view value
  | exposed {view value : Value} :
      view.publicAttribute? name = some value → Keyed name view value

inductive Owned (name : String) : Value → Value → Prop where
  | text {s : String} {value : Value} :
      Listed name (s.toList.map fun c => .str (String.singleton c)) value →
        Owned name (.str s) value

def Holds (name : String) (view value : Value) : Prop :=
  Keyed name view value ∨ Owned name view value

def isIndexed : Value → Bool
  | list _ | tuple _ | str _ => true
  | _ => false

/-- Names lead from a value to another, member by member. -/
inductive Reaches : List String → Value → Value → Prop where
  | here (view : Value) : Reaches [] view view
  | member {name : String} {names : List String} {view next value : Value} :
      Holds name view next → Reaches names next value → Reaches (name :: names) view value

/-- All names but the last lead to a value that is not missing, and that one holds the last. -/
def AnswersPath (names : List String) (view value : Value) : Prop :=
  ∃ front last holder, names = front ++ [last] ∧ Reaches front view holder ∧ holder ≠ .null ∧
    Holds last holder value

def AnswersWith (name : String) (view value : Value) : Prop :=
  if isPath name then AnswersPath (segments name) view value else Keyed name view value

def Responds (name : String) (view : Value) : Prop :=
  ∃ value, AnswersWith name view value

end Value

/-- The value that the first view to answer has, or none if no view answers. -/
def NearestAnswer (name : String) (views : List Value) (value : Value) : Prop :=
  (∃ inner view outer, views = inner ++ view :: outer ∧
    (∀ nearer ∈ inner, ¬ nearer.Responds name) ∧ view.AnswersWith name value) ∨
  ((∀ view ∈ views, ¬ view.Responds name) ∧ value = .null)

def Context.Finds (context : Context) (name : String) (value : Value) : Prop :=
  ∃ after, context.find name = .ok (value, after)

section Members

variable {name : String}

theorem indexBelow_of_short (short : ShortNumber name) (size : Nat) :
    indexBelow size name = .ok ((decimalNumber? name.toList).filter (· < size)) := by
  unfold indexBelow
  cases number : decimalNumber? name.toList with
  | none => rfl
  | some index =>
    have few : ¬ digitLimit < name.length := Nat.not_lt.2 (short (by rw [number]; rfl))
    by_cases below : index < size <;> simp [few, below, Option.filter]

theorem indexBelow_of_long (long : ¬ ShortNumber name) (size : Nat) :
    indexBelow size name = .error .tooManyDigits := by
  obtain ⟨isNumber, tooLong⟩ := Classical.not_imp.1 long
  obtain ⟨index, number⟩ := Option.isSome_iff_exists.1 isNumber
  rw [indexBelow, number]
  exact if_pos (Nat.not_le.1 tooLong)

theorem ne_length_of_long (long : ¬ ShortNumber name) : name ≠ "length" := by
  rintro rfl
  apply long
  intro isNumber
  exact absurd isNumber (by decide)

theorem hasMember_of_long (long : ¬ ShortNumber name) (size : Nat) :
    hasMember size name = .error .tooManyDigits := by
  rw [hasMember, if_neg (ne_length_of_long long), indexBelow_of_long long]
  rfl

theorem exists_listed (short : ShortNumber name) (items : List Value) :
    ∃ found : Option Value, (∀ value, Listed name items value ↔ found = some value) ∧
      hasMember items.length name = .ok found.isSome ∧
      Value.sequenceMember items name = .ok (found.getD .null) := by
  by_cases length : name = "length"
  · subst length
    have noNumber : decimalNumber? "length".toList = none := by decide
    refine ⟨some (.int items.length), fun value => ?_, rfl, rfl⟩
    rw [Listed, noNumber]
    simp [eq_comm]
  · refine ⟨(decimalNumber? name.toList).bind (items[·]?), fun value => ?_, ?_⟩
    · simp [Listed, length, Option.bind_eq_some_iff]
    · rw [hasMember, if_neg length, Value.sequenceMember, if_neg length, indexBelow_of_short short]
      cases decimalNumber? name.toList with
      | none => exact ⟨rfl, rfl⟩
      | some index =>
        by_cases below : index < items.length <;> simp [below, Except.map, Option.filter]

namespace Value

/-- What a value has under a name as a key and as a member of its own, never both, and what the
tests and the reading of it give. -/
structure Shows (name : String) (view : Value) (key own : Option Value) : Prop where
  keyed (value : Value) : Keyed name view value ↔ key = some value
  owned (value : Value) : Owned name view value ↔ own = some value
  hasKey : view.hasKey name = .ok key.isSome
  hasOwnMember : view.hasOwnMember name = .ok own.isSome
  member : view.member name = .ok ((key.or own).getD .null)
  apart : key = none ∨ own = none

theorem not_owned {view : Value} (noText : ∀ s, view ≠ .str s) (value : Value) :
    Owned name view value ↔ none = some value := by
  refine ⟨fun owned => ?_, fun none => by cases none⟩
  cases owned
  exact absurd rfl (noText _)

theorem shows_listed {view : Value} {items : List Value} {key : Option Value}
    (isSequence : view = .list items ∨ view = .tuple items)
    (listed : ∀ value, Listed name items value ↔ key = some value)
    (isThere : hasMember items.length name = .ok key.isSome)
    (read : sequenceMember items name = .ok (key.getD .null)) : view.Shows name key none := by
  have keyed (value : Value) : Keyed name view value ↔ key = some value := by
    rw [← listed value]
    constructor
    · intro keyed
      rcases isSequence with rfl | rfl <;> cases keyed with
      | listed isItems listed => cases isItems; exact listed
      | exposed there => simp [publicAttribute?, attribute?] at there
    · exact .listed (by rcases isSequence with rfl | rfl <;> rfl)
  rcases isSequence with rfl | rfl <;>
    exact ⟨keyed, not_owned (by simp), isThere, rfl, by rwa [Option.or_none], .inr rfl⟩

theorem exists_shows_of_unindexed {view : Value} (unindexed : view.isIndexed = false) :
    ∃ key own, view.Shows name key own := by
  cases view with
  | map entries =>
    have keyed (value : Value) : Keyed name (.map entries) value ↔
        valueAt? (.str name) entries = some value := by
      refine ⟨fun keyed => ?_, .entry⟩
      cases keyed with
      | entry there => exact there
      | listed isItems => cases isItems
      | exposed there => simp [publicAttribute?, attribute?] at there
    exact ⟨_, none, keyed, not_owned (by simp), rfl, rfl, by simp [member], .inr rfl⟩
  | list items => cases unindexed
  | tuple items => cases unindexed
  | str s => cases unindexed
  | _ =>
    refine ⟨publicAttribute? name _, none, fun value => ⟨fun keyed => ?_, .exposed⟩,
      not_owned (by simp), rfl, rfl, by rw [Option.or_none]; rfl, .inr rfl⟩
    cases keyed with
    | listed isItems => cases isItems
    | exposed there => exact there

theorem exists_shows (short : ShortNumber name) (view : Value) :
    ∃ key own, view.Shows name key own := by
  cases view with
  | list items =>
    obtain ⟨found, listed, isThere, read⟩ := exists_listed short items
    exact ⟨found, none, shows_listed (.inl rfl) listed isThere read⟩
  | tuple items =>
    obtain ⟨found, listed, isThere, read⟩ := exists_listed short items
    exact ⟨found, none, shows_listed (.inr rfl) listed isThere read⟩
  | str s =>
    obtain ⟨found, listed, isThere, read⟩ :=
      exists_listed short (s.toList.map fun c => Value.str (String.singleton c))
    rw [List.length_map, String.length_toList] at isThere
    have noKey (value : Value) : ¬ Keyed name (.str s) value := by
      intro keyed
      cases keyed with
      | listed isItems => cases isItems
      | exposed there => simp [publicAttribute?, attribute?] at there
    have owned (value : Value) : Owned name (.str s) value ↔ found = some value := by
      refine ⟨fun owned => ?_, fun there => .text ((listed value).2 there)⟩
      cases owned with
      | text there => exact (listed value).1 there
    exact ⟨none, found, fun value => by simp [noKey], owned,
      by simp [hasKey, publicAttribute?, attribute?], isThere, by rwa [Option.none_or], .inl rfl⟩
  | _ => exact exists_shows_of_unindexed rfl

section Shows

variable {view value : Value} {key own : Option Value}

theorem Shows.holds (shows : view.Shows name key own) :
    Holds name view value ↔ key.or own = some value := by
  rw [Holds, shows.keyed, shows.owned]
  rcases shows.apart with rfl | rfl <;> simp

theorem ne_null_of_holds (holds : Holds name view value) : view ≠ .null := by
  rintro rfl
  rcases holds with keyed | owned
  · cases keyed with
    | listed isItems => cases isItems
    | exposed there => simp [publicAttribute?, attribute?] at there
  · cases owned

end Shows

section Paths

variable {names : List String} {view value : Value}

theorem answersPath_singleton {last : String} :
    AnswersPath [last] view value ↔ Holds last view value := by
  constructor
  · rintro ⟨front, found, holder, split, reaches, -, holds⟩
    cases front with
    | nil =>
      cases reaches
      rwa [List.singleton_inj.1 split]
    | cons first rest => simp at split
  · exact fun holds => ⟨[], last, view, rfl, .here view, ne_null_of_holds holds, holds⟩

theorem answersPath_cons (more : names ≠ []) :
    AnswersPath (name :: names) view value ↔
      ∃ next, Holds name view next ∧ AnswersPath names next value := by
  constructor
  · rintro ⟨front, last, holder, split, reaches, present, holds⟩
    cases reaches with
    | here =>
      obtain ⟨-, rfl⟩ := List.cons.inj split
      exact absurd rfl more
    | member first later =>
      obtain ⟨rfl, rfl⟩ := List.cons.inj split
      exact ⟨_, first, _, last, holder, rfl, later, present, holds⟩
  · rintro ⟨next, first, front, last, holder, rfl, later, present, holds⟩
    exact ⟨name :: front, last, holder, rfl, .member first later, present, holds⟩

theorem not_answersPath_null : ¬ AnswersPath names .null value := by
  rintro ⟨front, last, holder, -, reaches, present, -⟩
  cases reaches with
  | here => exact present rfl
  | member first _ => exact ne_null_of_holds first rfl

theorem descend_null (names : List String) : descend .null names = .ok none := by
  cases names with
  | nil => rfl
  | cons first rest => cases rest <;> rfl

theorem Shows.descend_last {key own : Option Value} (shows : view.Shows name key own) :
    view.descend [name] = .ok (key.or own) := by
  unfold descend
  split
  · cases held : key.or own with
    | none => rfl
    | some value => exact absurd rfl (ne_null_of_holds (shows.holds.2 held))
  · rw [shows.hasKey, shows.hasOwnMember, shows.member]
    rcases shows.apart with rfl | rfl
    · cases own <;> rfl
    · cases key <;> rfl

theorem Shows.descend_onward {key own : Option Value} (shows : view.Shows name key own)
    (more : names ≠ []) :
    view.descend (name :: names) = ((key.or own).getD .null).descend names := by
  cases names with
  | nil => contradiction
  | cons next others =>
    conv => lhs; unfold descend
    split
    · cases held : key.or own with
      | none => exact (descend_null _).symm
      | some value => exact absurd rfl (ne_null_of_holds (shows.holds.2 held))
    · rw [shows.member]
      rfl

theorem exists_descend (short : ∀ name ∈ names, ShortNumber name) (view : Value) :
    ∃ found, view.descend names = .ok found ∧
      ∀ value, AnswersPath names view value ↔ found = some value := by
  induction names generalizing view with
  | nil =>
    refine ⟨none, rfl, fun value => ⟨?_, fun none => by cases none⟩⟩
    rintro ⟨front, last, holder, split, -⟩
    simp at split
  | cons name rest ih =>
    rw [List.forall_mem_cons] at short
    obtain ⟨key, own, shows⟩ := exists_shows short.1 view
    by_cases more : rest = []
    · subst more
      exact ⟨key.or own, shows.descend_last, fun value => answersPath_singleton.trans shows.holds⟩
    · obtain ⟨found, walked, reached⟩ := ih short.2 ((key.or own).getD .null)
      refine ⟨found, (shows.descend_onward more).trans walked, fun value => ?_⟩
      rw [answersPath_cons more, ← reached value]
      -- Where the value holds nothing under the name, the walk goes on from a missing value.
      cases held : key.or own with
      | none => simp [shows.holds, held, not_answersPath_null]
      | some next => simp [shows.holds, held]

end Paths

theorem exists_answer (short : ∀ asked ∈ askedFor name, ShortNumber asked) (view : Value) :
    ∃ found, view.answer? name = .ok found ∧
      ∀ value, view.AnswersWith name value ↔ found = some value := by
  unfold answer? AnswersWith
  unfold askedFor at short
  by_cases path : isPath name = true
  · rw [if_pos path] at short ⊢
    simpa only [if_pos path] using exists_descend short view
  · rw [if_neg path, List.forall_mem_singleton] at short
    obtain ⟨key, own, shows⟩ := exists_shows short view
    refine ⟨key, ?_, fun value => ?_⟩
    · rw [if_neg path, shows.hasKey, shows.member]
      cases key <;> rfl
    · rw [if_neg path]
      exact shows.keyed value

theorem answers_iff (short : ∀ asked ∈ askedFor name, ShortNumber asked) {view value : Value} :
    view.AnswersWith name value ↔ view.answer? name = .ok (some value) := by
  obtain ⟨found, asked, answered⟩ := exists_answer short view
  rw [answered value, asked, Except.ok.injEq]

end Value

end Members

section Chains

variable {name : String} {view value : Value} {views : List Value}

theorem nearestAnswer_of_answers (answers : view.AnswersWith name value) (outer : List Value) :
    NearestAnswer name (view :: outer) value :=
  .inl ⟨[], view, outer, rfl, by simp, answers⟩

theorem NearestAnswer.behind (silent : ¬ view.Responds name)
    (nearest : NearestAnswer name views value) : NearestAnswer name (view :: views) value := by
  rcases nearest with ⟨inner, found, outer, rfl, nearer, answers⟩ | ⟨nobody, rfl⟩
  · exact .inl ⟨view :: inner, found, outer, rfl, List.forall_mem_cons.2 ⟨silent, nearer⟩, answers⟩
  · exact .inr ⟨List.forall_mem_cons.2 ⟨silent, nobody⟩, rfl⟩

section Short

variable (short : ∀ asked ∈ askedFor name, ShortNumber asked)

include short

theorem resolve_of_answers (answers : view.AnswersWith name value) (outer : List Value) :
    resolve name (view :: outer) = .ok value := by
  rw [resolve, (Value.answers_iff short).1 answers]
  rfl

theorem resolve_of_silent (silent : ¬ view.Responds name) (outer : List Value) :
    resolve name (view :: outer) = resolve name outer := by
  obtain ⟨found, asked, answered⟩ := Value.exists_answer short view
  cases found with
  | none =>
    rw [resolve, asked]
    rfl
  | some value => exact absurd ⟨value, (answered value).2 rfl⟩ silent

theorem exists_resolve (views : List Value) :
    ∃ value, resolve name views = .ok value ∧ NearestAnswer name views value := by
  induction views with
  | nil => exact ⟨.null, rfl, .inr ⟨by simp, rfl⟩⟩
  | cons view outer ih =>
    by_cases responds : view.Responds name
    · obtain ⟨value, answers⟩ := responds
      exact ⟨value, resolve_of_answers short answers outer, nearestAnswer_of_answers answers outer⟩
    · obtain ⟨value, resolved, nearest⟩ := ih
      exact ⟨value, (resolve_of_silent short responds outer).trans resolved,
        nearest.behind responds⟩

end Short

namespace Context

theorem finds_of_resolve {context : Context} (sound : context.Sound) (noDot : name ≠ ".")
    (resolved : resolve name context.views = .ok value) : context.Finds name value := by
  rcases find_of_sound sound name with ⟨fault, means, -⟩ | ⟨found, after, means, done, -⟩
  · rw [meaning, if_neg noDot, resolved] at means
    cases means
  · rw [meaning, if_neg noDot, resolved] at means
    cases means
    exact ⟨after, done⟩

theorem find_nearest_answer {context : Context} (sound : context.Sound) {name : String}
    (short : ∀ asked ∈ askedFor name, ShortNumber asked) :
    ∃ value after, context.find name = .ok (value, after) ∧ after.views = context.views ∧
      after.Sound ∧ (name = "." → value = context.view) ∧
      (name ≠ "." → NearestAnswer name context.views value ∧
        (∀ view, ¬ view.Responds name → (context.push view).Finds name value) ∧
        ∀ view held, view.AnswersWith name held →
          ∀ outer : Context, (outer.push view).Finds name held) := by
  obtain ⟨resolved, resolves, nearest⟩ := exists_resolve short context.views
  rcases find_of_sound sound name with ⟨fault, means, -⟩ | ⟨value, after, means, done, same, still⟩
  · unfold meaning at means
    split at means
    · cases means
    · cases resolves.symm.trans means
  · refine ⟨value, after, done, same, still, fun dot => ?_, fun noDot => ?_⟩
    · rw [meaning, if_pos dot] at means
      exact (Except.ok.inj means).symm
    · rw [meaning, if_neg noDot] at means
      obtain rfl := Except.ok.inj (resolves.symm.trans means)
      refine ⟨nearest, fun view silent => ?_, fun view held answers outer => ?_⟩
      · exact finds_of_resolve (context.sound_push view) noDot
          ((resolve_of_silent short silent context.views).trans resolves)
      · exact finds_of_resolve (outer.sound_push view) noDot
          (resolve_of_answers short answers outer.views)

/-- A segment that is missing half way does not stop the search, and a missing value that is held
does. -/
theorem find_nearest_answer_of_null :
    let held : Value := .map [(.str "a", .map [(.str "b", .null)])]
    let context := Context.ofView
      (.chain [.str "abc", held, .map [(.str "a", .map [(.str "b", .int 1)])]])
    context.Sound ∧ (∀ asked ∈ askedFor "a.b", ShortNumber asked) ∧
      NearestAnswer "a.b" context.views .null ∧
      (context.push (.map [(.str "a", .null)])).Finds "a.b" .null ∧
      ∀ outer : Context, (outer.push held).Finds "a.b" .null := by
  intro held context
  have short : ∀ asked ∈ askedFor "a.b", ShortNumber asked := by
    unfold ShortNumber
    decide
  have sound : context.Sound := Context.sound_ofView _
  obtain ⟨value, after, found, -, -, -, nearest⟩ := find_nearest_answer sound short
  have isNull : context.find "a.b" = .ok (.null, _) := rfl
  obtain ⟨rfl, -⟩ := Prod.mk.inj (Except.ok.inj (isNull.symm.trans found))
  obtain ⟨first, unchanged, hides⟩ := nearest (by decide)
  refine ⟨sound, short, first, unchanged _ ?_, hides held .null ((Value.answers_iff short).2 rfl)⟩
  rintro ⟨value, answers⟩
  cases (Value.answers_iff short).1 answers

theorem find_of_long_number (long : ¬ ShortNumber name) (noDot : '.' ∉ name.toList)
    (items : List Value) : (Context.ofView (.list items)).find name = .error .tooManyDigits := by
  have noMark : name ≠ "." := by
    rintro rfl
    exact noDot (by decide)
  have whole : ¬ isPath name = true := by
    simpa [isPath] using fun isIn => absurd isIn noDot
  have fails : resolve name [.list items] = .error .tooManyDigits := by
    rw [resolve, Value.answer?, if_neg whole, Value.hasKey, hasMember_of_long long]
    rfl
  rw [find, if_neg noMark]
  change (resolve name [.list items] >>= _) = _
  rw [fails]
  rfl

theorem isSome_readDigits?_ones (n total : Nat) :
    (readDigits? total (List.replicate n '1')).isSome = true := by
  induction n generalizing total with
  | zero => rfl
  | succ n ih => exact ih _

/-- A name with a dot in front is looked up whole, whatever dots follow, and a number that is too
long to be read fails where it could be an index. -/
theorem find_of_dot_in_front_or_long_number :
    let view := Value.map [(.str ".a.b", .bool true)]
    let long := String.ofList (List.replicate 4301 '1')
    ('.' ∈ ".a.b".toList.tail ∧ (∀ value, ¬ Value.AnswersPath (segments ".a.b") view value) ∧
      (Context.ofView view).Finds ".a.b" (.bool true)) ∧
    '.' ∉ long.toList ∧ (∀ value, ¬ Value.Keyed long (.list []) value) ∧
      (Context.ofView (.list [])).find long = .error .tooManyDigits := by
  intro view long
  have text : long.toList = List.replicate 4301 '1' := String.toList_ofList
  have noDot : '.' ∉ long.toList := by
    rw [text, List.mem_replicate]
    decide
  have tooLong : ¬ ShortNumber long := by
    refine Classical.not_imp.2 ⟨?_, ?_⟩
    · rw [text]
      exact isSome_readDigits?_ones 4301 0
    · rw [← String.length_toList, text, List.length_replicate]
      decide
  refine ⟨⟨by decide, fun value answers => ?_, ⟨_, rfl⟩⟩, noDot, fun value keyed => ?_, ?_⟩
  · have short : ∀ asked ∈ segments ".a.b", ShortNumber asked := by
      unfold ShortNumber
      decide
    obtain ⟨found, walked, reached⟩ := Value.exists_descend short view
    have nothing : view.descend (segments ".a.b") = .ok none := rfl
    cases walked.symm.trans nothing
    cases (reached value).1 answers
  · cases keyed with
    | listed isItems listed =>
      cases isItems
      rcases listed with ⟨isLength, -⟩ | ⟨index, -, there⟩
      · exact tooLong fun isNumber => absurd isNumber (by rw [isLength]; decide)
      · simp at there
    | exposed there => simp [Value.publicAttribute?, Value.attribute?] at there
  · exact find_of_long_number tooLong noDot []

end Context

end Chains

end Mustache

import Mustache.Proofs.DataInStep
import Mustache.Proofs.NestedIndentation

set_option autoImplicit false

namespace Mustache

def firstLine (text : List Char) : List Char :=
  text.takeWhile (· ≠ '\n')

/-- What a partial is put out as behind a margin and before a text on its line. -/
def partialInLine (margin : List Char) (source rest : String) : String :=
  if rest.toList.all isBlank then indented margin source
  else String.ofList margin ++ indented margin source ++ rest ++ "\n"

section Lines

variable {margin : List Char} {source rest : String}

theorem exists_cutLines (text : List Char) : ∃ later, cutLines text = firstLine text :: later := by
  induction text with
  | nil => exact ⟨[], rfl⟩
  | cons c text ih =>
    obtain ⟨later, cut⟩ := ih
    by_cases lineFeed : c = '\n'
    · subst lineFeed
      exact ⟨cutLines text, cutAt_mark '\n' text⟩
    · refine ⟨later, ?_⟩
      rw [cutLines, cutAt_cons_of_ne lineFeed cut, firstLine, firstLine,
        List.takeWhile_cons_of_pos (by simpa using lineFeed)]

theorem prefix_indented (nonempty : firstLine source.toList ≠ []) :
    margin ++ firstLine source.toList <+: (indented margin source).toList := by
  obtain ⟨later, cut⟩ := exists_cutLines source.toList
  have first : (firstLine source.toList).isEmpty = false := by simpa using nonempty
  rw [indented, String.toList_ofList, cut, indentLines, List.map_cons, first]
  exact prefix_joinLines _ _

theorem prefix_partialInLine_iff (isMargin : IsMargin margin)
    (begins : ∃ c, source.toList.head? = some c ∧ isBlank c = false) :
    margin ++ firstLine source.toList <+: (partialInLine margin source rest).toList ↔
      rest.toList.all isBlank = true ∨ margin = [] := by
  obtain ⟨c, head, visible⟩ := begins
  obtain ⟨more, whole⟩ := List.head?_eq_some_iff.1 head
  have first : firstLine source.toList = c :: firstLine more := by
    have other : c ≠ '\n' := by
      rintro rfl
      simp at visible
    rw [whole, firstLine, List.takeWhile_cons_of_pos (by simpa using other)]
    rfl
  have once := @prefix_indented margin source (by simp [first])
  unfold partialInLine
  split
  next blank => exact iff_of_true once (.inl blank)
  next kept =>
    simp only [String.toList_append, String.toList_ofList, List.append_assoc]
    constructor
    · intro begins
      rw [List.prefix_append_right_inj, first] at begins
      cases margin with
      | nil => exact .inr rfl
      | cons d margin =>
        -- Behind the margin that is kept the margin follows again, in place of the first line.
        obtain ⟨after, put⟩ := once
        rw [← put, List.cons_append, List.cons_append, List.cons_append] at begins
        obtain ⟨rfl, -⟩ := List.cons_prefix_cons.1 begins
        rw [isMargin.isBlank c List.mem_cons_self] at visible
        contradiction
    · rintro (blank | rfl)
      · exact absurd blank kept
      · simp only [List.nil_append] at once ⊢
        exact once.trans (List.prefix_append _ _)

end Lines

section Rendering

open Mustache.Action (Yields)

variable {margin : List Char} {name rest : String}

theorem Job.render_around_yields {job : Job} {holds : Session → Prop} {token : Token}
    (isPartial : token.kind = .partialTag) {before behind : List Node} {front back text : String}
    {depth : Nat} (putBefore : job.renderNodes (render depth) before = pure front)
    (putBehind : job.renderNodes (render depth) behind = pure back)
    (yields : Yields holds (job.renderPartial (render depth) token) (.ok text)) :
    Yields holds (render (depth + 1) job (before ++ .leaf token :: behind))
      (.ok (front ++ (text ++ back))) := by
  rw [render, renderNodes_append, putBefore, pure_bind, renderNodes, putBehind, renderNode,
    renderLeaf, isPartial]
  exact .andThen (.andThen yields (.pure _)) (.pure _)

theorem parseTemplate_partialInLine (isMargin : IsMargin margin) (isName : IsPartialName name)
    (noTag : NoTag .standard rest.toList) (oneLine : '\n' ∉ rest.toList) :
    ∃ before behind,
      parseTemplate (String.ofList margin ++ standardPartial name ++ rest ++ "\n") .standard =
        .ok (before ++ .leaf (lineTag margin name) :: behind) ∧
      ∀ (job : Job) (inner : Job.Inner), ∃ front back,
        job.renderNodes inner before = pure front ∧ job.renderNodes inner behind = pure back ∧
        ∀ source, front ++ (indented margin source ++ back) = partialInLine margin source rest := by
  let line := partialTagLine isMargin isName noTag oneLine
  have text : String.ofList margin ++ standardPartial name ++ rest ++ "\n" =
      String.ofList line.text := by
    rw [← String.toList_inj, String.toList_ofList]
    simp [TagLine.text, line, partialTagLine, toList_standardPartial]
  have token : line.token = lineTag margin name :=
    token_partialTagLine isMargin isName noTag oneLine
  have closes : line.kind ≠ .closeTag := show Kind.partialTag ≠ .closeTag by decide
  rw [text, ← token]
  by_cases blank : rest.toList.all isBlank = true
  · refine ⟨[], [], ?_, fun job inner => ⟨"", "", rfl, rfl, fun source => ?_⟩⟩
    · exact line.parseTemplate_of_isBlank rfl closes
        ⟨rfl, isMargin.isBlank, List.all_eq_true.1 blank⟩
    · rw [String.append_empty, String.empty_append, partialInLine, if_pos blank]
  · have kept : ¬ line.IsBlank := fun isBlank => blank (List.all_eq_true.2 isBlank.2.2)
    obtain ⟨before, behind, parsed, puts⟩ := line.parseTemplate_of_not_isBlank rfl closes kept
    refine ⟨before, behind, parsed, fun job inner => ?_⟩
    obtain ⟨putBefore, putBehind⟩ := puts job inner
    refine ⟨_, _, putBefore, putBehind, fun source => ?_⟩
    rw [partialInLine, if_neg blank, ← String.toList_inj]
    simp [line, partialTagLine]

theorem Engine.exists_inPartial {engine : Engine}
    (allowed : ∀ limit, engine.maxPartialDepth = some limit → 0 < limit) (view : Value)
    (name : String) : ∃ inside, (engine.outlook view).inPartial name = .ok inside := by
  let scope : Scope := { maxPartialDepth := engine.maxPartialDepth }
  have checked : scope.check name = .ok () := by
    unfold Scope.check
    split
    next => rfl
    next limit known => exact if_pos (allowed limit known)
  refine ⟨{ engine.outlook view with scope := some (scope.child name) }, ?_⟩
  change (scope.check name >>= fun _ => _) = _
  rw [checked]
  rfl

end Rendering

theorem Engine.render_margin_once_iff {engine : Engine} {tags : Value}
    {entries : List (Value × Value)} {s : Session} {margin : List Char} {name source rest : String}
    (allowed : ∀ limit, engine.maxPartialDepth = some limit → 0 < limit)
    (paired : engine.pairFor tags = .ok .standard) (ready : engine.Ready .standard s)
    (isMargin : IsMargin margin) (isName : IsPartialName name)
    (there : Value.valueAt? (.str name) entries = some (.str source))
    (noTagInSource : NoTag .standard source.toList)
    (begins : ∃ c, source.toList.head? = some c ∧ isBlank c = false)
    (noTag : NoTag .standard rest.toList) (oneLine : '\n' ∉ rest.toList) (view : Value)
    {depth : Nat} (enough : 2 ≤ depth) :
    (engine.render depth (.str (String.ofList margin ++ standardPartial name ++ rest ++ "\n")) view
      (.map entries) tags s).1 = .ok (partialInLine margin source rest) ∧
    (margin ++ firstLine source.toList <+: (partialInLine margin source rest).toList ↔
      rest.toList.all isBlank = true ∨ margin = []) := by
  refine ⟨?_, prefix_partialInLine_iff isMargin begins⟩
  obtain ⟨before, behind, parsed, puts⟩ :=
    parseTemplate_partialInLine isMargin isName noTag oneLine
  obtain ⟨depth, rfl⟩ := Nat.exists_eq_add_of_le' enough
  obtain ⟨inside, entered⟩ := exists_inPartial allowed view name
  have found : mappedSource entries name = .ok (some source) := by
    rw [mappedSource, there]
    rfl
  have indents : Job.partialSource (lineTag margin name) source = indented margin source :=
    partialSource_of_mark isMargin rfl source
  obtain ⟨nodes, parsedInside, text⟩ :=
    parseTemplate_of_noTag (noTagInSource.indented isMargin) none
  rw [← indents] at parsedInside
  rw [@render_of_yields _ _ _ _ _ _ _ _ (fun _ => .ok (partialInLine margin source rest)) ready
    paired fun nodes parsed' => ?_, parsed]
  · rfl
  · obtain rfl := Except.ok.inj (parsed.symm.trans parsed')
    obtain ⟨front, back, putBefore, putBehind, whole⟩ :=
      puts (Job.uncached ⟨engine, .map entries, _, .standard⟩) (Job.render (depth + 1))
    rw [← whole source]
    refine Job.render_around_yields rfl putBefore putBehind ?_
    refine Job.renderPartial_yields_ok rfl found parsedInside entered ?_
    rw [Job.render, text]
    exact .pure _

theorem Engine.render_margin_once_iff_of_two_lines :
    let engine : Engine := { cache := .keepFirst 0 }
    let entries : List (Value × Value) := [(.str "p", .str "a\n\nb")]
    let s : Session := { caches := [{}] }
    IsMargin ['\t'] ∧ IsPartialName "p" ∧ NoTag .standard "a\n\nb".toList ∧
      NoTag .standard "; x".toList ∧ engine.Ready .standard s ∧
      (engine.render 2 (.str (String.ofList ['\t'] ++ standardPartial "p" ++ "; x" ++ "\n")) .null
        (.map entries) .null s).1 = .ok "\t\ta\n\n\tb; x\n" ∧
      ¬ ['\t'] ++ firstLine "a\n\nb".toList <+: "\t\ta\n\n\tb; x\n".toList := by
  intro engine entries s
  have ready : engine.Ready .standard s := .ofEmpty .standard rfl rfl (by simp [s])
  have isMargin : IsMargin ['\t'] := by simp [IsMargin]
  have isName : IsPartialName "p" := ⟨by decide, by decide, by decide⟩
  have noTagInSource : NoTag .standard "a\n\nb".toList :=
    noTag_standard_iff.2 (by simp [NoTagBetween])
  have noTag : NoTag .standard "; x".toList := noTag_standard_iff.2 (by simp [NoTagBetween])
  have allowed : ∀ limit, engine.maxPartialDepth = some limit → 0 < limit := by simp [engine]
  have put : partialInLine ['\t'] "a\n\nb" "; x" = "\t\ta\n\n\tb; x\n" := by decide
  have oneLine : '\n' ∉ "; x".toList := by decide
  have found : Value.valueAt? (.str "p") entries = some (.str "a\n\nb") := rfl
  have begins : ∃ c, "a\n\nb".toList.head? = some c ∧ isBlank c = false := ⟨'a', rfl, by decide⟩
  have paired : engine.pairFor .null = .ok .standard := rfl
  obtain ⟨rendered, once⟩ := render_margin_once_iff allowed paired ready isMargin isName found
    noTagInSource begins noTag oneLine .null (Nat.le_refl 2)
  rw [put] at rendered once
  refine ⟨isMargin, isName, noTagInSource, noTag, ready, rendered, fun begins => ?_⟩
  rcases once.1 begins with blank | empty
  · exact absurd blank (by decide)
  · cases empty

/-- Before a text on the same line, two spaces become four. -/
theorem Engine.render_margin_twice :
    (Engine.render { cache := .keepFirst 0 } 2 (.str "  {{>p}} x\n") .null
        (.map [(.str "p", .str "a")]) .null { caches := [{}] }).1.toOption = some "    a x\n" ∧
      ¬ [' ', ' '] ++ firstLine "a".toList <+: "    a x\n".toList :=
  ⟨by decide +kernel, by decide⟩

end Mustache

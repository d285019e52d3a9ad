import Mustache.Proofs.Printing
import Mustache.Render

set_option autoImplicit false

namespace Mustache

/-- A text in which no tag begins. -/
def NoTag (pair : Delimiters) (text : List Char) : Prop :=
  ¬ pair.opening <:+: text

section Streams

variable {pair : Delimiters} {text : List Char}

theorem NoTag.tail {c : Char} (noTag : NoTag pair (c :: text)) : NoTag pair text :=
  fun inside => noTag (inside.trans (List.suffix_cons c text).isInfix)

theorem readsAll_of_noTag (noTag : NoTag pair text) (offset : Nat) :
    ReadsAll ⟨pair, offset, text⟩ (textPieces offset text) ⟨pair, offset + text.length, []⟩ := by
  induction text generalizing offset with
  | nil => exact .nil _
  | cons c rest ih =>
    have plain : pair.opening.isPrefixOf (c :: rest) = false := by
      rw [← Bool.not_eq_true, List.isPrefixOf_iff_prefix]
      exact fun here => noTag here.isInfix
    have onward := ih noTag.tail (offset + 1)
    rw [Nat.add_right_comm] at onward
    exact .cons (.text plain) onward

theorem scan_of_noTag (noTag : NoTag pair text) :
    scan pair text = ⟨textPieces 0 text, .complete pair⟩ := by
  simpa [Reader.scan, scan, scanFrom, Scan.prependAll] using (readsAll_of_noTag noTag 0).scan

theorem stripLine_of_noTag {line : List Token} (noTag : ∀ token ∈ line, token.kind = .text) :
    stripLine line = line := by
  have tagless : line.any Token.isTag = false := by
    rw [List.any_eq_false]
    intro token member
    simp [Token.isTag, noTag token member]
  simp [stripLine, standsAlone, tagless]

theorem settle_textPieces (text : List Char) :
    settle {} (textPieces 0 text) = rawTokens (textPieces 0 text) := by
  have lines : ∀ line ∈ cutAfterLines (rawTokens (textPieces 0 text)), stripLine line = line := by
    intro line member
    apply stripLine_of_noTag
    intro token inLine
    apply (rawFrom_textPieces text [] 0).1
    rw [← rawTokens, ← flatten_cutAfterLines (rawTokens _)]
    exact List.mem_flatten_of_mem member inLine
  rw [settle_eq_stripped_lines (proper_textPieces 0 text), List.flatMap_def,
    List.map_congr_left lines, List.map_id', flatten_cutAfterLines]

end Streams

theorem exists_nests_textPieces (line : List Piece) (start : Nat) (text : List Char) :
    ∃ nodes, Nests (squash (rawFrom line (textPieces start text))) nodes ∧
      ∀ (job : Job) (inner : Job.Inner),
        job.renderNodes inner nodes = pure (String.ofList text) := by
  by_cases empty : text = []
  · subst empty
    exact ⟨[], .nil, fun _ _ => rfl⟩
  · obtain ⟨token, squashed, isText, value⟩ := @squash_textPieces _ empty line [] (by simp) start
    rw [List.append_nil] at squashed
    refine ⟨[.leaf token], ?_, fun job inner => ?_⟩
    · rw [squashed]
      exact .leaf (by rw [isText]; rfl) (by rw [isText]; decide) .nil
    · simp [Job.renderNodes, Job.renderNode, Job.renderLeaf, isText, value]

theorem parseTemplate_of_noTag {source : String} {pair : Delimiters}
    (noTag : NoTag pair source.toList) (name : Option String) :
    ∃ nodes, parseTemplate source pair name = .ok nodes ∧
      ∀ (job : Job) (inner : Job.Inner), job.renderNodes inner nodes = pure source := by
  obtain ⟨nodes, nests, text⟩ := exists_nests_textPieces [] 0 source.toList
  rw [String.ofList_toList] at text
  refine ⟨nodes, parseTemplate_eq_ok_iff_nests.2 ?_, text⟩
  rw [scan_of_noTag noTag, settle_textPieces]
  exact ⟨⟨pair, rfl⟩, nests⟩

end Mustache

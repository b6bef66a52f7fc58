import SchemaDiagram.Proofs.PrintedBlock

namespace SchemaDiagram

open Text

/-- A row of a block: one line, which the scanner enters and leaves in code. -/
structure IsRow (row : Text) : Prop where
  oneLine : ∃ u, row = u ++ ['\n'] ∧ '\n' ∉ u
  tidy : Tidy row

theorem isRow_of_commentFree {u : Text} (free : CommentFree .outside u) (inLine : '\n' ∉ u) :
    IsRow (u ++ ['\n']) := ⟨⟨u, rfl, inLine⟩, (scan_row free inLine).2⟩

theorem lines_append_newline {u : Text} (inLine : '\n' ∉ u) (t : Text) :
    lines (u ++ '\n' :: t) = (u ++ ['\n']) :: lines t := by
  induction u with
  | nil => rfl
  | cons c u ih =>
    obtain ⟨other, later⟩ := not_or.mp (mt List.mem_cons.mpr inLine)
    rw [List.cons_append, lines, if_neg (Ne.symm other), ih later]
    rfl

/-- Blanking characters of a line leaves one line. -/
theorem showOnly_oneLine (keep : Role → Bool) (state : ScanState) (lineBlank : Bool) {u : Text}
    (inLine : '\n' ∉ u) :
    ∃ v, (scanFrom state lineBlank (u ++ ['\n'])).flatMap (showOnly keep) = v ++ ['\n'] ∧ '\n' ∉ v := by
  induction u generalizing state lineBlank with
  | nil => exact ⟨[], by simp [scanFrom_cons, scanFrom], by simp⟩
  | cons c u ih =>
    obtain ⟨other, later⟩ := not_or.mp (mt List.mem_cons.mpr inLine)
    obtain ⟨v, shown, oneLine⟩ :=
      ih (state.step lineBlank c (u ++ ['\n'])).2 (lineBlankAfter lineBlank c) later
    rw [List.cons_append, scanFrom_cons, List.flatMap_cons, shown]
    refine ⟨_, (List.append_assoc ..).symm, ?_⟩
    intro member
    rcases List.mem_append.mp member with here | member
    · unfold showOnly at here
      split at here
      · exact other (List.mem_singleton.mp here)
      · exact absurd (List.eq_of_mem_replicate here) (by decide)
    · exact oneLine member

theorem IsRow.strip {row : Text} (isRow : IsRow row) : ∃ v, strip row = v ++ ['\n'] ∧ '\n' ∉ v := by
  obtain ⟨u, rfl, inLine⟩ := isRow.oneLine
  exact showOnly_oneLine _ _ _ inLine

/-- The body of a printed block has a line for each row, behind the empty one of the opening brace. -/
theorem bodyLines_rows {rows : List Text} (isRow : ∀ row ∈ rows, IsRow row) :
    bodyLines ('\n' :: strip rows.flatten) = [] :: rows.map fun row => trim (strip row) := by
  have first : lines ('\n' :: strip rows.flatten) = ['\n'] :: lines (strip rows.flatten) := rfl
  rw [bodyLines, first, List.map_cons, strip_flatten fun row member => (isRow row member).tidy]
  congr 1
  clear first
  induction rows with
  | nil => rfl
  | cons row rows ih =>
    obtain ⟨v, shown, oneLine⟩ := (isRow row List.mem_cons_self).strip
    have more := ih (fun row' member => isRow row' (List.mem_cons_of_mem _ member))
    rw [List.map_cons, List.flatten_cons, shown, List.append_assoc, List.singleton_append,
      lines_append_newline oneLine, List.map_cons, more, List.map_cons, shown]

end SchemaDiagram

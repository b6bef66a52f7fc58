import SchemaDiagram.Proofs.Cuts

namespace SchemaDiagram

open Text

section

variable {t model : Text} {start close : Nat}

/-- The body of a model is a part of the text. -/
theorem modelBody_bounds (found : modelBody? t model = some (start, close)) :
    IsBoundary t start ∧ IsBoundary t close ∧ start ≤ close := by
  obtain ⟨d, declared, closed, rfl⟩ := modelBody?_eq_some_iff.mp found
  have inText := Declaration.liesIn (List.mem_of_find?_eq_some declared)
  have opens := (hasAt_of_mask (by decide) inText.opens).isBoundary_next
  have stop := (inText.closed close closed).1
  have behind := inText.brace_lt_stop
  exact ⟨opens, inText.boundaries.2.2.2 close closed, by omega⟩

/-- The body of a model at its place in the blanked text. -/
theorem maskedBody_split (found : modelBody? t model = some (start, close)) :
    ∃ front back, mask t = front ++ slice start close (mask t) ++ back ∧ byteSize front = start ∧
      start + byteSize (slice start close (mask t)) = close := by
  obtain ⟨atStart, atClose, inOrder⟩ := modelBody_bounds found
  exact split_of_isBoundary atStart.mask atClose.mask inOrder

/-- The fields of a model end between two characters. -/
theorem contentEnd_bounds (found : modelBody? t model = some (start, close)) :
    IsBoundary t (start + byteSize (trimEnd (slice start close (mask t)))) ∧
      start + byteSize (trimEnd (slice start close (mask t))) ≤ close := by
  obtain ⟨front, back, whole, rfl, size⟩ := maskedBody_split found
  obtain ⟨ends, body, -⟩ := dropEndWhile_split isBlank (slice (byteSize front) close (mask t))
  have stops := stops_dropEndWhile isBlank (slice (byteSize front) close (mask t))
  change slice _ close (mask t) = trimEnd (slice _ close (mask t)) ++ ends at body
  change Stops isBlank (trimEnd (slice _ close (mask t))).reverse at stops
  generalize trimEnd (slice (byteSize front) close (mask t)) = content at body stops ⊢
  rw [body] at whole size
  rw [byteSize_append] at size
  refine ⟨?_, by omega⟩
  rcases List.eq_nil_or_concat content with rfl | ⟨content, c, rfl⟩
  · exact (modelBody_bounds found).1
  · have visible : isBlank c = false := stops c (by simp)
    have masked : HasAt (mask t) (byteSize (front ++ content)) c :=
      ⟨front ++ content, ends ++ back, by simpa using whole, rfl⟩
    have next := (hasAt_of_mask (by rintro rfl; cases visible) masked).isBoundary_next
    simpa [Nat.add_assoc] using next

/-- All lines but the last end with a newline. -/
theorem ends_of_lines {earlier later : List Text} {line : Text} (split : lines t = earlier ++ line :: later)
    (more : later ≠ []) : ∃ r, line = r ++ ['\n'] := by
  induction t using rows_induction generalizing earlier with
  | oneRow r inLine =>
    have single : (lines r).length ≤ 1 := by
      rcases lines_oneLine inLine with none | one
      · simp [none]
      · simp [one]
    have positive := List.length_pos_of_ne_nil more
    simp only [split, List.length_append, List.length_cons] at single
    omega
  | moreRows r t inLine ih =>
    rw [lines_append_newline inLine] at split
    rcases earlier with _ | ⟨first, earlier⟩
    · exact ⟨r, (List.cons_eq_cons.mp split).1.symm⟩
    · exact ih (List.cons_eq_cons.mp split).2

/-- The line that is found is the first one that declares the field. -/
theorem fieldLineFrom_eq_some {field : Text} {offset stop : Nat} {ls : List Text}
    (found : fieldLineFrom field offset ls = some (start, stop)) :
    ∃ earlier line later, ls = earlier ++ line :: later ∧ (∀ l ∈ earlier, ¬declares field l) ∧ declares field line ∧
      start = offset + byteSize earlier.flatten ∧ stop = start + byteSize (dropEndWhile isLineEnd line) := by
  induction ls generalizing offset with
  | nil => cases found
  | cons line ls ih =>
    rw [fieldLineFrom] at found
    split at found
    · rename_i declared
      obtain ⟨rfl, rfl⟩ : offset = start ∧ offset + byteSize (dropEndWhile isLineEnd line) = stop := by
        simpa using found
      exact ⟨[], line, ls, rfl, List.forall_mem_nil _, declared, rfl, rfl⟩
    · rename_i other
      obtain ⟨earlier, line', later, rfl, others, declared, first, last⟩ := ih found
      exact ⟨line :: earlier, line', later, rfl, List.forall_mem_cons.mpr ⟨other, others⟩, declared,
        by simp [first, Nat.add_assoc], last⟩

theorem fieldLine?_eq_some {field : Text} {stop : Nat} (found : fieldLine? t model field = some (start, stop)) :
    ∃ first close, modelBody? t model = some (first, close) ∧
      fieldLineFrom field first (lines (slice first close (mask t))) = some (start, stop) := by
  obtain ⟨⟨first, close⟩, body, looked⟩ := Option.bind_eq_some_iff.mp found
  exact ⟨first, close, body, looked⟩

/-- The line of a field is a part of the text. -/
theorem fieldLine_bounds {field : Text} {stop : Nat} (found : fieldLine? t model field = some (start, stop)) :
    IsBoundary t start ∧ IsBoundary t stop ∧ start ≤ stop := by
  obtain ⟨first, close, body, looked⟩ := fieldLine?_eq_some found
  obtain ⟨front, back, whole, rfl, size⟩ := maskedBody_split body
  obtain ⟨earlier, line, later, split, -, -, rfl, rfl⟩ := fieldLineFrom_eq_some looked
  obtain ⟨ends, lineSplit, lineEnds⟩ := dropEndWhile_split isLineEnd line
  have parts := flatten_lines (slice (byteSize front) close (mask t))
  rw [split, List.flatten_append, List.flatten_cons] at parts
  rw [← parts] at whole size
  refine ⟨?_, ?_, Nat.le_add_right _ _⟩
  · rcases List.eq_nil_or_concat earlier with rfl | ⟨earlier, last, rfl⟩
    · exact (modelBody_bounds body).1
    · have before : lines (slice (byteSize front) close (mask t)) = earlier ++ last :: line :: later := by
        simpa using split
      obtain ⟨r, rfl⟩ := ends_of_lines before (by simp)
      have newline : HasAt (mask t) (byteSize (front ++ earlier.flatten ++ r)) '\n' :=
        ⟨front ++ earlier.flatten ++ r, line ++ later.flatten ++ back, by simpa using whole, rfl⟩
      have next := (hasAt_of_mask (by decide) newline).isBoundary_next
      simpa [Nat.add_assoc] using next
  · rcases ends with _ | ⟨c, ends⟩
    · obtain rfl : later = [] := by
        by_contra more
        obtain ⟨r, rfl⟩ := ends_of_lines split more
        have stops := stops_dropEndWhile isLineEnd (r ++ ['\n'])
        rw [List.append_nil] at lineSplit
        rw [← lineSplit] at stops
        have newline := stops '\n' (by simp)
        simp [isLineEnd] at newline
      rw [List.append_nil] at lineSplit
      rw [← lineSplit]
      simp only [List.flatten_nil, List.append_nil, byteSize_append] at size
      rw [Nat.add_assoc, size]
      exact (modelBody_bounds body).2.1
    · have ended := lineEnds c List.mem_cons_self
      have masked : HasAt (mask t) (byteSize (front ++ earlier.flatten ++ dropEndWhile isLineEnd line)) c := by
        refine ⟨_, ends ++ later.flatten ++ back, ?_, rfl⟩
        rw [whole]
        conv => lhs; rw [lineSplit]
        simp
      have at' := (hasAt_of_mask (by rintro rfl; cases ended) masked).isBoundary
      simpa [Nat.add_assoc] using at'

end

end SchemaDiagram

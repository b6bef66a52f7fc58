import SchemaDiagram.Proofs.BodyRows
import SchemaDiagram.Proofs.StrippedLines

namespace SchemaDiagram

open Text

theorem lines_oneLine {t : Text} (inLine : '\n' ∉ t) : lines t = [] ∨ lines t = [t] := by
  induction t with
  | nil => exact Or.inl rfl
  | cons c t ih =>
    obtain ⟨other, later⟩ := not_or.mp (mt List.mem_cons.mpr inLine)
    right
    rw [lines, if_neg (Ne.symm other)]
    rcases ih later with none | one
    · have empty := flatten_lines t
      rw [none, List.flatten_nil] at empty
      rw [none, ← empty]
    · rw [one]

/-- A line of an uncommented text is uncommented too, and has its newline at the end if anywhere. -/
theorem Uncommented.mem_lines {t after line : Text} {lineBlank : Bool}
    (free : Uncommented .code lineBlank (t ++ after)) (member : line ∈ lines t) :
    (∃ lineBlank' after', Uncommented .code lineBlank' (line ++ after')) ∧
      ∃ u, '\n' ∉ u ∧ (line = u ∨ line = u ++ ['\n']) := by
  induction size : t.length using Nat.strong_induction_on generalizing t lineBlank with
  | _ n ih =>
    by_cases newline : '\n' ∈ t
    · obtain ⟨u, rest, rfl, inLine⟩ := List.eq_append_cons_of_mem newline
      rw [lines_append_newline inLine] at member
      rcases List.mem_cons.mp member with rfl | later
      · exact ⟨⟨lineBlank, rest ++ after, by simpa using free⟩, u, inLine, Or.inr rfl⟩
      · rw [List.append_assoc, List.cons_append] at free
        exact ih rest.length (by simp at size; omega) free.nextLine later rfl
    · rcases lines_oneLine newline with none | one
      · rw [none] at member
        cases member
      · rw [one] at member
        rw [List.mem_singleton.mp member]
        exact ⟨⟨lineBlank, after, free⟩, t, newline, Or.inl rfl⟩

theorem trim_split (t : Text) : ∃ front back, t = front ++ trim t ++ back ∧ ∀ c ∈ front, isBlank c := by
  obtain ⟨back, whole⟩ := dropEndWhile_isPrefix isBlank (t.dropWhile isBlank)
  refine ⟨t.takeWhile isBlank, back, ?_, fun _ => List.mem_takeWhile_imp⟩
  rw [List.append_assoc, show trim t ++ back = t.dropWhile isBlank from whole,
    List.takeWhile_append_dropWhile]

theorem byteSize_trim_le (t : Text) : byteSize (trim t) ≤ byteSize t := by
  obtain ⟨front, back, whole, -⟩ := trim_split t
  have size := congrArg byteSize whole
  rw [byteSize_append, byteSize_append] at size
  omega

/-- If nothing is lost, there was nothing to trim. -/
theorem trim_eq_self_of_byteSize {t : Text} (large : byteSize t ≤ byteSize (trim t)) : trim t = t := by
  obtain ⟨front, back, whole, -⟩ := trim_split t
  have size := congrArg byteSize whole
  rw [byteSize_append, byteSize_append] at size
  have noFront : front = [] := eq_nil_of_byteSize (by omega)
  have noBack : back = [] := eq_nil_of_byteSize (by omega)
  rw [noFront, noBack, List.nil_append, List.append_nil] at whole
  exact whole.symm

theorem stops_trim (t : Text) : Stops isBlank (trim t) := by
  intro c head
  obtain ⟨rest, whole⟩ := dropEndWhile_isPrefix isBlank (t.dropWhile isBlank)
  obtain ⟨more, atHead⟩ := List.head?_eq_some_iff.mp head
  refine stops_dropWhile isBlank t c ?_
  rw [← whole, show dropEndWhile isBlank (t.dropWhile isBlank) = trim t from rfl, atHead]
  rfl

/-- What a reader of a body sees of a line: no white space around it, no newline and no comment. -/
theorem Uncommented.mem_bodyLines {body after line : Text} {lineBlank : Bool}
    (free : Uncommented .code lineBlank (body ++ after)) (member : line ∈ bodyLines body) :
    '\n' ∉ line ∧ Stops isBlank line ∧
      ∃ lineBlank' after', Uncommented .code lineBlank' (line ++ after') := by
  obtain ⟨raw, inBody, rfl⟩ := List.mem_map.mp member
  obtain ⟨⟨lineBlank', after', freeRaw⟩, u, inLine, form⟩ := free.mem_lines inBody
  refine ⟨?_, stops_trim raw, ?_⟩
  · have same : trim raw = trim u := by
      rcases form with rfl | rfl
      · rfl
      · exact trim_append (List.forall_mem_nil _) u (by decide)
    obtain ⟨front, back, whole, -⟩ := trim_split u
    rw [same]
    intro newline
    exact inLine (by rw [whole]; simp [newline])
  · obtain ⟨front, back, whole, blanks⟩ := trim_split raw
    rw [whole, List.append_assoc, List.append_assoc] at freeRaw
    obtain ⟨blank, later⟩ := freeRaw.dropBlanks blanks
    exact ⟨blank, back ++ after', later⟩

end SchemaDiagram

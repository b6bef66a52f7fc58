import SchemaDiagram.Proofs.AppendedDeclaration
import SchemaDiagram.Proofs.ScanBlanks

namespace SchemaDiagram

open Text

namespace Text

theorem byteSize_takeBytes_le (n : Nat) (t : Text) : byteSize (takeBytes n t) ≤ n := by
  induction t generalizing n with
  | nil => exact Nat.zero_le n
  | cons c t ih =>
    rw [takeBytes]
    split
    · have later := ih (n - c.utf8Size)
      rw [byteSize_cons]
      omega
    · exact Nat.zero_le n

theorem takeBytes_append (a b : Text) (n : Nat) : takeBytes (byteSize a + n) (a ++ b) = a ++ takeBytes n b := by
  induction a with
  | nil => rw [byteSize_nil, Nat.zero_add, List.nil_append, List.nil_append]
  | cons c a ih =>
    rw [List.cons_append, byteSize_cons, Nat.add_assoc, takeBytes, if_pos (Nat.le_add_right _ _),
      Nat.add_sub_cancel_left, ih, List.cons_append]

section

variable {a : Text} {n : Nat} (within : n ≤ byteSize a) (b : Text)

include within

theorem takeBytes_append_of_le : takeBytes n (a ++ b) = takeBytes n a := by
  induction a generalizing n with
  | nil =>
    obtain rfl := Nat.le_zero.mp within
    rw [takeBytes_zero, takeBytes_zero]
  | cons c a ih =>
    rw [byteSize_cons] at within
    rw [List.cons_append, takeBytes, takeBytes, ih (by omega)]

theorem dropBytes_append_of_le : dropBytes n (a ++ b) = dropBytes n a ++ b := by
  induction a generalizing n with
  | nil =>
    obtain rfl := Nat.le_zero.mp within
    exact dropBytes_zero b
  | cons c a ih =>
    rw [byteSize_cons] at within
    rw [List.cons_append, dropBytes, dropBytes, ih (by omega)]
    split <;> rfl

end

/-- A part of a text is a part of it also where the text goes on. -/
theorem slice_append_of_le {a : Text} {start stop : Nat} (within : stop ≤ byteSize a) (b : Text) :
    slice start stop (a ++ b) = slice start stop a := by
  rw [slice, slice]
  rcases Nat.le_total stop start with empty | inOrder
  · rw [Nat.sub_eq_zero_of_le empty, takeBytes_zero, takeBytes_zero]
  · have parts := congrArg byteSize (takeBytes_append_dropBytes start a)
    have front := byteSize_takeBytes_le start a
    rw [byteSize_append] at parts
    rw [dropBytes_append_of_le (by omega), takeBytes_append_of_le (by omega)]

end Text

section

variable {gap : Text} (blank : ∀ c ∈ gap, isBlank c)

include blank

theorem endsBlock_append_blanks {t : Text} : EndsBlock (t ++ gap) ↔ EndsBlock t := by
  rw [endsBlock_iff, endsBlock_iff, trimEnd, trimEnd, dropEndWhile_append_of_forall t blank]

/-- With white space at its end a text declares what it does without. Only a declaration that is not closed goes
on to the new end. -/
theorem outline_append_blanks (t : Text) :
    outline (t ++ gap) = (outline t).map (·.extend (byteSize t) (byteSize (t ++ gap))) := by
  obtain ⟨back, masked, white, size⟩ := mask_append_blanks blank t
  have noBrace : StaysOpen '{' '}' 1 back :=
    staysOpen_of_not_mem Nat.one_pos fun inside => absurd (white _ inside) (by decide)
  have ends : ∀ d ∈ declarationsFrom (mask t) 0 (headers (mask t)), blockEnd (mask t ++ back) d.brace = d.close := by
    intro d member
    obtain ⟨earlier, h, later, split, rfl⟩ := mem_declarationsFrom member
    have found : h ∈ headers (mask t) := by rw [split]; simp
    obtain ⟨front, inner, whole, atBrace⟩ := brace_of_mem_headers found
    have same := blockEnd_append noBrace whole
    rwa [← atBrace] at same
  have starts : ∀ h ∈ headers (mask t), h.start < byteSize (mask t) := by
    intro h member
    obtain ⟨-, below, inText⟩ := Header.start_lt_brace member
    omega
  have extended := declarationsFrom_append starts ends (fun _ _ => List.forall_mem_nil _) (List.forall_mem_nil _)
  have total : byteSize (mask t ++ back) = byteSize (t ++ gap) := by
    rw [byteSize_append, byteSize_append, byteSize_mask, size]
  rw [List.append_nil, declarationsFrom, List.append_nil, byteSize_mask] at extended
  rw [outline, masked, headers_append_blanks white, extended, ← total]
  rfl

theorem closed_append_blanks {t : Text} :
    (∀ d ∈ outline (t ++ gap), d.close.isSome) ↔ ∀ d ∈ outline t, d.close.isSome := by
  rw [outline_append_blanks blank, List.forall_mem_map]
  exact Iff.rfl

/-- Where all declarations are closed, white space at the end of a text changes nothing of what is read. -/
theorem read_append_blanks {t : Text} (closed : ∀ d ∈ outline t, d.close.isSome) :
    outline (t ++ gap) = outline t ∧ sections (t ++ gap) = sections t := by
  have same : outline (t ++ gap) = outline t := by
    rw [outline_append_blanks blank]
    exact (List.map_congr_left fun d member => Declaration.extend_eq_self (closed d member) _ _).trans (List.map_id _)
  refine ⟨same, ?_⟩
  obtain ⟨back, bare, -⟩ := strip_append_blanks blank t
  rw [sections, same, sections]
  refine List.map_congr_left fun d member => ?_
  have within : d.stop ≤ byteSize (strip t) := by
    rw [byteSize_strip]
    exact (Declaration.liesIn member).stop_le_size
  rw [Declaration.body, bare, slice_append_of_le within]
  rfl

end

end SchemaDiagram

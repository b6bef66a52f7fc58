import SchemaDiagram.Proofs.ModelRows

namespace SchemaDiagram

open Text

theorem ok_bind {α β : Type} (a : α) (f : α → Except Error β) : (Except.ok a >>= f) = f a := rfl

namespace Text

theorem isBoundary_iff {t : Text} {n : Nat} : IsBoundary t n ↔ byteSize (takeBytes n t) = n := by
  constructor
  · rintro ⟨before, after, rfl, rfl⟩
    rw [takeBytes_byteSize_append]
  · exact fun size => ⟨takeBytes n t, dropBytes n t, (takeBytes_append_dropBytes n t).symm, size⟩

instance (t : Text) (n : Nat) : Decidable (IsBoundary t n) := decidable_of_iff _ isBoundary_iff.symm

/-- The part between two offsets. There is none if they are out of order, or if one of them is out of range
or inside of a character. -/
def cut (start stop : Nat) (t : Text) : Except Error Text :=
  if IsBoundary t start ∧ IsBoundary t stop ∧ start ≤ stop then .ok (slice start stop t)
  else .error .brokenCharacter

section

variable {t : Text} {start stop : Nat}

theorem IsBoundary.le_byteSize {n : Nat} (boundary : IsBoundary t n) : n ≤ byteSize t := by
  obtain ⟨before, after, rfl, rfl⟩ := boundary
  rw [byteSize_append]
  omega

theorem isBoundary_zero (t : Text) : IsBoundary t 0 := ⟨[], t, rfl, rfl⟩

theorem cut_eq (atStart : IsBoundary t start) (atStop : IsBoundary t stop) (inOrder : start ≤ stop) :
    cut start stop t = .ok (slice start stop t) := if_pos ⟨atStart, atStop, inOrder⟩

theorem cut_front (atStop : IsBoundary t stop) : cut 0 stop t = .ok (takeBytes stop t) := by
  rw [cut_eq (isBoundary_zero t) atStop (Nat.zero_le stop), slice, dropBytes_zero, Nat.sub_zero]

theorem takeBytes_byteSize (t : Text) : takeBytes (byteSize t) t = t := by
  have whole := takeBytes_byteSize_append t []
  rwa [List.append_nil] at whole

theorem cut_back (atStart : IsBoundary t start) : cut start (byteSize t) t = .ok (dropBytes start t) := by
  rw [cut_eq atStart (isBoundary_byteSize t) atStart.le_byteSize]
  obtain ⟨before, after, rfl, rfl⟩ := atStart
  rw [slice, dropBytes_byteSize_append, byteSize_append, Nat.add_sub_cancel_left, takeBytes_byteSize]

/-- A part between two others is cut out where it stands. -/
theorem cut_append (a b c : Text) : cut (byteSize a) (byteSize a + byteSize b) (a ++ b ++ c) = .ok b := by
  have atStart : IsBoundary (a ++ b ++ c) (byteSize a) := ⟨a, b ++ c, List.append_assoc a b c, rfl⟩
  have atStop : IsBoundary (a ++ b ++ c) (byteSize a + byteSize b) := ⟨a ++ b, c, rfl, byteSize_append a b⟩
  rw [cut_eq atStart atStop (Nat.le_add_right _ _), slice_append]

/-- A part of a text, if there is one between two offsets. -/
def part? (start stop : Nat) (t : Text) : Option Text := (cut start stop t).toOption

theorem part?_append (a b c : Text) : part? (byteSize a) (byteSize a + byteSize b) (a ++ b ++ c) = some b := by
  rw [part?, cut_append]
  rfl

theorem part?_back (a b : Text) : part? (byteSize a) (byteSize (a ++ b)) (a ++ b) = some b := by
  have part := part?_append a b []
  rwa [List.append_nil, ← byteSize_append] at part

theorem part?_front (a b : Text) : part? 0 (byteSize a) (a ++ b) = some a := by
  have part := part?_append [] a b
  rwa [byteSize_nil, Nat.zero_add] at part

/-- Two boundaries in order split a text into three. -/
theorem split_of_isBoundary (atStart : IsBoundary t start) (atStop : IsBoundary t stop) (inOrder : start ≤ stop) :
    ∃ front back, t = front ++ slice start stop t ++ back ∧ byteSize front = start ∧
      start + byteSize (slice start stop t) = stop := by
  obtain ⟨front, rest, rfl, rfl⟩ := atStart
  have size := isBoundary_iff.mp atStop
  rw [slice, dropBytes_byteSize_append]
  have taken : takeBytes stop (front ++ rest) = front ++ takeBytes (stop - byteSize front) rest := by
    obtain ⟨more, rfl⟩ := Nat.exists_eq_add_of_le inOrder
    rw [Nat.add_sub_cancel_left]
    clear size inOrder atStop
    induction front with
    | nil => simp
    | cons c front ih =>
      rw [List.cons_append, takeBytes, if_pos (by rw [byteSize_cons]; omega), byteSize_cons, Nat.add_assoc,
        Nat.add_sub_cancel_left, ih, List.cons_append]
  refine ⟨front, dropBytes (stop - byteSize front) rest, ?_, rfl, ?_⟩
  · rw [List.append_assoc, takeBytes_append_dropBytes]
  · rw [taken, byteSize_append] at size
    exact size

theorem HasAt.isBoundary_next {n : Nat} {c : Char} (at' : HasAt t n c) : IsBoundary t (n + c.utf8Size) := by
  obtain ⟨before, after, rfl, rfl⟩ := at'
  exact ⟨before ++ [c], after, by simp, by simp⟩

end

end Text

/-- Blanking a text leaves its characters where they are. -/
theorem Text.IsBoundary.shown {t : Text} {n : Nat} (boundary : IsBoundary t n) (keep : Role → Bool) :
    IsBoundary ((scan t).flatMap (showOnly keep)) n := by
  obtain ⟨before, after, rfl, rfl⟩ := boundary
  obtain ⟨earlier, later, split, first, -⟩ := List.map_eq_append_iff.mp (scan_map_fst (before ++ after))
  refine ⟨earlier.flatMap (showOnly keep), later.flatMap (showOnly keep), ?_, ?_⟩
  · rw [split, List.flatMap_append]
  · rw [byteSize_showOnly, first]

theorem Text.IsBoundary.mask {t : Text} {n : Nat} (boundary : IsBoundary t n) : IsBoundary (mask t) n :=
  boundary.shown _

end SchemaDiagram

import SchemaDiagram.Proofs.ScanStep

namespace SchemaDiagram

open Text

/-- The character `c` stands at the offset `n`. -/
def Text.HasAt (t : Text) (n : Nat) (c : Char) : Prop :=
  ∃ before after, t = before ++ c :: after ∧ byteSize before = n

/-- The scanner meets the character `c` at the offset `n`, in this role. -/
def HasRole (t : Text) (n : Nat) (c : Char) (role : Role) : Prop :=
  ∃ earlier later, scan t = earlier ++ (c, role) :: later ∧ byteSize (earlier.map Prod.fst) = n

/-- A line begins at the offset `n`. -/
def Text.IsLineStart (t : Text) (n : Nat) : Prop := n = 0 ∨ ∃ k, HasAt t k '\n' ∧ n = k + 1

theorem Text.HasAt.isBoundary {t : Text} {n : Nat} {c : Char} (at' : HasAt t n c) : IsBoundary t n := by
  obtain ⟨before, after, whole, size⟩ := at'
  exact ⟨before, c :: after, whole, size⟩

theorem Text.HasAt.lt_byteSize {t : Text} {n : Nat} {c : Char} (at' : HasAt t n c) : n < byteSize t := by
  obtain ⟨before, after, rfl, rfl⟩ := at'
  have positive := c.utf8Size_pos
  rw [byteSize_append, byteSize_cons]
  omega

theorem Text.isBoundary_byteSize (t : Text) : IsBoundary t (byteSize t) := ⟨t, [], by simp, rfl⟩

theorem Text.IsLineStart.isBoundary {t : Text} {n : Nat} (lineStart : IsLineStart t n) : IsBoundary t n := by
  rcases lineStart with rfl | ⟨k, ⟨before, after, rfl, rfl⟩, rfl⟩
  · exact ⟨[], t, rfl, rfl⟩
  · exact ⟨before ++ ['\n'], after, by simp, by simp [show '\n'.utf8Size = 1 from rfl]⟩

theorem scanFrom_map_fst (state : ScanState) (lineBlank : Bool) (t : Text) :
    (scanFrom state lineBlank t).map Prod.fst = t := by
  induction t generalizing state lineBlank with
  | nil => rfl
  | cons c t ih => rw [scanFrom_cons, List.map_cons, ih]

theorem scan_map_fst (t : Text) : (scan t).map Prod.fst = t := scanFrom_map_fst .code true t

theorem Text.HasAt.hasRole {t : Text} {n : Nat} {c : Char} (at' : HasAt t n c) : ∃ role, HasRole t n c role := by
  obtain ⟨before, after, rfl, rfl⟩ := at'
  obtain ⟨earlier, rest, split, first, second⟩ :=
    List.map_eq_append_iff.mp (scan_map_fst (before ++ c :: after))
  obtain ⟨⟨d, role⟩, later, rfl, rfl, -⟩ := List.map_eq_cons_iff.mp second
  exact ⟨role, earlier, later, split, by rw [first]⟩

theorem byteSize_spaces (n : Nat) : byteSize (List.replicate n ' ') = n := by
  induction n with
  | zero => rfl
  | succ n ih =>
    have one : ' '.utf8Size = 1 := rfl
    rw [List.replicate_succ, byteSize_cons, ih, one, Nat.add_comm]

theorem byteSize_showOnly_item (keep : Role → Bool) (item : Char × Role) :
    byteSize (showOnly keep item) = item.1.utf8Size := by
  unfold showOnly
  split
  · simp
  · exact byteSize_spaces _

/-- Whatever is blanked, every character keeps its bytes. -/
theorem byteSize_showOnly (keep : Role → Bool) (items : List (Char × Role)) :
    byteSize (items.flatMap (showOnly keep)) = byteSize (items.map Prod.fst) := by
  induction items with
  | nil => rfl
  | cons item items ih =>
    rw [List.flatMap_cons, byteSize_append, ih, byteSize_showOnly_item, List.map_cons, byteSize_cons]

/-- What is shown and is no space stands at its own offset. -/
theorem showOnly_split {keep : Role → Bool} {items : List (Char × Role)} {before after : Text} {c : Char}
    (noSpace : c ≠ ' ') (shown : items.flatMap (showOnly keep) = before ++ c :: after) :
    ∃ earlier role later, items = earlier ++ (c, role) :: later ∧
      before = earlier.flatMap (showOnly keep) ∧ (keep role = true ∨ c = '\n') := by
  induction items generalizing before with
  | nil => simp at shown
  | cons item items ih =>
    have step {part : Text} (rest : items.flatMap (showOnly keep) = part ++ c :: after)
        (begins : before = showOnly keep item ++ part) :
        ∃ earlier role later, item :: items = earlier ++ (c, role) :: later ∧
          before = earlier.flatMap (showOnly keep) ∧ (keep role = true ∨ c = '\n') := by
      obtain ⟨earlier, role, later, rfl, rfl, kept⟩ := ih rest
      exact ⟨item :: earlier, role, later, rfl, by simpa using begins, kept⟩
    rw [List.flatMap_cons] at shown
    rcases List.append_eq_append_iff.mp shown with ⟨part, begins, rest⟩ | ⟨part, ends, rest⟩
    · exact step rest begins
    rcases part with _ | ⟨d, part⟩
    · have shown : items.flatMap (showOnly keep) = [] ++ c :: after := rest.symm
      exact step shown (by simpa using ends.symm)
    · obtain rfl : c = d := (List.cons_eq_cons.mp rest).1
      unfold showOnly at ends
      split at ends
      · obtain ⟨rfl, same⟩ : before = [] ∧ c = item.1 := by
          rcases before with _ | ⟨e, before⟩
          · exact ⟨rfl, (List.cons_eq_cons.mp ends).1.symm⟩
          · simp at ends
        rename_i kept
        exact ⟨[], item.2, items, by rw [same]; rfl, rfl, by simpa [same] using kept⟩
      · have space : c ∈ List.replicate item.1.utf8Size ' ' := by simp [ends]
        exact absurd (List.eq_of_mem_replicate space) noSpace

theorem byteSize_mask (t : Text) : byteSize (mask t) = byteSize t := by
  rw [mask, byteSize_showOnly, scan_map_fst]

theorem byteSize_strip (t : Text) : byteSize (strip t) = byteSize t := by
  rw [strip, byteSize_showOnly, scan_map_fst]

/-- What is shown of a text and is no space stands in the text at the same offset. -/
theorem hasAt_of_shown {keep : Role → Bool} {t : Text} {n : Nat} {c : Char} (noSpace : c ≠ ' ')
    (shown : HasAt ((scan t).flatMap (showOnly keep)) n c) : HasAt t n c := by
  obtain ⟨before, after, whole, rfl⟩ := shown
  obtain ⟨earlier, role, later, items, rfl, -⟩ := showOnly_split noSpace whole
  refine ⟨earlier.map Prod.fst, later.map Prod.fst, ?_, (byteSize_showOnly _ _).symm⟩
  have chars := scan_map_fst t
  rw [items] at chars
  simpa using chars.symm

theorem hasAt_of_mask {t : Text} {n : Nat} {c : Char} (noSpace : c ≠ ' ') (masked : HasAt (mask t) n c) :
    HasAt t n c := hasAt_of_shown noSpace masked

theorem isLineStart_of_mask {t : Text} {n : Nat} (masked : IsLineStart (mask t) n) : IsLineStart t n := by
  rcases masked with rfl | ⟨k, newline, rfl⟩
  · exact Or.inl rfl
  · exact Or.inr ⟨k, hasAt_of_mask (by decide) newline, rfl⟩

end SchemaDiagram

import SchemaDiagram.Proofs.CheckedParse

namespace SchemaDiagram

open Text

/-- A text shown in place: byte for byte it is the text, except that the characters in some roles are blanked, each of them
as a whole. -/
structure IsShownInPlace (keep : Role → Bool) (t shown : Text) : Prop where
  size : (bytes shown).length = (bytes t).length
  newlines : ∀ n : Nat, (bytes shown)[n]? = some '\n'.toUInt8 ↔ (bytes t)[n]? = some '\n'.toUInt8
  kept : ∀ n : Nat, (bytes shown)[n]? = (bytes t)[n]? ∨ (bytes shown)[n]? = some ' '.toUInt8
  whole : ∀ n c, HasAt t n c → ∃ role, HasRole t n c role ∧
    part? n (n + c.utf8Size) shown = some (if keep role ∨ c = '\n' then [c] else List.replicate c.utf8Size ' ')
  boundaries : ∀ n, IsBoundary t n → IsBoundary shown n
  visible : ∀ n c, c ≠ ' ' → HasAt shown n c → HasAt t n c

theorem bytes_spaces (n : Nat) : bytes (List.replicate n ' ') = List.replicate n ' '.toUInt8 := by
  induction n with
  | zero => rfl
  | succ n ih => rw [List.replicate_succ, bytes_cons_of_one rfl, ih, List.replicate_succ]

/-- No other character has the byte of a newline in it. -/
theorem newline_not_mem_utf8EncodeChar {c : Char} (inLine : c ≠ '\n') :
    '\n'.toUInt8 ∉ String.utf8EncodeChar c := by
  intro member
  rcases utf8EncodeChar_cases c with ⟨one, single⟩ | ⟨-, first, more, encoded, wide⟩
  · rw [single, List.mem_singleton, toUInt8_eq_iff rfl one] at member
    exact inLine member.symm
  · rw [encoded] at member
    exact (wide _ member).ne (by decide) rfl

/-- A byte is shown, or it is part of a character that is blanked, which is no newline. -/
def ShowsByte (shown here : Option UInt8) : Prop :=
  shown = here ∨ shown = some ' '.toUInt8 ∧ here ≠ some '\n'.toUInt8

theorem showsByte_item (keep : Role → Bool) (item : Char × Role) (n : Nat) :
    ShowsByte (bytes (showOnly keep item))[n]? (bytes [item.1])[n]? := by
  unfold showOnly
  split
  · exact Or.inl rfl
  rename_i blanked
  -- a blanked character has a space for each of its bytes, and no bytes behind them
  by_cases within : n < item.1.utf8Size
  · refine Or.inr ⟨?_, fun newline => ?_⟩
    · rw [bytes_spaces, List.getElem?_replicate_of_lt within]
    · have member := List.mem_of_getElem? newline
      rw [bytes_cons, show bytes [] = [] from rfl, List.append_nil] at member
      simp only [Bool.or_eq_true, decide_eq_true_eq, not_or] at blanked
      exact newline_not_mem_utf8EncodeChar blanked.2 member
  · have out {t : Text} (size : byteSize t = item.1.utf8Size) : (bytes t)[n]? = none := by
      rw [List.getElem?_eq_none_iff, length_bytes]
      omega
    exact Or.inl (by rw [out (byteSize_spaces _), out (by simp)])

/-- Byte for byte, a scanned text shows what it is, or a space. -/
theorem showsByte_items (keep : Role → Bool) (items : List (Char × Role)) (n : Nat) :
    ShowsByte (bytes (items.flatMap (showOnly keep)))[n]? (bytes (items.map Prod.fst))[n]? := by
  induction items generalizing n with
  | nil => exact Or.inl rfl
  | cons item items ih =>
    -- the byte lies in the first character, or as far behind it in both texts
    have size : (bytes (showOnly keep item)).length = (bytes [item.1]).length := by
      rw [length_bytes, length_bytes, byteSize_showOnly_item, byteSize_cons, byteSize_nil, Nat.add_zero]
    have chars : (item :: items).map Prod.fst = [item.1] ++ items.map Prod.fst := rfl
    rw [List.flatMap_cons, chars, bytes_append, bytes_append]
    by_cases here : n < (bytes [item.1]).length
    · rw [List.getElem?_append_left (by omega), List.getElem?_append_left here]
      exact showsByte_item keep item n
    · rw [List.getElem?_append_right (by omega), List.getElem?_append_right (by omega), size]
      exact ih _

theorem ShowsByte.newline_iff {shown here : Option UInt8} (shows : ShowsByte shown here) :
    shown = some '\n'.toUInt8 ↔ here = some '\n'.toUInt8 := by
  rcases shows with rfl | ⟨rfl, other⟩
  · rfl
  · exact iff_of_false (by decide) other

section

variable (keep : Role → Bool)

theorem showsByte (t : Text) (n : Nat) :
    ShowsByte (bytes ((scan t).flatMap (showOnly keep)))[n]? (bytes t)[n]? := by
  have items := showsByte_items keep (scan t) n
  rwa [scan_map_fst] at items

theorem HasRole.part?_shown {t : Text} {n : Nat} {c : Char} {role : Role} (at' : HasRole t n c role) :
    part? n (n + c.utf8Size) ((scan t).flatMap (showOnly keep)) = some (showOnly keep (c, role)) := by
  obtain ⟨earlier, later, split, rfl⟩ := at'
  have cutOut := part?_append (earlier.flatMap (showOnly keep)) (showOnly keep (c, role)) (later.flatMap (showOnly keep))
  rw [byteSize_showOnly, byteSize_showOnly_item] at cutOut
  rw [split, List.flatMap_append, List.flatMap_cons, ← List.append_assoc, cutOut]

/-- Whatever roles are kept, a text is shown in place. -/
theorem isShownInPlace (t : Text) : IsShownInPlace keep t ((scan t).flatMap (showOnly keep)) where
  size := by rw [length_bytes, length_bytes, byteSize_showOnly, scan_map_fst]
  newlines n := (showsByte keep t n).newline_iff
  kept n := (showsByte keep t n).imp_right And.left
  whole n c at' := by
    obtain ⟨role, hasRole⟩ := at'.hasRole
    refine ⟨role, hasRole, ?_⟩
    rw [hasRole.part?_shown keep, showOnly]
    simp
  boundaries _ boundary := boundary.shown keep
  visible _ _ noSpace shown := hasAt_of_shown noSpace shown

end

/-- Both ways of blanking a text leave every byte where it is, and the scan that goes by offsets of bytes gives both. -/
theorem strip_mask_in_place (t : Text) :
    (checkedStrip t = some (strip t) ∧ IsShownInPlace (· ≠ .comment) t (strip t)) ∧
      (checkedMask t = some (mask t) ∧ IsShownInPlace (· = .code) t (mask t)) :=
  ⟨⟨checkedStrip_eq t, isShownInPlace _ t⟩, checkedMask_eq t, isShownInPlace _ t⟩

/-- A string stays and a comment goes, each byte in its place. -/
example : strip (txt "é \"/*\" /*é*/ é") = txt "é \"/*\"        é" := by decide +kernel

end SchemaDiagram

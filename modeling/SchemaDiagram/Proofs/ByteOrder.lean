import SchemaDiagram.Text.Basic

namespace SchemaDiagram

open Text

/-- The bytes of a text in its UTF-8 form. -/
def Text.bytes (t : Text) : List UInt8 := t.flatMap String.utf8EncodeChar

section

variable {a b : Nat} (small : a < 256) (smallOther : b < 256)

include small smallOther

theorem ofNat_lt_ofNat : UInt8.ofNat a < UInt8.ofNat b ↔ a < b := by
  rw [UInt8.lt_iff_toNat_lt, UInt8.toNat_ofNat', UInt8.toNat_ofNat', Nat.mod_eq_of_lt small, Nat.mod_eq_of_lt smallOther]

theorem ofNat_eq_ofNat : UInt8.ofNat a = UInt8.ofNat b ↔ a = b := by
  rw [← UInt8.toNat_inj, UInt8.toNat_ofNat', UInt8.toNat_ofNat', Nat.mod_eq_of_lt small, Nat.mod_eq_of_lt smallOther]

end

/-- The bytes of a smaller character come first, whatever follows. -/
theorem utf8EncodeChar_append_lt {c d : Char} (less : c < d) (a b : List UInt8) :
    String.utf8EncodeChar c ++ a < String.utf8EncodeChar d ++ b := by
  have values : c.val.toNat < d.val.toNat := less
  have top : d.val.toNat < 0x110000 := by
    rcases d.valid with low | ⟨-, high⟩
    · exact Nat.lt_trans low (by decide)
    · exact high
  have digits (n : Nat) : n / 4096 = n / 64 / 64 ∧ n / 262144 = n / 64 / 64 / 64 := by omega
  unfold String.utf8EncodeChar
  simp only [digits]
  -- one case for each pair of sizes: the first bytes tell them apart, or else the first bytes that differ
  repeat' split
  all_goals
    simp (disch := omega) only [List.cons_append, List.nil_append, List.cons_lt_cons_iff, ofNat_lt_ofNat,
      ofNat_eq_ofNat]
    omega

theorem append_lt_append_iff (u : List UInt8) {a b : List UInt8} : u ++ a < u ++ b ↔ a < b := by
  induction u with
  | nil => rfl
  | cons x u ih => simp [ih]

/-- Texts are in the order of their bytes. -/
theorem bytes_lt_bytes_iff {s t : Text} : bytes s < bytes t ↔ s < t := by
  induction s generalizing t with
  | nil =>
    rcases t with _ | ⟨d, t⟩
    · simp [bytes]
    · obtain ⟨x, more, encoded⟩ := List.exists_cons_of_ne_nil (l := String.utf8EncodeChar d) String.utf8EncodeChar_ne_nil
      simp [bytes, encoded]
  | cons c s ih =>
    rcases t with _ | ⟨d, t⟩
    · simp [bytes]
    · have cons (c : Char) (s : Text) : bytes (c :: s) = String.utf8EncodeChar c ++ bytes s := rfl
      rw [cons, cons, List.cons_lt_cons_iff]
      rcases Nat.lt_trichotomy c.val.toNat d.val.toNat with less | same | greater
      · exact iff_of_true (utf8EncodeChar_append_lt less _ _) (Or.inl less)
      · obtain rfl : c = d := Char.ext (UInt32.toNat_inj.mp same)
        rw [append_lt_append_iff, ih]
        simp
      · have before : ¬String.utf8EncodeChar c ++ bytes s < String.utf8EncodeChar d ++ bytes t :=
          List.lt_asymm (utf8EncodeChar_append_lt greater _ _)
        refine iff_of_false before ?_
        rintro (less | ⟨rfl, -⟩)
        · exact Nat.lt_asymm less greater
        · exact Nat.lt_irrefl _ greater

theorem bytes_le_bytes_iff {s t : Text} : bytes s ≤ bytes t ↔ ¬t < s :=
  not_congr bytes_lt_bytes_iff

end SchemaDiagram

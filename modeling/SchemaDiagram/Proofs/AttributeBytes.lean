import Mathlib.Data.Nat.PSub
import SchemaDiagram.Proofs.AttributeTokens
import SchemaDiagram.Proofs.CommentSearch

namespace SchemaDiagram

open Text

/-- A byte of a character of several bytes. -/
def IsWide (b : UInt8) : Prop := 128 ≤ b

/-- A character is one byte with its number, or several bytes that stand for no character of one byte. -/
theorem utf8EncodeChar_cases (c : Char) :
    (c.utf8Size = 1 ∧ String.utf8EncodeChar c = [c.toUInt8]) ∨
      (1 < c.utf8Size ∧ ∃ first more, String.utf8EncodeChar c = first :: more ∧ ∀ b ∈ first :: more, IsWide b) := by
  by_cases one : c.utf8Size = 1
  · exact Or.inl ⟨one, String.utf8EncodeChar_eq_singleton one⟩
  · obtain ⟨first, more, encoded⟩ := List.exists_cons_of_ne_nil (String.utf8EncodeChar_ne_nil (c := c))
    refine Or.inr ⟨Nat.lt_of_le_of_ne c.utf8Size_pos (Ne.symm one), first, more, encoded, fun b member => ?_⟩
    rw [← encoded] at member
    have large : 127 < c.val.toNat := by
      rw [Char.utf8Size_eq_one_iff, UInt32.le_iff_toNat_le] at one
      exact Nat.not_le.mp one
    have top : c.val.toNat < 0x110000 := by
      rcases c.valid with low | ⟨-, high⟩
      · exact Nat.lt_trans low (by decide)
      · exact high
    have digit {n : Nat} (high : 128 ≤ n) (low : n < 256) : IsWide (UInt8.ofNat n) := by
      rw [IsWide, UInt8.le_iff_toNat_le, UInt8.toNat_ofNat', Nat.mod_eq_of_lt low]
      exact high
    unfold String.utf8EncodeChar at member
    dsimp only at member
    split at member
    · omega
    split at member
    · simp only [List.mem_cons, List.not_mem_nil, or_false] at member
      rcases member with rfl | rfl <;> exact digit (by omega) (by omega)
    split at member
    · simp only [List.mem_cons, List.not_mem_nil, or_false] at member
      rcases member with rfl | rfl | rfl <;> exact digit (by omega) (by omega)
    · simp only [List.mem_cons, List.not_mem_nil, or_false] at member
      rcases member with rfl | rfl | rfl | rfl <;> exact digit (by omega) (by omega)

theorem IsWide.ne {b a : UInt8} (wide : IsWide b) (small : a < 128) : b ≠ a :=
  fun same => UInt8.not_le.mpr small (same ▸ wide)

theorem ofUInt8_toUInt8 {c : Char} (one : c.utf8Size = 1) : Char.ofUInt8 c.toUInt8 = c := by
  rw [Char.utf8Size_eq_one_iff, UInt32.le_iff_toNat_le] at one
  have small : c.val.toNat < 256 := Nat.lt_of_le_of_lt one (by decide)
  refine Char.ext (UInt32.toNat_inj.mp ?_)
  change c.val.toUInt8.toUInt32.toNat = c.val.toNat
  rw [UInt8.toNat_toUInt32, UInt32.toNat_toUInt8, Nat.mod_eq_of_lt small]

theorem toUInt8_lt {c : Char} (one : c.utf8Size = 1) : c.toUInt8 < 128 := by
  rw [Char.utf8Size_eq_one_iff, UInt32.le_iff_toNat_le] at one
  have small : c.val.toNat < 128 := Nat.lt_of_le_of_lt one (by decide)
  rw [UInt8.lt_iff_toNat_lt]
  change c.val.toUInt8.toNat < 128
  rw [UInt32.toNat_toUInt8, Nat.mod_eq_of_lt (by omega)]
  exact small

theorem toUInt8_eq_iff {c d : Char} (one : c.utf8Size = 1) (other : d.utf8Size = 1) :
    c.toUInt8 = d.toUInt8 ↔ c = d :=
  ⟨fun same => (ofUInt8_toUInt8 one).symm.trans ((congrArg Char.ofUInt8 same).trans (ofUInt8_toUInt8 other)),
    congrArg Char.toUInt8⟩

theorem isAttributeNameChar_of_large {c : Char} (large : 128 ≤ c.toNat) : isAttributeNameChar c = false := by
  have other {d : Char} (small : d.toNat < 128) : c ≠ d := by
    rintro rfl
    omega
  have beyond {d : Char} (small : d.toNat < 128) : ¬c.val ≤ d.val := fun below => by
    have reached : c.toNat ≤ d.toNat := UInt32.le_iff_toNat_le.mp below
    omega
  have range (first : Char) {d : Char} (small : d.toNat < 128) :
      (decide (c.val ≥ first.val) && decide (c.val ≤ d.val)) = false := by
    rw [decide_eq_false (beyond small), Bool.and_false]
  have upper : c.isUpper = false := decide_eq_false fun within => beyond (by decide) within.2
  have lower : c.isLower = false := range 'a' (d := 'z') (by decide)
  have digit : c.isDigit = false := range '0' (d := '9') (by decide)
  have letters : c.isAlphanum = false :=
    Bool.or_eq_false_iff.mpr ⟨Bool.or_eq_false_iff.mpr ⟨upper, lower⟩, digit⟩
  simp [isAttributeNameChar, letters, other (d := '_') (by decide), other (d := '.') (by decide)]

/-- Where the group of parentheses ends that is read byte by byte. A backslash in a string passes over the next byte,
and there is no end where the depth would fall below zero. -/
def groupEnd (inString : Bool) (depth i : Nat) : List UInt8 → Option Nat
  | [] => some i
  | b :: later =>
    if inString && b = '\\'.toUInt8 then
      match later with
      | [] => some (i + 1)
      | _ :: rest => groupEnd inString depth (i + 2) rest
    else if b = '"'.toUInt8 then groupEnd (!inString) depth (i + 1) later
    else if !inString && b = '('.toUInt8 then groupEnd inString (depth + 1) (i + 1) later
    else if !inString && b = ')'.toUInt8 then do
      let left ← depth.ppred
      if left = 0 then return i + 1 else groupEnd inString left (i + 1) later
    else groupEnd inString depth (i + 1) later

def isNameByte (b : UInt8) : Bool := isAttributeNameChar (Char.ofUInt8 b)

/-- Where the attribute ends that begins at an offset. -/
def attributeEnd (i : Nat) (t : List UInt8) : Option Nat :=
  let signs := (t.takeWhile (· = '@'.toUInt8)).length
  let name := ((t.drop signs).takeWhile isNameByte).length
  let rest := t.drop (signs + name)
  if rest.head? = some '('.toUInt8 then groupEnd false 0 (i + signs + name) rest else some (i + signs + name)

/-- `attributesFrom`, byte by byte, with every attribute cut out of the text where it begins and ends. -/
def attributesAt (t : Text) (skip i : Nat) : List UInt8 → Option (List Text)
  | [] => some []
  | b :: later =>
    match skip with
    | skip + 1 => attributesAt t skip (i + 1) later
    | 0 =>
      if b = '@'.toUInt8 then do
        let stop ← attributeEnd i (b :: later)
        let token ← part? i stop t
        let others ← attributesAt t (stop - i - 1) (i + 1) later
        return if 1 < byteSize (trim token) then trim token :: others else others
      else attributesAt t 0 (i + 1) later

def checkedAttributes (t : Text) : Option (List Text) := attributesAt t 0 0 (bytes t)

theorem bytes_cons (c : Char) (t : Text) : bytes (c :: t) = String.utf8EncodeChar c ++ bytes t := rfl

theorem bytes_cons_of_one {c : Char} (one : c.utf8Size = 1) (t : Text) : bytes (c :: t) = c.toUInt8 :: bytes t := by
  rw [bytes_cons, String.utf8EncodeChar_eq_singleton one]
  rfl

/-- Bytes of characters of several bytes are passed over in a group. -/
theorem groupEnd_wide (inString : Bool) (depth i : Nat) {wide : List UInt8} (all : ∀ b ∈ wide, IsWide b)
    (later : List UInt8) :
    groupEnd inString depth i (wide ++ later) = groupEnd inString depth (i + wide.length) later := by
  induction wide generalizing i with
  | nil => rfl
  | cons b wide ih =>
    obtain ⟨here, behind⟩ := List.forall_mem_cons.mp all
    have noSlash : b ≠ '\\'.toUInt8 := here.ne (by decide)
    have noQuote : b ≠ '"'.toUInt8 := here.ne (by decide)
    have noOpening : b ≠ '('.toUInt8 := here.ne (by decide)
    have noClosing : b ≠ ')'.toUInt8 := here.ne (by decide)
    rw [List.cons_append, groupEnd.eq_def]
    simp only [noSlash, noQuote, noOpening, noClosing, decide_false, Bool.and_false, Bool.false_eq_true, if_false]
    rw [ih (i + 1) behind, List.length_cons, Nat.add_assoc, Nat.add_comm 1]

/-- A reader of a group that goes on from a character, inside of a string or not. One that has passed a backslash is
one byte further. -/
def Quoting.groupEnd (quoting : Quoting) (depth i : Nat) (t : List UInt8) : Option Nat :=
  match quoting, t with
  | .outside, t => SchemaDiagram.groupEnd false depth i t
  | .inside, t => SchemaDiagram.groupEnd true depth i t
  | .escaped, [] => some i
  | .escaped, _ :: later => SchemaDiagram.groupEnd true depth (i + 1) later

theorem groupEnd_one {c : Char} (one : c.utf8Size = 1) (inString : Bool) (depth i : Nat) (later : List UInt8) :
    groupEnd inString depth i (c.toUInt8 :: later) =
      if inString && c = '\\' then Quoting.escaped.groupEnd depth (i + 1) later
      else if c = '"' then groupEnd (!inString) depth (i + 1) later
      else if !inString && c = '(' then groupEnd inString (depth + 1) (i + 1) later
      else if !inString && c = ')' then
        depth.ppred.bind fun left => if left = 0 then some (i + 1) else groupEnd inString left (i + 1) later
      else groupEnd inString depth (i + 1) later := by
  have same {d : Char} (other : d.utf8Size = 1) : (c.toUInt8 = d.toUInt8) = (c = d) := propext (toUInt8_eq_iff one other)
  rw [groupEnd.eq_def]
  simp only [same (d := '\\') rfl, same (d := '"') rfl, same (d := '(') rfl, same (d := ')') rfl]
  cases inString
  · rfl
  · cases later <;> rfl

section

variable {c : Char} {t : Text} {i : Nat}
  (next : ∀ (quoting : Quoting) depth, quoting.groupEnd (depth + 1) (i + c.utf8Size) (bytes t) =
    some (i + byteSize (c :: groupRest quoting depth t)))

include next

theorem groupEnd_cons_one (one : c.utf8Size = 1) (quoting : Quoting) (depth : Nat) :
    quoting.groupEnd (depth + 1) i (bytes (c :: t)) = some (i + byteSize (groupRest quoting depth (c :: t))) := by
  rw [one] at next
  rw [bytes_cons_of_one one]
  cases quoting with
  | escaped => exact next .inside depth
  | inside =>
    change groupEnd true (depth + 1) i _ = _
    simp only [groupEnd_one one, groupRest, Bool.true_and, decide_eq_true_eq, Bool.not_true, Bool.false_and,
      Bool.false_eq_true, if_false]
    split
    · exact next .escaped depth
    split
    · exact next .outside depth
    · exact next .inside depth
  | outside =>
    change groupEnd false (depth + 1) i _ = _
    rw [groupRest.eq_def]
    simp only [groupEnd_one one, Bool.false_and, Bool.false_eq_true, if_false, Bool.not_false, Bool.true_and,
      decide_eq_true_eq, Nat.ppred_succ, Option.bind_some]
    split
    · exact next .inside depth
    split
    · exact next .outside (depth + 1)
    split
    · cases depth with
      | zero => rw [if_pos rfl, byteSize_cons, one]; rfl
      | succ depth =>
        rw [if_neg (Nat.succ_ne_zero depth)]
        exact next .outside depth
    · exact next .outside depth

theorem groupEnd_cons_several (several : 1 < c.utf8Size) {b : UInt8} {more : List UInt8}
    (encoded : String.utf8EncodeChar c = b :: more) (wide : ∀ b' ∈ b :: more, IsWide b') (quoting : Quoting)
    (depth : Nat) :
    quoting.groupEnd (depth + 1) i (bytes (c :: t)) = some (i + byteSize (groupRest quoting depth (c :: t))) := by
  have other {d : Char} (small : d.utf8Size = 1) : c ≠ d := by
    rintro rfl
    omega
  have noSlash : c ≠ '\\' := other rfl
  have noQuote : c ≠ '"' := other rfl
  have noOpening : c ≠ '(' := other rfl
  have noClosing : c ≠ ')' := other rfl
  have passed (inString : Bool) := groupEnd_wide inString (depth + 1) i wide (bytes t)
  rw [← encoded, String.length_utf8EncodeChar] at passed
  rw [bytes_cons]
  cases quoting with
  | outside =>
    rw [groupRest.eq_def]
    simp only [noQuote, noOpening, noClosing, if_false]
    exact (passed false).trans (next .outside depth)
  | inside =>
    rw [groupRest.eq_def]
    simp only [noSlash, noQuote, if_false]
    exact (passed true).trans (next .inside depth)
  | escaped =>
    rw [encoded]
    have size : more.length + 1 = c.utf8Size := by rw [← String.length_utf8EncodeChar, encoded, List.length_cons]
    -- The byte that is passed over is the first of several, and those behind it are none that count.
    have behind := groupEnd_wide true (depth + 1) (i + 1) (fun b member => wide b (List.mem_cons_of_mem _ member))
      (bytes t)
    rw [Nat.add_assoc, Nat.add_comm 1, size] at behind
    exact behind.trans (next .inside depth)

end

/-- A group ends with the byte behind its characters, and its depth stays above zero up to there. -/
theorem groupEnd_bytes (quoting : Quoting) (depth i : Nat) (t : Text) :
    quoting.groupEnd (depth + 1) i (bytes t) = some (i + byteSize (groupRest quoting depth t)) := by
  induction t generalizing quoting depth i with
  | nil => cases quoting <;> rfl
  | cons c t ih =>
    have next (quoting : Quoting) (depth : Nat) : quoting.groupEnd (depth + 1) (i + c.utf8Size) (bytes t) =
        some (i + byteSize (c :: groupRest quoting depth t)) := by
      rw [ih, byteSize_cons, Nat.add_assoc]
    rcases utf8EncodeChar_cases c with ⟨one, -⟩ | ⟨several, b, more, encoded, wide⟩
    · exact groupEnd_cons_one next one quoting depth
    · exact groupEnd_cons_several next several encoded wide quoting depth

theorem drop_bytes {a t : Text} (before : a <+: t) : (bytes t).drop (byteSize a) = bytes (t.drop a.length) := by
  obtain ⟨rest, rfl⟩ := before
  rw [bytes_append, ← length_bytes, List.drop_left, List.drop_left]

/-- A class of characters of one byte is looked for byte by byte. -/
theorem takeWhile_bytes {p : UInt8 → Bool} {q : Char → Bool} (narrow : ∀ c, c.utf8Size = 1 → p c.toUInt8 = q c)
    (wide : ∀ b, IsWide b → p b = false) (several : ∀ c, 1 < c.utf8Size → q c = false) (t : Text) :
    (bytes t).takeWhile p = bytes (t.takeWhile q) := by
  induction t with
  | nil => rfl
  | cons c t ih =>
    rcases utf8EncodeChar_cases c with ⟨one, -⟩ | ⟨large, b, more, encoded, allWide⟩
    · rw [bytes_cons_of_one one, List.takeWhile_cons, List.takeWhile_cons, narrow c one]
      split
      · rw [ih, bytes_cons_of_one one]
      · rfl
    · rw [bytes_cons, encoded, List.cons_append, List.takeWhile_cons, wide b (allWide b List.mem_cons_self),
        List.takeWhile_cons, several c large]
      rfl

theorem head?_bytes_eq_iff {t : Text} {c : Char} (one : c.utf8Size = 1) :
    (bytes t).head? = some c.toUInt8 ↔ t.head? = some c := by
  rcases t with _ | ⟨d, t⟩
  · exact iff_of_false nofun nofun
  rw [List.head?_cons, Option.some.injEq]
  rcases utf8EncodeChar_cases d with ⟨oneToo, -⟩ | ⟨large, b, more, encoded, allWide⟩
  · rw [bytes_cons_of_one oneToo, List.head?_cons, Option.some.injEq, toUInt8_eq_iff oneToo one]
  · rw [bytes_cons, encoded, List.cons_append, List.head?_cons, Option.some.injEq]
    refine iff_of_false ((allWide b List.mem_cons_self).ne (toUInt8_lt one)) ?_
    rintro rfl
    omega

theorem isNameByte_of_isWide {b : UInt8} (wide : IsWide b) : isNameByte b = false := by
  refine isAttributeNameChar_of_large ?_
  change 128 ≤ b.toUInt32.toNat
  rw [UInt8.toNat_toUInt32]
  exact UInt8.le_iff_toNat_le.mp wide

theorem isAttributeNameChar_of_several {c : Char} (several : 1 < c.utf8Size) : isAttributeNameChar c = false := by
  refine isAttributeNameChar_of_large (Nat.lt_of_not_le fun small => ?_)
  have one : c.utf8Size = 1 := Char.utf8Size_eq_one_iff.mpr (UInt32.le_iff_toNat_le.mpr small)
  omega

theorem attributeEnd_bytes (i : Nat) (t : Text) : attributeEnd i (bytes t) = some (i + byteSize (attributeToken t)) := by
  obtain ⟨signs, atSigns⟩ : ∃ signs, signs = t.takeWhile fun c => decide (c = '@') := ⟨_, rfl⟩
  obtain ⟨name, atName⟩ : ∃ name, name = (t.drop signs.length).takeWhile isAttributeNameChar := ⟨_, rfl⟩
  have signBytes : (bytes t).takeWhile (fun b => decide (b = '@'.toUInt8)) = bytes signs := by
    rw [atSigns]
    refine takeWhile_bytes (fun c one => ?_) (fun b wide => ?_) (fun c several => ?_) t
    · exact decide_eq_decide.mpr (toUInt8_eq_iff one rfl)
    · exact decide_eq_false (wide.ne (by decide))
    · refine decide_eq_false ?_
      rintro rfl
      exact absurd several (by decide)
  have behindSigns : (bytes t).drop (byteSize signs) = bytes (t.drop signs.length) :=
    drop_bytes (atSigns ▸ List.takeWhile_prefix _)
  have nameBytes : (bytes (t.drop signs.length)).takeWhile isNameByte = bytes name := by
    rw [atName]
    exact takeWhile_bytes (fun c one => congrArg isAttributeNameChar (ofUInt8_toUInt8 one))
      (fun _ => isNameByte_of_isWide) (fun _ => isAttributeNameChar_of_several) _
  have behindName : (bytes t).drop (byteSize signs + byteSize name) = bytes (t.drop (signs.length + name.length)) := by
    rw [← List.drop_drop, behindSigns, drop_bytes (atName ▸ List.takeWhile_prefix _), List.drop_drop]
  simp only [attributeEnd, attributeToken, ← atSigns, ← atName, signBytes, length_bytes, behindSigns, nameBytes,
    behindName, head?_bytes_eq_iff (c := '(') rfl]
  split
  · rename_i opens
    obtain ⟨inner, rest⟩ := List.head?_eq_some_iff.mp opens
    have group := groupEnd_bytes .outside 0 (i + byteSize signs + byteSize name + 1) inner
    rw [rest, bytes_cons_of_one rfl, groupEnd_one rfl]
    refine group.trans (congrArg some ?_)
    rw [SchemaDiagram.group, byteSize_append, byteSize_append, byteSize_cons, show '('.utf8Size = 1 from rfl]
    omega
  · rename_i noGroup
    rw [group_eq_nil noGroup, List.append_nil, byteSize_append, Nat.add_assoc]

theorem attributesAt_skip (t : Text) (i : Nat) (passed later : List UInt8) :
    attributesAt t passed.length i (passed ++ later) = attributesAt t 0 (i + passed.length) later := by
  induction passed generalizing i with
  | nil => rfl
  | cons b passed ih =>
    rw [List.length_cons, List.cons_append, attributesAt, ih, Nat.add_assoc, Nat.add_comm 1]

theorem attributesAt_plain (t : Text) (i : Nat) {plain : List UInt8} (noSign : ∀ b ∈ plain, b ≠ '@'.toUInt8)
    (later : List UInt8) :
    attributesAt t 0 i (plain ++ later) = attributesAt t 0 (i + plain.length) later := by
  induction plain generalizing i with
  | nil => rfl
  | cons b plain ih =>
    obtain ⟨here, behind⟩ := List.forall_mem_cons.mp noSign
    rw [List.cons_append, attributesAt, if_neg here, ih (i + 1) behind, List.length_cons, Nat.add_assoc, Nat.add_comm 1]

/-- What the attributes are cut out of is the text from their `@` to the end of their group, and each of them is there. -/
theorem attributesAt_bytes (front rest : Text) :
    attributesAt (front ++ rest) 0 (byteSize front) (bytes rest) = some (attributesFrom 0 rest) := by
  induction size : rest.length using Nat.strong_induction_on generalizing front rest with
  | _ n ih =>
    rcases rest with _ | ⟨c, rest⟩
    · rfl
    by_cases sign : c = '@'
    · subst sign
      obtain ⟨later, split⟩ := attributeToken_isPrefix ('@' :: rest)
      obtain ⟨token, begins⟩ : ∃ token, attributeToken ('@' :: rest) = '@' :: token := by
        simp only [attributeToken, List.takeWhile_cons, decide_true, if_true, List.cons_append]
        exact ⟨_, rfl⟩
      rw [begins, List.cons_append, List.cons_eq_cons] at split
      obtain ⟨-, rfl⟩ := split
      have stop := attributeEnd_bytes (byteSize front) ('@' :: (token ++ later))
      have cutOut := part?_append front ('@' :: token) later
      have others := ih later.length (by simp at size; omega) (front ++ '@' :: token) later rfl
      have one : '@'.utf8Size = 1 := rfl
      have passed := attributesAt_skip (front ++ '@' :: (token ++ later)) (byteSize front + 1) (bytes token) (bytes later)
      rw [begins, bytes_cons_of_one one] at stop
      rw [List.append_assoc, List.cons_append] at cutOut others
      rw [byteSize_append, byteSize_cons, one, ← Nat.add_assoc] at others
      rw [length_bytes, others] at passed
      have skipped : byteSize front + byteSize ('@' :: token) - byteSize front - 1 = byteSize token := by
        rw [byteSize_cons, one]
        omega
      rw [bytes_cons_of_one one, attributesAt, if_pos rfl, stop, attributesFrom_token begins]
      simp only [Option.bind_eq_bind, Option.bind_some, cutOut, skipped, bytes_append, passed]
      split <;> rfl
    · have noSign : ∀ b ∈ String.utf8EncodeChar c, b ≠ '@'.toUInt8 := by
        rcases utf8EncodeChar_cases c with ⟨one, single⟩ | ⟨-, b, more, encoded, wide⟩
        · rw [single, List.forall_mem_singleton]
          exact fun same => sign ((toUInt8_eq_iff one rfl).mp same)
        · rw [encoded]
          exact fun b member => (wide b member).ne (by decide)
      have later := ih rest.length (by simp at size; omega) (front ++ [c]) rest rfl
      rw [bytes_cons, attributesAt_plain _ _ noSign, String.length_utf8EncodeChar, attributesFrom_other sign]
      simpa using later

theorem checkedAttributes_eq (t : Text) : checkedAttributes t = some (extractAttributes t) :=
  attributesAt_bytes [] t

/-- A backslash passes over the first byte of the letter behind it, and the second one counts for nothing. -/
example : checkedAttributes (txt "@a(\"\\é)\") @b") = some [txt "@a(\"\\é)\")", txt "@b"] := by decide +kernel

end SchemaDiagram

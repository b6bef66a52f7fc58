import Mathlib.Data.List.TakeWhile
import SchemaDiagram.Text.Basic
import SchemaDiagram.Text.Word

namespace SchemaDiagram

open Text

-- What holds of the characters of a text is checked one by one, never by way of all characters there are.
instance (priority := high) decidableForallMem (p : Char → Prop) [DecidablePred p] (t : Text) :
    Decidable (∀ c ∈ t, p c) := t.decidableBAll p

/-- All white space there is. -/
def blankChars : List Char :=
  [' ', '\t', '\n', '\x0b', '\x0c', '\r', '\u0085', '\u00a0', '\u1680', '\u2000', '\u2001', '\u2002',
   '\u2003', '\u2004', '\u2005', '\u2006', '\u2007', '\u2008', '\u2009', '\u200a', '\u2028', '\u2029',
   '\u202f', '\u205f', '\u3000']

theorem mem_blankChars {c : Char} (blank : isBlank c) : c ∈ blankChars := by
  have listed : c.val.toNat ∈ blankChars.map Char.toNat := by
    simp only [isBlank, Bool.or_eq_true, Bool.and_eq_true, decide_eq_true_eq, UInt32.le_iff_toNat_le,
      ← UInt32.toNat_inj, Char.ext_iff] at blank
    simp only [blankChars, List.map_cons, List.map_nil, List.mem_cons, List.not_mem_nil, or_false]
    simp at blank ⊢
    omega
  obtain ⟨d, member, code⟩ := List.mem_map.mp listed
  rwa [show c = d from Char.ext (UInt32.toNat_inj.mp code.symm)]

theorem isWordChar_eq_false_of_isBlank {c : Char} (blank : isBlank c) : isWordChar c = false := by
  have all : ∀ c ∈ blankChars, isWordChar c = false := by decide +kernel
  exact all c (mem_blankChars blank)

theorem isBlank_eq_false_of_isWordChar {c : Char} (letter : isWordChar c) : isBlank c = false := by
  by_contra blank
  rw [isWordChar_eq_false_of_isBlank (by simpa using blank)] at letter
  cases letter

/-- A text that does not begin with a character of the class. -/
def Stops (p : Char → Bool) (t : Text) : Prop := ∀ c, t.head? = some c → p c = false

theorem stops_nil (p : Char → Bool) : Stops p [] := by
  intro c head
  cases head

theorem stops_cons {p : Char → Bool} {c : Char} {t : Text} (other : p c = false) : Stops p (c :: t) := by
  intro d head
  obtain rfl : c = d := by simpa using head
  exact other

theorem stops_dropWhile (p : Char → Bool) (t : Text) : Stops p (t.dropWhile p) := by
  induction t with
  | nil => exact stops_nil p
  | cons c t ih =>
    by_cases inside : p c
    · rwa [List.dropWhile_cons_of_pos inside]
    · rw [List.dropWhile_cons_of_neg inside]
      exact stops_cons (by simpa using inside)

theorem takeWhile_append_stops {p : Char → Bool} {a b : Text} (inside : ∀ c ∈ a, p c) (stops : Stops p b) :
    (a ++ b).takeWhile p = a := by
  rw [List.takeWhile_append_of_pos inside]
  rcases b with _ | ⟨c, b⟩
  · simp
  · rw [List.takeWhile_cons_of_neg (by simp [stops c rfl]), List.append_nil]

theorem dropWhile_append_stops {p : Char → Bool} {a b : Text} (inside : ∀ c ∈ a, p c) (stops : Stops p b) :
    (a ++ b).dropWhile p = b := by
  rw [List.dropWhile_append_of_pos inside]
  rcases b with _ | ⟨c, b⟩
  · rfl
  · rw [List.dropWhile_cons_of_neg (by simp [stops c rfl])]

theorem dropWhile_eq_self {p : Char → Bool} {t : Text} (stops : Stops p t) : t.dropWhile p = t :=
  dropWhile_append_stops (a := []) (by simp) stops

/-- What stands in front of a character that is not dropped stays. -/
theorem dropEndWhile_append {p : Char → Bool} {a : Text} (ends : Stops p a.reverse) (t : Text) :
    dropEndWhile p (a ++ t) = a ++ dropEndWhile p t := by
  rw [dropEndWhile, dropEndWhile, List.reverse_append, List.dropWhile_append, dropWhile_eq_self ends]
  split
  · rename_i dropped
    rw [List.isEmpty_iff.mp dropped]
    simp
  · simp

theorem dropEndWhile_append_of_forall {p : Char → Bool} (a : Text) {b : Text} (inside : ∀ c ∈ b, p c) :
    dropEndWhile p (a ++ b) = dropEndWhile p a := by
  rw [dropEndWhile, List.reverse_append, List.dropWhile_append_of_pos (by simpa using inside), dropEndWhile]

theorem dropEndWhile_isPrefix (p : Char → Bool) (t : Text) : dropEndWhile p t <+: t := by
  have suffix := List.dropWhile_suffix (l := t.reverse) p
  simpa [dropEndWhile] using List.reverse_prefix.mpr suffix

theorem dropEndWhile_split (p : Char → Bool) (t : Text) :
    ∃ back, t = dropEndWhile p t ++ back ∧ ∀ c ∈ back, p c := by
  refine ⟨(t.reverse.takeWhile p).reverse, ?_, fun c member => List.mem_takeWhile_imp (List.mem_reverse.mp member)⟩
  rw [dropEndWhile, ← List.reverse_append, List.takeWhile_append_dropWhile, List.reverse_reverse]

theorem dropEndWhile_eq_self {p : Char → Bool} {a : Text} (ends : Stops p a.reverse) :
    dropEndWhile p a = a := by
  simpa [dropEndWhile] using dropEndWhile_append ends []

theorem dropEndWhile_eq_nil_iff {p : Char → Bool} {t : Text} : dropEndWhile p t = [] ↔ ∀ c ∈ t, p c := by
  simp [dropEndWhile, List.dropWhile_eq_nil_iff]

theorem stops_reverse_append {p : Char → Bool} {a b : Text} (nonempty : b ≠ []) (ends : Stops p b.reverse) :
    Stops p (a ++ b).reverse := by
  intro c head
  obtain ⟨d, more, atEnd⟩ := List.exists_cons_of_ne_nil (List.reverse_ne_nil_iff.mpr nonempty)
  rw [List.reverse_append, atEnd, List.cons_append] at head
  exact ends c (by rw [atEnd]; exact head)

theorem stops_reverse_of_forall {p : Char → Bool} {a : Text} (outside : ∀ c ∈ a, p c = false) :
    Stops p a.reverse := by
  intro c head
  exact outside c (List.mem_of_getLast? (List.head?_reverse ▸ head))

theorem stops_dropEndWhile (p : Char → Bool) (t : Text) : Stops p (dropEndWhile p t).reverse := by
  rw [dropEndWhile, List.reverse_reverse]
  exact stops_dropWhile p t.reverse

theorem trim_eq_self {t : Text} (begins : Stops isBlank t) (ends : Stops isBlank t.reverse) : trim t = t := by
  rw [trim, trimStart, dropWhile_eq_self begins, trimEnd, dropEndWhile_eq_self ends]

theorem trim_cons {c : Char} (visible : isBlank c = false) (t : Text) : trim (c :: t) = c :: trimEnd t := by
  rw [trim, trimStart, dropWhile_eq_self (stops_cons visible)]
  exact dropEndWhile_append (a := [c]) (stops_cons visible) t

/-- White space around a text is no part of what is left of it. -/
theorem trim_append {front back : Text} (inFront : ∀ c ∈ front, isBlank c) (t : Text)
    (inBack : ∀ c ∈ back, isBlank c) : trim (front ++ t ++ back) = trim t := by
  rw [trim, trim, trimStart, trimStart, List.append_assoc, List.dropWhile_append_of_pos inFront,
    List.dropWhile_append]
  split
  · rename_i empty
    rw [List.isEmpty_iff.mp empty, List.dropWhile_eq_nil_iff.mpr inBack]
  · exact dropEndWhile_append_of_forall _ inBack

theorem isPrefixOf?_cons_cons (c d : Char) (a t : Text) :
    (c :: a).isPrefixOf? (d :: t) = if c = d then a.isPrefixOf? t else none := by
  show (if c == d then a.isPrefixOf? t else none) = _
  simp only [beq_iff_eq]

theorem isPrefixOf?_eq_some_iff {a t rest : Text} : a.isPrefixOf? t = some rest ↔ t = a ++ rest := by
  induction a generalizing t with
  | nil =>
    show some t = some rest ↔ t = rest
    rw [Option.some.injEq]
  | cons c a ih =>
    rcases t with _ | ⟨d, t⟩
    · exact ⟨fun found => (by cases found), fun whole => (by cases whole)⟩
    · rw [isPrefixOf?_cons_cons, List.cons_append, List.cons_eq_cons]
      split
      · rename_i same
        rw [ih, same, eq_self_iff_true, true_and]
      · rename_i other
        exact ⟨fun found => (by cases found), fun whole => absurd whole.1.symm other⟩

theorem isSuffixOf?_eq_some_iff {a t rest : Text} : a.isSuffixOf? t = some rest ↔ t = rest ++ a := by
  unfold List.isSuffixOf?
  constructor
  · intro found
    obtain ⟨reversed, before, rfl⟩ := Option.map_eq_some_iff.mp found
    have whole := isPrefixOf?_eq_some_iff.mp before
    rw [← List.reverse_reverse t, whole, List.reverse_append, List.reverse_reverse]
  · rintro rfl
    rw [List.reverse_append, isPrefixOf?_eq_some_iff.mpr rfl]
    simp

theorem Stops.of_isPrefix {p : Char → Bool} {a t : Text} (stops : Stops p t) (before : a <+: t) :
    Stops p a := by
  obtain ⟨rest, rfl⟩ := before
  intro c head
  obtain ⟨more, rfl⟩ := List.head?_eq_some_iff.mp head
  exact stops c rfl

/-- Splitting takes away the characters of the class, and nothing else. -/
theorem flatten_splitOnP (p : Char → Bool) (t : Text) : (t.splitOnP p).flatten = t.filter fun c => !p c := by
  induction t with
  | nil => rfl
  | cons c t ih =>
    rw [List.splitOnP_cons_eq_if_modifyHead]
    by_cases splits : p c
    · rw [if_pos splits, List.flatten_cons, ih, List.filter_cons_of_neg (by simp [splits])]
      rfl
    · obtain ⟨first, rest, whole⟩ := List.exists_cons_of_ne_nil (List.splitOnP_ne_nil p t)
      rw [whole] at ih
      rw [if_neg splits, whole, List.modifyHead_cons, List.flatten_cons, List.cons_append,
        List.filter_cons_of_pos (by simp [splits]), ← ih]
      rfl

theorem eq_nil_of_byteSize {t : Text} (size : byteSize t = 0) : t = [] := by
  rcases t with _ | ⟨c, t⟩
  · rfl
  · have positive := c.utf8Size_pos
    rw [byteSize_cons] at size
    omega

theorem eq_of_isPrefix_of_byteSize_le {a t : Text} (before : a <+: t) (size : byteSize t ≤ byteSize a) :
    a = t := by
  obtain ⟨rest, rfl⟩ := before
  rw [byteSize_append] at size
  rw [eq_nil_of_byteSize (t := rest) (by omega), List.append_nil]

theorem trim_eq_nil {t : Text} (blanks : ∀ c ∈ t, isBlank c) : trim t = [] := by
  have all := trim_append blanks [] (List.forall_mem_nil _)
  rwa [List.append_nil, List.append_nil] at all

theorem trim_eq_nil_iff {t : Text} : trim t = [] ↔ ∀ c ∈ t, isBlank c := by
  refine ⟨fun empty => ?_, trim_eq_nil⟩
  have visible := dropEndWhile_eq_nil_iff.mp (show dropEndWhile isBlank (t.dropWhile isBlank) = [] from empty)
  intro c member
  rw [← List.takeWhile_append_dropWhile (p := isBlank) (l := t)] at member
  rcases List.mem_append.mp member with inside | inside
  · exact List.mem_takeWhile_imp inside
  · exact visible c inside

theorem isPrefixOf_pair (a b c : Char) (t : Text) :
    List.isPrefixOf [a, b] (c :: t) = true ↔ c = a ∧ t.head? = some b := by
  cases t with
  | nil => simp [List.isPrefixOf]
  | cons d t =>
    simp only [List.isPrefixOf, Bool.and_true, Bool.and_eq_true, beq_iff_eq, List.head?_cons, Option.some.injEq]
    exact ⟨fun ⟨first, second⟩ => ⟨first.symm, second.symm⟩, fun ⟨first, second⟩ => ⟨first.symm, second.symm⟩⟩

end SchemaDiagram

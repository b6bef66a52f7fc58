import SchemaDiagram.Proofs.Spans

namespace SchemaDiagram

open Text

def IsWord (t : Text) : Prop := t ≠ [] ∧ ∀ c ∈ t, isWordChar c

theorem IsWord.stops_isBlank {t : Text} (word : IsWord t) (rest : Text) : Stops isBlank (t ++ rest) := by
  obtain ⟨c, t, rfl⟩ := List.exists_cons_of_ne_nil word.1
  exact stops_cons (isBlank_eq_false_of_isWordChar (word.2 c List.mem_cons_self))

theorem IsWord.not_mem {t : Text} (word : IsWord t) {c : Char} (other : isWordChar c = false) : c ∉ t := by
  intro member
  simp [word.2 c member] at other

theorem IsWord.visible {t : Text} (word : IsWord t) : ∀ c ∈ t, isBlank c = false :=
  fun c member => isBlank_eq_false_of_isWordChar (word.2 c member)

theorem IsWord.ends {t : Text} (word : IsWord t) : Stops isBlank t.reverse :=
  stops_reverse_of_forall word.visible

/-- A text that begins with one of some characters, or with white space, or is empty. -/
def Follows (marks : List Char) (t : Text) : Prop := ∀ c, t.head? = some c → c ∈ marks ∨ isBlank c

theorem Follows.stops_isWordChar {marks : List Char} {t : Text} (follows : Follows marks t)
    (noLetter : ∀ c ∈ marks, isWordChar c = false) : Stops isWordChar t := by
  intro c head
  rcases follows c head with mark | blank
  · exact noLetter c mark
  · exact isWordChar_eq_false_of_isBlank blank

theorem Follows.head?_ne {marks : List Char} {t : Text} (follows : Follows marks t) {c : Char}
    (noMark : c ∉ marks) (noBlank : isBlank c = false) : t.head? ≠ some c := by
  intro head
  rcases follows c head with mark | blank
  · exact noMark mark
  · simp [noBlank] at blank

theorem Follows.cons {marks : List Char} {c : Char} {t : Text} (mark : c ∈ marks) :
    Follows marks (c :: t) := by
  intro d head
  obtain rfl : c = d := by simpa using head
  exact Or.inl mark

theorem Follows.mono {marks more : List Char} {t : Text} (follows : Follows marks t)
    (wider : ∀ c ∈ marks, c ∈ more) : Follows more t := by
  intro c head
  exact (follows c head).imp (wider c) id

theorem Follows.of_isPrefix {marks : List Char} {a t : Text} (follows : Follows marks t) (before : a <+: t) :
    Follows marks a := by
  obtain ⟨rest, rfl⟩ := before
  intro c head
  obtain ⟨a, rfl⟩ := List.head?_eq_some_iff.mp head
  exact follows c rfl

theorem Follows.append_newline {marks : List Char} {t : Text} (follows : Follows marks t) :
    Follows marks (t ++ ['\n']) := by
  rcases t with _ | ⟨d, t⟩
  · intro c head
    obtain rfl : '\n' = c := Option.some.inj head
    exact Or.inr (by decide)
  · exact fun c head => follows c head

end SchemaDiagram

import SchemaDiagram.Proofs.ModelRows

namespace SchemaDiagram

open Text

/-- A text that stays on its row of a model: it has no sign that means something to the scanner or the
outline. -/
structure IsCode (t : Text) : Prop where
  ascii : ∀ c ∈ t, isAscii c
  noString : '"' ∉ t
  inLine : '\n' ∉ t
  noBrace : '{' ∉ t ∧ '}' ∉ t
  noComment : ¬ txt "//" <:+: t
  noBlock : ¬ txt "/*" <:+: t

/-- A line that can be written for a field. -/
structure IsFieldLine (line : Text) : Prop where
  code : IsCode line
  nonempty : line ≠ []
  ends : Stops isBlank line.reverse

/-- A character that is code wherever it stands. -/
def isSafeChar (c : Char) : Bool := isAscii c && !(['"', '\n', '{', '}', '/'].contains c)

section

variable {t u v : Text}

theorem IsCode.of_infix (code : IsCode t) (part : u <:+: t) : IsCode u where
  ascii c member := code.ascii c (part.subset member)
  noString member := code.noString (part.subset member)
  inLine member := code.inLine (part.subset member)
  noBrace := ⟨fun member => code.noBrace.1 (part.subset member), fun member => code.noBrace.2 (part.subset member)⟩
  noComment inside := code.noComment (inside.trans part)
  noBlock inside := code.noBlock (inside.trans part)

theorem isCode_of_safe (safe : ∀ c ∈ t, isSafeChar c) : IsCode t := by
  have excluded {c : Char} (member : c ∈ t) : isAscii c = true ∧
      (c ≠ '"' ∧ c ≠ '\n' ∧ c ≠ '{' ∧ c ≠ '}' ∧ c ≠ '/') := by
    simpa [isSafeChar] using safe c member
  refine ⟨fun c member => (excluded member).1, fun member => (excluded member).2.1 rfl,
    fun member => (excluded member).2.2.1 rfl, ⟨fun member => (excluded member).2.2.2.1 rfl,
      fun member => (excluded member).2.2.2.2.1 rfl⟩, fun inside => ?_, fun inside => ?_⟩
  · exact (excluded (inside.subset (by decide : '/' ∈ txt "//"))).2.2.2.2.2 rfl
  · exact (excluded (inside.subset (by decide : '/' ∈ txt "/*"))).2.2.2.2.2 rfl

theorem pair_infix_append {a b : Char} (inside : [a, b] <:+: u ++ v) :
    [a, b] <:+: u ∨ [a, b] <:+: v ∨ u.getLast? = some a ∧ v.head? = some b := by
  induction u with
  | nil => exact Or.inr (Or.inl inside)
  | cons c u ih =>
    rcases List.infix_cons_iff.mp inside with here | later
    · obtain ⟨rest, whole⟩ := here
      obtain ⟨rfl, more⟩ := List.cons_eq_cons.mp whole
      rcases u with _ | ⟨d, u⟩
      · have rest' : b :: rest = v := more
        exact Or.inr (Or.inr ⟨rfl, by rw [← rest']; rfl⟩)
      · obtain ⟨rfl, -⟩ := List.cons_eq_cons.mp more
        exact Or.inl ⟨[], u, rfl⟩
    · rcases ih later with inFront | inBack | ⟨last, head⟩
      · exact Or.inl (inFront.trans (List.suffix_cons c u).isInfix)
      · exact Or.inr (Or.inl inBack)
      · refine Or.inr (Or.inr ⟨?_, head⟩)
        rw [List.getLast?_cons, last]
        rfl

/-- Pieces of code can be put together, but for two that make the sign of a comment where they meet. -/
theorem IsCode.append (first : IsCode u) (second : IsCode v)
    (apart : u.getLast? = some '/' → v.head? ≠ some '/' ∧ v.head? ≠ some '*') : IsCode (u ++ v) where
  ascii c member := (List.mem_append.mp member).elim (first.ascii c) (second.ascii c)
  noString member := (List.mem_append.mp member).elim first.noString second.noString
  inLine member := (List.mem_append.mp member).elim first.inLine second.inLine
  noBrace := ⟨fun member => (List.mem_append.mp member).elim first.noBrace.1 second.noBrace.1,
    fun member => (List.mem_append.mp member).elim first.noBrace.2 second.noBrace.2⟩
  noComment inside := by
    rcases pair_infix_append inside with inFront | inBack | ⟨last, head⟩
    · exact first.noComment inFront
    · exact second.noComment inBack
    · exact (apart last).1 head
  noBlock inside := by
    rcases pair_infix_append inside with inFront | inBack | ⟨last, head⟩
    · exact first.noBlock inFront
    · exact second.noBlock inBack
    · exact (apart last).2 head

/-- White space and marks keep the pieces apart. -/
theorem IsCode.append_safe {c : Char} (first : IsCode u) (safe : isSafeChar c) (noStar : c ≠ '*')
    (second : IsCode v) : IsCode (u ++ c :: v) := by
  have noSlash : c ≠ '/' := by
    rintro rfl
    simp [isSafeChar] at safe
  have rest : IsCode ([c] ++ v) := (isCode_of_safe (by simpa using safe)).append second (by simp [noSlash])
  exact first.append rest (by simp [noSlash, noStar])

theorem IsCode.only (code : IsCode t) : OnlyLineComments t :=
  ⟨code.ascii, code.noString, isChain_noBlock code.noBlock⟩

theorem IsCode.commentAfter (code : IsCode t) : commentAfter false t = false := by
  induction t with
  | nil => rfl
  | cons c t ih =>
    have later := ih (code.of_infix (List.suffix_cons c t).isInfix)
    have opens : opensComment c t = false := by
      refine Bool.eq_false_iff.mpr fun opens => code.noComment ?_
      obtain ⟨rfl, head⟩ : c = '/' ∧ t.head? = some '/' := by simpa [opensComment] using opens
      obtain ⟨more, rfl⟩ := List.head?_eq_some_iff.mp head
      exact ⟨[], more, rfl⟩
    rw [SchemaDiagram.commentAfter, opens, Bool.or_false, later, ite_self]

theorem IsCode.blankFrom (code : IsCode t) : blankFrom false t = t :=
  blankFrom_eq_self code.inLine code.commentAfter

theorem IsCode.isBodyRow (code : IsCode t) : IsBodyRow t :=
  ⟨code.only, code.inLine, by rw [code.blankFrom]; exact code.noBrace⟩

/-- Blanking a comment brings no two signs together, and takes its own sign apart. -/
theorem pair_infix_blankFrom {a b : Char} {inComment : Bool} (visible : a ≠ ' ' ∧ b ≠ ' ')
    (inside : [a, b] <:+: SchemaDiagram.blankFrom inComment t) : [a, b] <:+: t ∧ ¬(a = '/' ∧ b = '/') := by
  induction t generalizing inComment with
  | nil => exact absurd (List.infix_nil.mp inside) (by simp)
  | cons c t ih =>
    have lift {inComment' : Bool} (later : [a, b] <:+: SchemaDiagram.blankFrom inComment' t) :
        [a, b] <:+: c :: t ∧ ¬(a = '/' ∧ b = '/') :=
      ⟨(ih later).1.trans (List.suffix_cons c t).isInfix, (ih later).2⟩
    have front {d : Char} {inComment' : Bool}
        (begins : [a, b] <+: d :: SchemaDiagram.blankFrom inComment' t) : a = d ∧ t.head? = some b := by
      obtain ⟨rfl, next⟩ := List.cons_prefix_cons.mp begins
      refine ⟨rfl, ?_⟩
      rcases t with _ | ⟨e, t⟩
      · exact absurd (List.prefix_nil.mp next) (by simp)
      · rw [SchemaDiagram.blankFrom] at next
        split at next
        · rw [(List.cons_prefix_cons.mp next).1]
          rfl
        · split at next
          · exact absurd (List.cons_prefix_cons.mp next).1 visible.2
          · rw [(List.cons_prefix_cons.mp next).1]
            rfl
    have pair (head : t.head? = some b) : [c, b] <:+: c :: t := by
      obtain ⟨more, rfl⟩ := List.head?_eq_some_iff.mp head
      exact ⟨[], more, rfl⟩
    rw [SchemaDiagram.blankFrom] at inside
    split at inside
    · rename_i newline
      rcases List.infix_cons_iff.mp inside with here | later
      · obtain ⟨rfl, head⟩ := front here
        exact ⟨pair head, fun both => absurd (newline.symm.trans both.1) (by decide)⟩
      · exact lift later
    · split at inside
      · rcases List.infix_cons_iff.mp inside with here | later
        · exact absurd (front here).1 visible.1
        · exact lift later
      · rename_i noComment
        rcases List.infix_cons_iff.mp inside with here | later
        · obtain ⟨rfl, head⟩ := front here
          refine ⟨pair head, ?_⟩
          rintro ⟨rfl, rfl⟩
          simp [opensComment, head] at noComment
        · exact lift later

/-- A row without its comment is code. -/
theorem IsBodyRow.isCode (plain : IsBodyRow t) : IsCode (SchemaDiagram.blankFrom false t) where
  ascii := isAscii_blankFrom plain.only.ascii
  noString member := (mem_blankFrom member).elim plain.only.noString (by decide)
  inLine := not_newline_blankFrom plain.inLine
  noBrace := plain.noBrace
  noComment inside := (pair_infix_blankFrom (by decide) inside).2 ⟨rfl, rfl⟩
  noBlock inside := noBlock_of_isChain plain.only.noBlock (pair_infix_blankFrom (by decide) inside).1

end

end SchemaDiagram

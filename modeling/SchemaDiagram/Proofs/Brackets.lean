import Mathlib.Data.List.Infix
import SchemaDiagram.Source.Outline

namespace SchemaDiagram

open Text

/-- Read from some depth on, a text has no closing bracket that brings the depth to zero. -/
def StaysOpen (opening closing : Char) (depth : Nat) (t : Text) : Prop :=
  ∀ part, part <+: t → part.count closing < depth + part.count opening

/-- A text from its opening bracket to the closing one: the brackets balance, and not before the end. -/
def IsBracketed (opening closing : Char) (t : Text) : Prop :=
  t.count opening = t.count closing ∧
    ∀ part, part <+: t → part ≠ [] → part ≠ t → part.count closing < part.count opening

instance (opening closing : Char) (depth : Nat) (t : Text) : Decidable (StaysOpen opening closing depth t) :=
  decidable_of_iff (∀ part ∈ t.inits, part.count closing < depth + part.count opening) (by simp [StaysOpen])

instance (opening closing : Char) (t : Text) : Decidable (IsBracketed opening closing t) :=
  decidable_of_iff (t.count opening = t.count closing ∧
    ∀ part ∈ t.inits, part ≠ [] → part ≠ t → part.count closing < part.count opening) (by simp [IsBracketed])

/-- The depth behind a character. -/
def depthAfter (opening closing : Char) (depth : Nat) (c : Char) : Nat :=
  if c = opening then depth + 1 else if c = closing then depth - 1 else depth

section

variable {opening closing : Char} {depth : Nat}

theorem depthAfter_balance (differ : opening ≠ closing) (positive : 0 < depth) (c : Char) (t : Text) :
    depthAfter opening closing depth c + (c :: t).count closing + t.count opening =
      depth + (c :: t).count opening + t.count closing := by
  unfold depthAfter
  by_cases opens : c = opening
  · subst opens
    simp [differ]
    omega
  by_cases closes : c = closing
  · subst closes
    simp [opens]
    omega
  · simp [opens, closes]
    omega

theorem StaysOpen.positive {t : Text} (stays : StaysOpen opening closing depth t) : 0 < depth := by
  have atStart := stays [] List.nil_prefix
  simpa using atStart

theorem staysOpen_nil (positive : 0 < depth) : StaysOpen opening closing depth [] := by
  intro part before
  obtain rfl := List.prefix_nil.mp before
  simpa using positive

theorem StaysOpen.mono {deeper : Nat} {t : Text} (stays : StaysOpen opening closing depth t)
    (below : depth ≤ deeper) : StaysOpen opening closing deeper t := by
  intro part before
  have here := stays part before
  omega

theorem staysOpen_cons_iff (differ : opening ≠ closing) {c : Char} {t : Text} :
    StaysOpen opening closing depth (c :: t) ↔
      0 < depth ∧ StaysOpen opening closing (depthAfter opening closing depth c) t := by
  constructor
  · intro stays
    refine ⟨stays.positive, ?_⟩
    intro part before
    have balance := depthAfter_balance differ stays.positive c part
    have here := stays (c :: part) (List.cons_prefix_cons.mpr ⟨rfl, before⟩)
    omega
  · rintro ⟨positive, later⟩ part before
    rcases part with _ | ⟨d, part⟩
    · simpa using positive
    · obtain ⟨rfl, inner⟩ := List.cons_prefix_cons.mp before
      have balance := depthAfter_balance differ positive d part
      have here := later part inner
      omega

/-- A text leaves a bracket open, or else has a first bracket that closes it. -/
theorem staysOpen_or_closes (differ : opening ≠ closing) (positive : 0 < depth) (t : Text) :
    StaysOpen opening closing depth t ∨ ∃ inner rest, t = inner ++ closing :: rest ∧
      StaysOpen opening closing depth inner ∧
      depth + inner.count opening = inner.count closing + 1 := by
  induction t generalizing depth with
  | nil => exact Or.inl (staysOpen_nil positive)
  | cons c t ih =>
    by_cases inside : 0 < depthAfter opening closing depth c
    · rcases ih inside with stays | ⟨inner, rest, rfl, stays, closes⟩
      · exact Or.inl ((staysOpen_cons_iff differ).mpr ⟨positive, stays⟩)
      · have balance := depthAfter_balance differ positive c inner
        exact Or.inr ⟨c :: inner, rest, rfl, (staysOpen_cons_iff differ).mpr ⟨positive, stays⟩, by omega⟩
    · -- only a closing bracket lowers the depth, so this is the one that closes
      have closes : c = closing ∧ depth = 1 := by
        unfold depthAfter at inside
        split at inside
        · omega
        · split at inside
          · exact ⟨by assumption, by omega⟩
          · omega
      obtain ⟨rfl, rfl⟩ := closes
      exact Or.inr ⟨[], t, rfl, staysOpen_nil positive, by simp⟩

theorem isBracketed_of_staysOpen (differ : opening ≠ closing) {inner : Text}
    (stays : StaysOpen opening closing 1 inner) (balance : inner.count opening = inner.count closing) :
    IsBracketed opening closing (opening :: inner ++ [closing]) := by
  refine ⟨by simp [differ, differ.symm]; omega, ?_⟩
  intro part before nonempty proper
  rcases part with _ | ⟨c, part⟩
  · exact absurd rfl nonempty
  obtain ⟨rfl, within⟩ := List.cons_prefix_cons.mp before
  rcases List.prefix_concat_iff.mp within with whole | within
  · exact absurd (by rw [whole]; rfl) proper
  · have here := stays part within
    simp [differ]
    omega

theorem IsBracketed.staysOpen (differ : opening ≠ closing) {inner : Text}
    (block : IsBracketed opening closing (opening :: inner ++ [closing])) :
    StaysOpen opening closing 1 inner ∧ inner.count opening = inner.count closing := by
  obtain ⟨balance, proper⟩ := block
  refine ⟨?_, by simpa [differ, differ.symm] using balance⟩
  intro part before
  have inside : opening :: part <+: opening :: inner ++ [closing] :=
    List.cons_prefix_cons.mpr ⟨rfl, before.trans (List.prefix_append inner [closing])⟩
  have here := proper (opening :: part) inside (List.cons_ne_nil _ _) (by
    intro whole
    have length := congrArg List.length whole
    have shorter := before.length_le
    simp at length
    omega)
  simp only [List.count_cons_self, List.count_cons_of_ne differ] at here
  omega

theorem StaysOpen.not_isBracketed (differ : opening ≠ closing) {part t : Text}
    (stays : StaysOpen opening closing 1 t) (before : part <+: t) :
    ¬ IsBracketed opening closing (opening :: part) := by
  rintro ⟨balance, -⟩
  have here := stays part before
  simp [differ] at balance
  omega

end

theorem closingFrom_cons {depth : Nat} {c : Char} (inside : 0 < depthAfter '{' '}' depth c) (offset : Nat)
    (t : Text) :
    closingFrom depth offset (c :: t) =
      closingFrom (depthAfter '{' '}' depth c) (offset + c.utf8Size) t := by
  unfold depthAfter at inside ⊢
  simp only [closingFrom]
  by_cases opens : c = '{'
  · subst opens
    rfl
  rw [if_neg opens, if_neg opens] at *
  by_cases closes : c = '}'
  · rw [if_pos closes] at inside ⊢
    obtain ⟨inner, rfl⟩ : ∃ inner, depth = inner + 2 := ⟨depth - 2, by omega⟩
    subst closes
    rfl
  · rw [if_neg closes, if_neg closes]

/-- A part in which the block stays open is passed over. Only its depth is kept. -/
theorem closingFrom_append {depth : Nat} {part : Text} (stays : StaysOpen '{' '}' depth part) (offset : Nat)
    (rest : Text) :
    closingFrom depth offset (part ++ rest) =
      closingFrom (depth + part.count '{' - part.count '}') (offset + byteSize part) rest := by
  induction part generalizing depth offset with
  | nil => simp
  | cons c part ih =>
    obtain ⟨positive, later⟩ := (staysOpen_cons_iff (by decide)).mp stays
    have balance := depthAfter_balance (by decide : '{' ≠ '}') positive c part
    have level : depthAfter '{' '}' depth c + part.count '{' - part.count '}' =
        depth + (c :: part).count '{' - (c :: part).count '}' := by omega
    rw [List.cons_append, closingFrom_cons later.positive, ih later, level, byteSize_cons, Nat.add_assoc]

theorem closingFrom_eq_none {depth : Nat} {t : Text} (stays : StaysOpen '{' '}' depth t) (offset : Nat) :
    closingFrom depth offset t = none := by
  have whole := closingFrom_append stays offset []
  rw [List.append_nil] at whole
  rw [whole, closingFrom]

theorem closingFrom_eq_some {depth : Nat} {inner : Text} (stays : StaysOpen '{' '}' depth inner)
    (closes : depth + inner.count '{' = inner.count '}' + 1) (offset : Nat) (rest : Text) :
    closingFrom depth offset (inner ++ '}' :: rest) = some (offset + byteSize inner) := by
  have level : depth + inner.count '{' - inner.count '}' = 1 := by omega
  rw [closingFrom_append stays, level]
  rfl

theorem staysOpen_of_not_mem {u : Text} {depth : Nat} (positive : 0 < depth) (none : '}' ∉ u) :
    StaysOpen '{' '}' depth u := by
  intro part before
  rw [List.count_eq_zero.mpr fun member => none (before.subset member)]
  omega

theorem blockEnd_opening (before rest : Text) :
    blockEnd (before ++ '{' :: rest) (byteSize before) = closingFrom 1 (byteSize before + 1) rest := by
  rw [blockEnd, dropBytes_byteSize_append]
  simp only [byteSize_append, Nat.add_sub_cancel, closingFrom, if_true]

theorem blockEnd_eq_some {inner : Text} (stays : StaysOpen '{' '}' 1 inner)
    (balance : inner.count '{' = inner.count '}') (before after : Text) :
    blockEnd (before ++ '{' :: (inner ++ '}' :: after)) (byteSize before) =
      some (byteSize before + 1 + byteSize inner) := by
  rw [blockEnd_opening, closingFrom_eq_some stays (by omega)]

/-- What the search for the closing brace finds behind an opening one. -/
theorem blockEnd_cases (before rest : Text) :
    (StaysOpen '{' '}' 1 rest ∧ blockEnd (before ++ '{' :: rest) (byteSize before) = none) ∨
      ∃ inner after, rest = inner ++ '}' :: after ∧ StaysOpen '{' '}' 1 inner ∧
        inner.count '{' = inner.count '}' ∧
        blockEnd (before ++ '{' :: rest) (byteSize before) = some (byteSize before + 1 + byteSize inner) := by
  have differ : '{' ≠ '}' := by decide
  rcases staysOpen_or_closes differ Nat.one_pos rest with stays | ⟨inner, after, rfl, stays, closes⟩
  · exact Or.inl ⟨stays, by rw [blockEnd_opening, closingFrom_eq_none stays]⟩
  · exact Or.inr ⟨inner, after, rfl, stays, by omega, blockEnd_eq_some stays (by omega) before after⟩

end SchemaDiagram

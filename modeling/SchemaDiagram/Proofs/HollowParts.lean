import SchemaDiagram.Proofs.FieldEdits

namespace SchemaDiagram

open Text

/-- The parts of a text without what stands between the braces of the first declaration of each of some models.
A declaration that is not closed stays whole. -/
def hollow (models : List Text) : List Part → List Part
  | [] => []
  | p :: later =>
    if p.keyword = .model ∧ p.name ∈ models then
      (if p.closed then { p with body := [] } else p) :: hollow (models.filter (· ≠ p.name)) later
    else p :: hollow models later

/-- Who leaves a body out does not see that it is exchanged. -/
theorem hollow_exchange {models : List Text} {ps : List Part} {model : Text} {earlier later : List Part} {part : Part}
    (at' : ModelAt ps model earlier part later) (closed : part.closed = true) (listed : model ∈ models) (body : Text) :
    hollow models (earlier ++ { part with body } :: later) = hollow models ps := by
  obtain ⟨rfl, keyword, name, first⟩ := at'
  induction earlier generalizing models with
  | nil =>
    have here : part.keyword = .model ∧ part.name ∈ models := ⟨keyword, name ▸ listed⟩
    rw [List.nil_append, List.nil_append, hollow, hollow, if_pos here, if_pos here, if_pos closed, if_pos closed]
  | cons p earlier ih =>
    obtain ⟨other, rest⟩ := List.forall_mem_cons.mp first
    rw [List.cons_append, List.cons_append, hollow, hollow]
    by_cases taken : p.keyword = .model ∧ p.name ∈ models
    · have differ : model ≠ p.name := fun same => other ⟨taken.1, same.symm⟩
      rw [if_pos taken, if_pos taken, ih (List.mem_filter.mpr ⟨listed, by simpa using differ⟩) rest]
    · rw [if_neg taken, if_neg taken, ih listed rest]

/-- Edits of some models leave everything else as it is. -/
theorem IsPlainText.hollow_runEdits {t : Text} (plain : IsPlainText t) {models : List Text} {edits : List FieldEdit}
    (writable : ∀ e ∈ edits, e.field.IsWritable) (listed : ∀ e ∈ edits, e.model ∈ models) :
    hollow models (parts (runEdits t edits)) = hollow models (parts t) := by
  induction edits generalizing t with
  | nil => rfl
  | cons e edits ih =>
    obtain ⟨here, later⟩ := List.forall_mem_cons.mp writable
    obtain ⟨inModels, listedLater⟩ := List.forall_mem_cons.mp listed
    have step : hollow models (parts (e.run t)) = hollow models (parts t) := by
      cases found : modelRows? t e.model with
      | none => rw [FieldEdit.run, editModel_of_none found]
      | some rs =>
        obtain ⟨-, -, earlier, part, rest, at', closed, -, edited⟩ :=
          plain.editModel found (e.apply_isBodyRows here (plain.modelRows found))
        rw [FieldEdit.run, edited, hollow_exchange at' closed inModels]
    exact (ih (plain.edited_singleton here).plain later listedLater).trans step

/-- The rows of the first declaration of a model among some parts, if it is closed. -/
def rowsIn? (ps : List Part) (model : Text) : Option (List Text) :=
  (ps.find? fun p => p.keyword = .model && p.name = model).bind fun p => if p.closed then some (rows p.body) else none

theorem rowsIn?_cons_of_ne {p : Part} {ps : List Part} {model : Text} (other : ¬(p.keyword = .model ∧ p.name = model)) :
    rowsIn? (p :: ps) model = rowsIn? ps model := by
  rw [rowsIn?, List.find?_cons_of_neg (by simpa using other)]
  rfl

theorem rowsIn?_cons_of_eq {p : Part} {ps : List Part} (keyword : p.keyword = .model) :
    rowsIn? (p :: ps) p.name = if p.closed then some (rows p.body) else none := by
  rw [rowsIn?, List.find?_cons_of_pos (by simp [keyword])]
  rfl

theorem rows_inj {u v : Text} (same : rows u = rows v) : u = v := by
  rw [← joinRows_rows u, same, joinRows_rows]

theorem hollow_cons_inj {models : List Text} {p q : Part} {ps qs : List Part}
    (same : hollow models (p :: ps) = hollow models (q :: qs)) :
    (p.keyword = q.keyword ∧ p.name = q.name ∧ p.closed = q.closed ∧ p.lead = q.lead) ∧
      (p.body = q.body ∨ (p.keyword = .model ∧ p.name ∈ models) ∧ p.closed) ∧
        if p.keyword = .model ∧ p.name ∈ models then
          hollow (models.filter (· ≠ p.name)) ps = hollow (models.filter (· ≠ p.name)) qs
        else hollow models ps = hollow models qs := by
  obtain ⟨keyword, name, closed, lead, body⟩ := p
  obtain ⟨keyword', name', closed', lead', body'⟩ := q
  rw [hollow, hollow] at same
  dsimp only at same ⊢
  by_cases taken : keyword = .model ∧ name ∈ models
  · rw [if_pos taken] at same
    rw [if_pos taken]
    by_cases taken' : keyword' = .model ∧ name' ∈ models
    · rw [if_pos taken'] at same
      obtain ⟨heads, tails⟩ := List.cons_eq_cons.mp same
      have both : keyword = keyword' := taken.1.trans taken'.1.symm
      cases closed <;> cases closed' <;> simp at heads
      · obtain ⟨rfl, rfl, rfl⟩ := heads.2
        exact ⟨⟨both, rfl, rfl, rfl⟩, Or.inl rfl, tails⟩
      · obtain ⟨rfl, rfl⟩ := heads.2
        exact ⟨⟨both, rfl, rfl, rfl⟩, Or.inr ⟨taken, rfl⟩, tails⟩
    · rw [if_neg taken'] at same
      obtain ⟨heads, -⟩ := List.cons_eq_cons.mp same
      cases closed <;> obtain ⟨rfl, rfl, -⟩ := Part.mk.inj heads <;> exact absurd taken taken'
  · rw [if_neg taken] at same
    rw [if_neg taken]
    by_cases taken' : keyword' = .model ∧ name' ∈ models
    · rw [if_pos taken'] at same
      obtain ⟨heads, -⟩ := List.cons_eq_cons.mp same
      cases closed' <;> obtain ⟨rfl, rfl, -⟩ := Part.mk.inj heads <;> exact absurd taken' taken
    · rw [if_neg taken'] at same
      obtain ⟨heads, tails⟩ := List.cons_eq_cons.mp same
      obtain ⟨rfl, rfl, rfl, rfl, rfl⟩ := Part.mk.inj heads
      exact ⟨⟨rfl, rfl, rfl, rfl⟩, Or.inl rfl, tails⟩

/-- Two lists of parts are the same if they agree outside of some bodies and in the rows of these. -/
theorem parts_ext {models : List Text} {ps qs : List Part} (outside : hollow models ps = hollow models qs)
    (inside : ∀ model ∈ models, rowsIn? ps model = rowsIn? qs model) : ps = qs := by
  induction ps generalizing models qs with
  | nil =>
    cases qs with
    | nil => rfl
    | cons q qs =>
      rw [hollow, hollow] at outside
      split at outside <;> cases outside
  | cons p ps ih =>
    cases qs with
    | nil =>
      rw [hollow, hollow] at outside
      split at outside <;> cases outside
    | cons q qs =>
      obtain ⟨⟨keyword, name, closed, lead⟩, bodies, later⟩ := hollow_cons_inj outside
      have body : p.body = q.body := by
        rcases bodies with same | ⟨⟨isModel, listed⟩, isClosed⟩
        · exact same
        · have here := inside p.name listed
          rw [rowsIn?_cons_of_eq isModel, name, rowsIn?_cons_of_eq (keyword ▸ isModel), ← closed, if_pos isClosed,
            if_pos isClosed] at here
          exact rows_inj (Option.some.inj here)
      have rest {model : Text} (listed : model ∈ models) (other : ¬(p.keyword = .model ∧ p.name = model)) :
          rowsIn? ps model = rowsIn? qs model := by
        have here := inside model listed
        rwa [rowsIn?_cons_of_ne other, rowsIn?_cons_of_ne (by rwa [← keyword, ← name])] at here
      have tail : ps = qs := by
        split at later
        · refine ih later fun model listed => ?_
          obtain ⟨inModels, differ⟩ := List.mem_filter.mp listed
          exact rest inModels fun both => by simp [both.2] at differ
        · rename_i untaken
          exact ih later fun model listed => rest listed fun both => untaken ⟨both.1, both.2 ▸ listed⟩
      rw [tail]
      obtain ⟨_, _, _, _, _⟩ := p
      obtain ⟨_, _, _, _, _⟩ := q
      simp_all

/-- Two texts are the same if they agree outside of some models and in the rows of these. -/
theorem IsPlainText.text_ext {t t' : Text} (plain : IsPlainText t) (plain' : IsPlainText t') {models : List Text}
    (outside : hollow models (parts t) = hollow models (parts t')) (after : afterParts t = afterParts t')
    (inside : ∀ model ∈ models, modelRows? t model = modelRows? t' model) : t = t' := by
  have same : parts t = parts t' := parts_ext outside fun model listed => by
    have here := inside model listed
    rwa [modelRows?_eq, modelRows?_eq] at here
  rw [← flatMap_parts plain.ascii, same, after, flatMap_parts plain'.ascii]

end SchemaDiagram

import SchemaDiagram.Proofs.HollowParts
import SchemaDiagram.Proofs.SettledRows

namespace SchemaDiagram

open Text

/-- Edits that leave all rows of their models leave the text. -/
theorem IsPlainText.runEdits_self {t : Text} (plain : IsPlainText t) {edits : List FieldEdit}
    (writable : ∀ e ∈ edits, e.field.IsWritable)
    (idle : ∀ model rs, modelRows? t model = some rs → rowsAfter edits model rs = rs) : runEdits t edits = t := by
  have edited := plain.edited writable
  refine edited.plain.text_ext plain (plain.hollow_runEdits writable fun e member => List.mem_map_of_mem member)
    edited.after fun model _ => ?_
  rw [edited.rows]
  cases found : modelRows? t model with
  | none => rfl
  | some rs => rw [Option.map_some, idle model rs found]

/-- An edit that changes nothing, as its field must not be replaced. -/
def FieldEdit.IsIdle (e : FieldEdit) : Prop := e.replaces = true ∧ e.field.name = protectedField

theorem FieldEdit.IsIdle.apply {e : FieldEdit} (idle : e.IsIdle) (rs : List Text) : e.apply rs = rs := by
  simp [FieldEdit.apply, idle.1, idle.2]

theorem rowsAfter_append (first later : List FieldEdit) (model : Text) (rs : List Text) :
    rowsAfter (first ++ later) model rs = rowsAfter later model (rowsAfter first model rs) := by
  rw [rowsAfter, List.filter_append, List.foldl_append]
  rfl

theorem rowsAfter_idle {edits : List FieldEdit} (idle : ∀ e ∈ edits, e.IsIdle) (model : Text) (rs : List Text) :
    rowsAfter edits model rs = rs := by
  induction edits generalizing rs with
  | nil => rfl
  | cons e edits ih =>
    obtain ⟨here, later⟩ := List.forall_mem_cons.mp idle
    rw [rowsAfter_cons, here.apply, ite_self, ih later]

theorem rowsAfter_isBodyRows {edits : List FieldEdit} (writable : ∀ e ∈ edits, e.field.IsWritable) (model : Text)
    {rs : List Text} (plain : IsBodyRows rs) : IsBodyRows (rowsAfter edits model rs) := by
  induction edits generalizing rs with
  | nil => exact plain
  | cons e edits ih =>
    obtain ⟨here, later⟩ := List.forall_mem_cons.mp writable
    rw [rowsAfter_cons]
    split
    · exact ih later (e.apply_isBodyRows here plain)
    · exact ih later plain

/-- Edits put no name alone in front of the closing brace. -/
theorem EndsApart.rowsAfter {key : Text} (word : IsWord key) {edits : List FieldEdit}
    (writable : ∀ e ∈ edits, e.field.IsWritable) (named : ∀ e ∈ edits, e.field.name ≠ []) (model : Text) {rs : List Text}
    (plain : IsBodyRows rs) (apart : EndsApart key rs) : EndsApart key (rowsAfter edits model rs) := by
  induction edits generalizing rs with
  | nil => exact apart
  | cons e edits ih =>
    obtain ⟨writableHere, writableLater⟩ := List.forall_mem_cons.mp writable
    obtain ⟨namedHere, namedLater⟩ := List.forall_mem_cons.mp named
    rw [rowsAfter_cons]
    split
    · exact ih writableLater namedLater (e.apply_isBodyRows writableHere plain)
        (apart.apply word writableHere namedHere plain.nonempty)
    · exact ih writableLater namedLater plain apart

/-- An edit that can be made once more: it replaces a field that has a name. -/
structure FieldEdit.IsUpsert (e : FieldEdit) : Prop where
  writable : e.field.IsWritable
  named : e.field.name ≠ []
  replaces : e.replaces = true

namespace FieldEdit.IsUpsert

variable {e g : FieldEdit} {rs : List Text}

theorem cases (upsert : e.IsUpsert) :
    (∀ rs, e.apply rs = rs) ∨ ∀ rs, e.apply rs = upsertRow e.field.name e.field.render rs := by
  by_cases protected' : e.field.name = protectedField
  · exact Or.inl (FieldEdit.IsIdle.apply ⟨upsert.replaces, protected'⟩)
  · exact Or.inr fun rs => by simp [FieldEdit.apply, upsert.replaces, protected']

theorem apart (upsert : g.IsUpsert) {name : Text} (word : IsWord name) (plain : IsBodyRows rs)
    (apart : EndsApart name rs) : EndsApart name (g.apply rs) :=
  EndsApart.apply word upsert.writable upsert.named plain.nonempty apart

/-- To make an edit twice is to make it once. -/
theorem apply_apply (upsert : e.IsUpsert) (plain : IsBodyRows rs) (apart : EndsApart e.field.name rs) :
    e.apply (e.apply rs) = e.apply rs := by
  rcases upsert.cases with idle | updates
  · rw [idle, idle]
  · rw [updates rs, updates]
    exact (settled_upsertRow upsert.writable upsert.named plain apart).stays

/-- To make two edits twice is to make them once, also if they take the same place. -/
theorem apply_pair (upsert : e.IsUpsert) (other : g.IsUpsert) (plain : IsBodyRows rs)
    (apart : EndsApart e.field.name rs) (apartOther : EndsApart g.field.name rs) :
    g.apply (e.apply (g.apply (e.apply rs))) = g.apply (e.apply rs) := by
  have wordOther := other.writable.name.isWord other.named
  have plainOnce := e.apply_isBodyRows upsert.writable plain
  have apartOnce := upsert.apart wordOther plain apartOther
  rcases upsert.cases with idle | updates
  · rw [idle, idle, other.apply_apply plain apartOther]
  rcases other.cases with idle | updatesOther
  · rw [idle, idle, upsert.apply_apply plain apart]
  obtain ⟨once, atOnce⟩ : ∃ once, once = e.apply rs := ⟨_, rfl⟩
  have settled : Settled e.field.name e.field.render once := by
    rw [atOnce, updates]
    exact settled_upsertRow upsert.writable upsert.named plain apart
  rw [← atOnce] at plainOnce apartOnce ⊢
  have settledOther := settled_upsertRow other.writable other.named plainOnce apartOnce
  have plainTwice := g.apply_isBodyRows other.writable plainOnce
  rw [updatesOther] at plainTwice
  rw [updatesOther once, updates, updatesOther]
  by_cases same : e.field.name = g.field.name
  · exact settledOther.returns other.named plainTwice upsert.writable same
  · have kept := settled.upserted upsert.writable upsert.named plainOnce other.writable other.named same
    rw [kept.stays, settledOther.stays]

end FieldEdit.IsUpsert

section

variable {e g : FieldEdit} {rs : List Text} {model : Text} (upsert : e.IsUpsert) (plain : IsBodyRows rs)
  (apart : e.model = model → EndsApart e.field.name rs)

include upsert plain apart

theorem rowsAfter_repeat : rowsAfter [e] model (rowsAfter [e] model rs) = rowsAfter [e] model rs := by
  simp only [rowsAfter_cons]
  split
  · rename_i here
    exact upsert.apply_apply plain (apart here)
  · rfl

theorem rowsAfter_repeat_pair (other : g.IsUpsert) (apartOther : g.model = model → EndsApart g.field.name rs) :
    rowsAfter [e, g] model (rowsAfter [e, g] model rs) = rowsAfter [e, g] model rs := by
  simp only [rowsAfter_cons]
  by_cases here : e.model = model <;> by_cases there : g.model = model <;> simp only [here, there, if_true, if_false]
  · exact upsert.apply_pair other plain (apart here) (apartOther there)
  · exact upsert.apply_apply plain (apart here)
  · exact other.apply_apply plain (apartOther there)
  · rfl

end

end SchemaDiagram

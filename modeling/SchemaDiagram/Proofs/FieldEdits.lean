import SchemaDiagram.Proofs.PlainFields
import SchemaDiagram.Proofs.ShownLines

namespace SchemaDiagram

open Text

/-- A field that is put into a model: in the place of one of its name, or else behind all others. -/
structure FieldEdit where
  model : Text
  field : Field
  replaces : Bool
  deriving DecidableEq

namespace FieldEdit

/-- What an edit does to the rows of its model. -/
def apply (e : FieldEdit) (rs : List Text) : List Text :=
  if !e.replaces then insertRow e.field.render rs
  else if e.field.name = protectedField then rs
  else upsertRow e.field.name e.field.render rs

def run (t : Text) (e : FieldEdit) : Text := editModel t e.model e.apply

end FieldEdit

def runEdits (t : Text) (edits : List FieldEdit) : Text := edits.foldl FieldEdit.run t

/-- What some edits do to the rows of one model. -/
def rowsAfter (edits : List FieldEdit) (model : Text) (rs : List Text) : List Text :=
  (edits.filter (·.model = model)).foldl (fun rs e => e.apply rs) rs

/-- What some edits of a text make of a model. A model that is not closed stays as it is. -/
def Model.afterEdits (t : Text) (edits : List FieldEdit) (m : Model) : Model :=
  match modelRows? t m.name with
  | some rs => Model.ofRows m.name (rowsAfter edits m.name rs)
  | none => m

theorem rowsAfter_cons (e : FieldEdit) (edits : List FieldEdit) (model : Text) (rs : List Text) :
    rowsAfter (e :: edits) model rs = rowsAfter edits model (if e.model = model then e.apply rs else rs) := by
  rw [rowsAfter, List.filter_cons]
  by_cases here : e.model = model
  · simp [here, rowsAfter]
  · simp [here, rowsAfter]

theorem rowsAfter_here {e : FieldEdit} {model : Text} (here : e.model = model) (rs : List Text) :
    rowsAfter [e] model rs = e.apply rs := by
  rw [rowsAfter_cons, if_pos here]
  rfl

theorem rowsAfter_elsewhere {e : FieldEdit} {model : Text} (other : e.model ≠ model) (rs : List Text) :
    rowsAfter [e] model rs = rs := by
  rw [rowsAfter_cons, if_neg other]
  rfl

section

variable {e : FieldEdit} (writable : e.field.IsWritable)

include writable

theorem FieldEdit.apply_isBodyRows {rs : List Text} (plain : IsBodyRows rs) : IsBodyRows (e.apply rs) := by
  have code := writable.isFieldLine.code
  unfold FieldEdit.apply
  split
  · exact plain.insertRow code
  · split
    · exact plain
    · exact plain.upsertRow code

end

/-- A closed model is what its rows say. -/
theorem IsPlainText.eq_ofRows {t : Text} (plain : IsPlainText t) {m : Model} (member : m ∈ (Document.parse t).models)
    {rs : List Text} (found : modelRows? t m.name = some rs) : m = Model.ofRows m.name rs := by
  have looked : (Document.parse t).model? m.name = some m :=
    find?_of_mem (Document.parse_isRead t).distinctModels member
  rw [plain.only.model?_eq] at looked
  obtain ⟨p, atPart, same⟩ := Option.map_eq_some_iff.mp looked
  rw [modelRows?_eq, atPart, Option.bind_some] at found
  split at found
  · rw [← Option.some.inj found, same]
  · cases found

/-- What some edits make of a text. -/
structure Edited (t t' : Text) (edits : List FieldEdit) : Prop where
  plain : IsPlainText t'
  after : afterParts t' = afterParts t
  rows : ∀ model, modelRows? t' model = (modelRows? t model).map (rowsAfter edits model)
  models : (Document.parse t').models = (Document.parse t).models.map (Model.afterEdits t edits)

section

variable {t : Text} (plain : IsPlainText t)

include plain

theorem IsPlainText.edited_nil : Edited t t [] := by
  refine ⟨plain, rfl, fun model => ?_, ?_⟩
  · cases modelRows? t model <;> rfl
  · refine (List.map_id _).symm.trans (List.map_congr_left fun m member => ?_)
    unfold Model.afterEdits
    split
    · rename_i rs found
      exact plain.eq_ofRows member found
    · rfl

theorem IsPlainText.edited_of_none {e : FieldEdit} (found : modelRows? t e.model = none) : Edited t (e.run t) [e] := by
  have same : e.run t = t := editModel_of_none found e.apply
  have unchanged {model : Text} {rs : List Text} (atRows : modelRows? t model = some rs) :
      rowsAfter [e] model rs = rs := by
    refine rowsAfter_elsewhere (fun here => ?_) rs
    rw [← here, found] at atRows
    cases atRows
  obtain ⟨-, after, rows, models⟩ := plain.edited_nil
  rw [same]
  refine ⟨plain, after, fun model => ?_, models.trans (List.map_congr_left fun m _ => ?_)⟩
  · cases atRows : modelRows? t model with
    | none => rfl
    | some rs => rw [Option.map_some, unchanged atRows]
  · unfold Model.afterEdits
    split
    · rename_i rs atRows
      rw [unchanged atRows]
      rfl
    · rfl

theorem IsPlainText.edited_of_some {e : FieldEdit} (writable : e.field.IsWritable) {rs : List Text}
    (found : modelRows? t e.model = some rs) : Edited t (e.run t) [e] := by
  have plainRows := e.apply_isBodyRows writable (plain.modelRows found)
  obtain ⟨plain', after, -⟩ := plain.editModel found plainRows
  have edited := plain.modelsEdited found plainRows
  refine ⟨plain', after, fun model => ?_, edited.models.trans (List.map_congr_left fun m member => ?_)⟩
  · by_cases here : e.model = model
    · rw [← here, found, Option.map_some, rowsAfter_here rfl]
      exact edited.rows
    · rw [show rowsAfter [e] model = id from funext (rowsAfter_elsewhere here), Option.map_id]
      exact edited.otherRows model fun same => here same.symm
  · unfold Model.afterEdits
    by_cases here : m.name = e.model
    · rw [if_pos here, here, found]
      simp only [rowsAfter_here rfl]
    · rw [if_neg here]
      split
      · rename_i rs' atRows
        rw [rowsAfter_elsewhere fun same => here same.symm]
        exact plain.eq_ofRows member atRows
      · rfl

theorem IsPlainText.edited_singleton {e : FieldEdit} (writable : e.field.IsWritable) : Edited t (e.run t) [e] := by
  cases found : modelRows? t e.model with
  | none => exact plain.edited_of_none found
  | some rs => exact plain.edited_of_some writable found

end

theorem Edited.trans {t t' t'' : Text} {e : FieldEdit} {edits : List FieldEdit} (first : Edited t t' [e])
    (later : Edited t' t'' edits) : Edited t t'' (e :: edits) := by
  have split (model : Text) (rs : List Text) :
      rowsAfter (e :: edits) model rs = rowsAfter edits model (rowsAfter [e] model rs) := by
    rw [rowsAfter_cons, rowsAfter_cons]
    rfl
  refine ⟨later.plain, later.after.trans first.after, fun model => ?_, ?_⟩
  · rw [later.rows, first.rows, Option.map_map]
    exact Option.map_congr fun rs _ => (split model rs).symm
  · rw [later.models, first.models, List.map_map]
    refine List.map_congr_left fun m _ => ?_
    cases found : modelRows? t m.name with
    | none =>
      have here : Model.afterEdits t [e] m = m := by simp [Model.afterEdits, found]
      have next : modelRows? t' m.name = none := by rw [first.rows, found]; rfl
      rw [Function.comp, here]
      simp [Model.afterEdits, found, next]
    | some rs =>
      have here : Model.afterEdits t [e] m = Model.ofRows m.name (rowsAfter [e] m.name rs) := by
        simp [Model.afterEdits, found]
      have next : modelRows? t' m.name = some (rowsAfter [e] m.name rs) := by rw [first.rows, found]; rfl
      rw [Function.comp, here]
      simp [Model.afterEdits, found, next, Model.ofRows, split]

/-- Edits of fields change nothing but the rows of their models. -/
theorem IsPlainText.edited {t : Text} (plain : IsPlainText t) {edits : List FieldEdit}
    (writable : ∀ e ∈ edits, e.field.IsWritable) : Edited t (runEdits t edits) edits := by
  induction edits generalizing t with
  | nil => exact plain.edited_nil
  | cons e edits ih =>
    obtain ⟨here, later⟩ := List.forall_mem_cons.mp writable
    have first := plain.edited_singleton here
    exact first.trans (ih first.plain later)

end SchemaDiagram

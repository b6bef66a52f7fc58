import SchemaDiagram.Proofs.RelationRun

namespace SchemaDiagram

open Text

/-- What a model has under a name once a field is put into it. -/
def FieldEdit.view (e : FieldEdit) (key : Text) (old : Option Field) : Option Field :=
  if e.field.name = key ∧ key ≠ [] then
    if !e.replaces then old.or (some e.field) else if key = protectedField then old else some e.field
  else old

/-- What a model has under a name after some edits. -/
def viewAfter (edits : List FieldEdit) (model key : Text) (old : Option Field) : Option Field :=
  (edits.filter (·.model = model)).foldl (fun old e => e.view key old) old

theorem viewAfter_cons (e : FieldEdit) (edits : List FieldEdit) (model key : Text) (old : Option Field) :
    viewAfter (e :: edits) model key old =
      viewAfter edits model key (if e.model = model then e.view key old else old) := by
  rw [viewAfter, List.filter_cons]
  by_cases here : e.model = model
  · simp [here, viewAfter]
  · simp [here, viewAfter]

theorem viewAfter_append (first later : List FieldEdit) (model key : Text) (old : Option Field) :
    viewAfter (first ++ later) model key old = viewAfter later model key (viewAfter first model key old) := by
  rw [viewAfter, List.filter_append, List.foldl_append]
  rfl

theorem FieldEdit.field?_apply {e : FieldEdit} (writable : e.field.IsWritable) {rs : List Text}
    (plain : IsBodyRows rs) (model key : Text) :
    (Model.ofRows model (e.apply rs)).field? key = e.view key ((Model.ofRows model rs).field? key) := by
  obtain ⟨model', f, replaces⟩ := e
  by_cases nameless : f.name = []
  · have unseen : ∀ old, FieldEdit.view ⟨model', f, replaces⟩ key old = old :=
      fun old => if_neg fun both => both.2 (both.1.symm.trans nameless)
    have inserted : FieldEdit.apply ⟨model', f, replaces⟩ rs = insertRow f.render rs := by
      cases replaces with
      | false => rfl
      | true => simp [FieldEdit.apply, nameless, upsertRow, hasRow_nil, show ([] : Text) ≠ protectedField by decide]
    rw [unseen, inserted, field?_insertRow_nameless writable plain model nameless]
  · cases replaces with
    | false =>
      refine (field?_insertRow writable plain model nameless key).trans ?_
      by_cases same : f.name = key
      · subst same
        simp [FieldEdit.view, nameless]
      · simp [FieldEdit.view, same]
    | true =>
      by_cases protected' : f.name = protectedField
      · have kept : FieldEdit.apply ⟨model', f, true⟩ rs = rs := by simp [FieldEdit.apply, protected']
        rw [kept, FieldEdit.view]
        by_cases same : f.name = key
        · simp [← same, protected']
        · simp [same]
      · have updated : FieldEdit.apply ⟨model', f, true⟩ rs = upsertRow f.name f.render rs := by
          simp [FieldEdit.apply, protected']
        rw [updated, field?_upsertRow writable plain model nameless, FieldEdit.view]
        by_cases same : f.name = key
        · subst same
          simp [nameless, protected']
        · simp [same]

theorem field?_rowsAfter {edits : List FieldEdit} (writable : ∀ e ∈ edits, e.field.IsWritable) (model : Text)
    {rs : List Text} (plain : IsBodyRows rs) (key : Text) :
    (Model.ofRows model (rowsAfter edits model rs)).field? key =
      viewAfter edits model key ((Model.ofRows model rs).field? key) := by
  induction edits generalizing rs with
  | nil => rfl
  | cons e edits ih =>
    obtain ⟨here, later⟩ := List.forall_mem_cons.mp writable
    rw [rowsAfter_cons, viewAfter_cons]
    by_cases same : e.model = model
    · rw [if_pos same, if_pos same, ih later (e.apply_isBodyRows here plain), FieldEdit.field?_apply here plain]
    · rw [if_neg same, if_neg same, ih later plain]

theorem Model.afterEdits_name (t : Text) (edits : List FieldEdit) (m : Model) : (m.afterEdits t edits).name = m.name := by
  unfold Model.afterEdits
  split <;> rfl

theorem Edited.model? {t t' : Text} {edits : List FieldEdit} (edited : Edited t t' edits) (name : Text) :
    (Document.parse t').model? name = ((Document.parse t).model? name).map (Model.afterEdits t edits) := by
  rw [Document.model?, edited.models, List.find?_map]
  refine congrArg (Option.map _) (congrArg (List.find? · _) (funext fun m => ?_))
  simp only [Function.comp, Model.afterEdits_name]

/-- A model of a text after some edits. If it is not closed it stays as it is. -/
theorem IsPlainText.field?_afterEdits {t : Text} (plain : IsPlainText t) {edits : List FieldEdit}
    (writable : ∀ e ∈ edits, e.field.IsWritable) {m : Model} (member : m ∈ (Document.parse t).models) (key : Text) :
    (m.afterEdits t edits).field? key =
      if (modelRows? t m.name).isSome then viewAfter edits m.name key (m.field? key) else m.field? key := by
  cases found : modelRows? t m.name with
  | none => simp [Model.afterEdits, found]
  | some rs =>
    have read := plain.eq_ofRows member found
    have after : m.afterEdits t edits = Model.ofRows m.name (rowsAfter edits m.name rs) := by
      simp [Model.afterEdits, found]
    rw [after, field?_rowsAfter writable m.name (plain.modelRows found), ← read]
    rfl

section

variable {t : Text}

theorem Document.model?_of_mem {m : Model} (member : m ∈ (Document.parse t).models) :
    (Document.parse t).model? m.name = some m :=
  find?_of_mem (Document.parse_isRead t).distinctModels member

/-- A model has a field if and only if it has it under its name. -/
theorem Model.mem_fields_iff {m : Model} (member : m ∈ (Document.parse t).models) {f : Field} :
    f ∈ m.fields ↔ m.field? f.name = some f :=
  ⟨fun inside => find?_of_mem ((Document.parse_isRead t).models m member).distinct inside,
    fun found => List.mem_of_find?_eq_some found⟩

end

/-- A relation between two models of a text, seen field by field. -/
theorem IsPlainText.related {t : Text} (plain : IsPlainText t) {c : Connection} (request : RelationRequest)
    (hasSource : (Document.parse t).hasModel c.sourceModel) (hasTarget : (Document.parse t).hasModel c.targetModel) :
    ∃ out, addRelation t c request = .ok out ∧ IsPlainText out ∧
      ∀ m ∈ (Document.parse t).models, ∃ m' ∈ (Document.parse out).models, m'.name = m.name ∧ ∀ key,
        m'.field? key =
          if (modelRows? t m.name).isSome then
            viewAfter (relationEdits (Document.parse t) c request) m.name key (m.field? key)
          else m.field? key := by
  have base := plain.extendsBase request hasSource hasTarget
  have writable (e : FieldEdit) (member : e ∈ relationEdits (Document.parse t) c request) : e.field.IsWritable :=
    (plain.writableEdits request hasSource hasTarget e member).1
  have edited := base.plain.edited writable
  refine ⟨_, plain.addRelation_run request hasSource hasTarget, edited.plain, fun m member => ?_⟩
  have found := Document.model?_of_mem member
  have isModel : (Document.parse t).hasModel m.name := by rw [Document.hasModel, found]; rfl
  have inBase := (base.models m.name isModel).trans found
  have memberBase := List.mem_of_find?_eq_some inBase
  have inOut := edited.model? m.name
  rw [inBase, Option.map_some] at inOut
  refine ⟨_, List.mem_of_find?_eq_some inOut, Model.afterEdits_name _ _ m, fun key => ?_⟩
  rw [base.plain.field?_afterEdits writable memberBase, base.rows m.name isModel]

end SchemaDiagram

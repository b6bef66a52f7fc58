import SchemaDiagram.Proofs.KeptFields
import SchemaDiagram.Proofs.OptionalMarks
import SchemaDiagram.Proofs.RelationAttribute
import SchemaDiagram.Proofs.RepeatedRelation

namespace SchemaDiagram

open Text

/-- The built-in types and those that are not supported name no model. -/
theorem namesModel_list {model : Text} (notBuiltIn : model ∉ scalarTypes)
    (supported : (txt "Unsupported").isPrefixOf model = false) : namesModel model true := by
  simp [namesModel, notBuiltIn, supported]

theorem listField_relation {model : Text} (notBuiltIn : model ∉ scalarTypes)
    (supported : (txt "Unsupported").isPrefixOf model = false) (name : Text) : (listField name model).relation = some {} := by
  have list := namesModel_list notBuiltIn supported
  simp [listField, relationOf, list]

theorem relationField_relation {foreignKey referenced : Text} (word : IsWord foreignKey) (wordReferenced : IsWord referenced)
    (name model : Text) (nullable : Bool) : (relationField name model foreignKey referenced nullable).relation =
      some ⟨none, some [foreignKey], some [referenced]⟩ :=
  congrArg some (ofAttribute_relationTag word wordReferenced)

/-- The column that refers to a scalar is one itself. -/
theorem keyColumn_relation {f : Field} (writable : f.IsWritable) (scalar : f.relation = none) (name : Text)
    (nullable unique : Bool) : (keyColumn name f.type nullable unique).relation = none := by
  have noModel : namesModel f.type f.isList = false := by
    have read := writable.relation
    rw [scalar, relationOf] at read
    split at read
    · cases read
    · simpa using read.symm
  have single : namesModel f.type false = false := by
    rw [namesModel, Bool.and_eq_false_iff] at noModel ⊢
    exact noModel.imp_right fun other => (Bool.or_eq_false_iff.mp other).2
  cases unique with
  | false => simp [keyColumn, relationOf, single]
  | true =>
    have other : (txt "@relation").isPrefixOf (txt "@unique") = false := by decide
    simp [keyColumn, relationOf, single, other]

theorem Model.identityName_congr {m m' : Model} (same : m'.fields.filter Field.isId = m.fields.filter Field.isId) :
    m'.identityName = m.identityName := by
  have named (m : Model) : m.identityName = m.markedName?.getD protectedField := m.identityName_eq
  rw [named, named, markedName?_eq, markedName?_eq, same]

section

variable {t : Text} (plain : IsPlainText t) {edits : List FieldEdit} (writable : ∀ e ∈ edits, e.field.IsWritable) {m : Model}
  (isModel : m ∈ (Document.parse t).models)

include plain writable isModel

/-- A field of a model after some edits was there before, or one of the edits has put it there. -/
theorem IsPlainText.mem_afterEdits {f : Field} (inModel : f ∈ (m.afterEdits t edits).fields) :
    f ∈ m.fields ∨ ∃ e ∈ edits, e.model = m.name ∧ f = e.field := by
  have edited := plain.edited writable
  have isModel' : m.afterEdits t edits ∈ (Document.parse (runEdits t edits)).models :=
    edited.models ▸ List.mem_map_of_mem isModel
  have found := (Model.mem_fields_iff isModel').mp inModel
  rw [plain.field?_afterEdits writable isModel] at found
  split at found
  · exact (viewAfter_cases found).imp_left List.mem_of_find?_eq_some
  · exact Or.inl (List.mem_of_find?_eq_some found)

end

/-- An edit leaves the models that it does not name. -/
theorem IsPlainText.afterEdits_self {t : Text} (plain : IsPlainText t) {m : Model} (isModel : m ∈ (Document.parse t).models)
    {edits : List FieldEdit} (other : ∀ e ∈ edits, e.model ≠ m.name) : m.afterEdits t edits = m := by
  unfold Model.afterEdits
  split
  · rename_i rs found
    have none : edits.filter (·.model = m.name) = [] := List.filter_eq_nil_iff.mpr fun e member => by simpa using other e member
    rw [rowsAfter, none]
    exact (plain.eq_ofRows isModel found).symm
  · rfl

/-- The fields that a relation by a key writes have names of their own. -/
structure KeyPlacement.IsNew (p : KeyPlacement) (t : Text) (oneToMany : Bool) : Prop where
  relation : hasField t p.holder p.relationName = false
  relationName : p.relationName ≠ p.foreignKey ∧ p.relationName ≠ protectedField
  list : oneToMany → hasField t p.referenced p.listName = false
  listName : oneToMany → p.listName ≠ p.foreignKey ∧ p.listName ≠ p.relationName

/-- The line of the column can be found by its name: if the column is to become optional, then every line of the holder
that begins with its name is a field. -/
def KeyPlacement.HasPlainColumn (p : KeyPlacement) (t : Text) (nullable : Bool) : Prop :=
  ∀ f ∈ p.column? (Document.parse t), nullable → f.isOptional = false → ∀ rs ∈ modelRows? t p.holder,
    ∀ l ∈ shownLines rs, firstWord? l = some p.foreignKey → (lineField? l).isSome

section

variable {t : Text} (plain : IsPlainText t) {p : KeyPlacement} (sound : p.IsSound (Document.parse t)) (keyed : p.foreignKey ≠ [])
  (letter : ∃ c ∈ p.referenced, isAlphanumeric c) {nullable oneToMany : Bool} (new : p.IsNew t oneToMany)

include plain in
theorem IsPlainText.field?_eq_none {m : Model} (isModel : m ∈ (Document.parse t).models) {rs : List Text}
    (found : modelRows? t m.name = some rs) {field : Text} (free : hasField t m.name field = false) :
    m.field? field = none := by
  cases inModel : m.field? field with
  | none => rfl
  | some f =>
    rw [plain.eq_ofRows isModel found, Model.field?_ofRows] at inModel
    rw [plain.hasField_eq, found, Option.any_some, hasRow_of_linesField? inModel] at free
    cases free

include new in
theorem KeyPlacement.IsNew.fieldEdits : ∀ e ∈ p.fieldEdits nullable oneToMany,
    hasField t e.model e.field.name = false ∧ e.field.name ≠ p.foreignKey := by
  intro e member
  rcases KeyPlacement.mem_fieldEdits member with rfl | ⟨many, rfl⟩
  · exact ⟨new.relation, new.relationName.1⟩
  · exact ⟨new.list many, (new.listName many).1⟩

/-- The field of an edit is there, until another one takes its place. -/
theorem viewAfter_upsert {e : FieldEdit} (replaces : e.replaces) (named : e.field.name ≠ [])
    (free : e.field.name ≠ protectedField) (edits : List FieldEdit) (old : Option Field) :
    viewAfter (e :: edits) e.model e.field.name old = viewAfter edits e.model e.field.name (some e.field) := by
  have view : e.view e.field.name old = some e.field := by simp [FieldEdit.view, named, replaces, free]
  rw [viewAfter_cons, if_pos rfl, view]

/-- The field of an edit is there after all edits, if no other one puts a field of that name into the model. -/
theorem viewAfter_of_mem {edits : List FieldEdit} {e : FieldEdit} (member : e ∈ edits) (replaces : e.replaces)
    (named : e.field.name ≠ []) (free : e.field.name ≠ protectedField)
    (only : ∀ e' ∈ edits, e'.model = e.model → e'.field.name = e.field.name → e' = e) (old : Option Field) :
    viewAfter edits e.model e.field.name old = some e.field := by
  induction edits generalizing old with
  | nil => cases member
  | cons first edits ih =>
    obtain ⟨-, later⟩ := List.forall_mem_cons.mp only
    by_cases again : e ∈ edits
    · rw [viewAfter_cons, ih again later]
    · obtain rfl : e = first := (List.mem_cons.mp member).resolve_right again
      rw [viewAfter_upsert replaces named free]
      exact viewAfter_some (fun e' inside model _ name => absurd (later e' inside model name ▸ inside) again) _

include sound letter new in
theorem KeyPlacement.IsNew.viewAfter_relation (old : Option Field) :
    viewAfter (p.edits (Document.parse t) nullable oneToMany) p.holder p.relationName old =
      some (p.relationEdit nullable).field := by
  have named : p.relationName ≠ [] := relationFieldName_ne_nil sound.referenced.2 letter
  rw [KeyPlacement.edits_eq, viewAfter_append]
  refine (viewAfter_upsert (e := p.relationEdit nullable) rfl named new.relationName.2 _ _).trans
    (viewAfter_some (fun e member _ _ name => ?_) _)
  cases oneToMany with
  | false => cases member
  | true =>
    rw [if_pos rfl, List.mem_singleton] at member
    rw [member] at name
    exact absurd name (new.listName rfl).2

theorem KeyPlacement.viewAfter_list (p : KeyPlacement) (d : Document) (nullable : Bool) (old : Option Field) :
    viewAfter (p.edits d nullable true) p.referenced p.listName old = some p.listEdit.field := by
  have split : p.edits d nullable true = (p.columnEdits d nullable false ++ [p.relationEdit nullable]) ++ [p.listEdit] := by
    simp [KeyPlacement.edits]
  rw [split, viewAfter_append]
  exact viewAfter_upsert (e := p.listEdit) rfl (listFieldName_ne_nil _) (listFieldName_ne_protectedField _) _ _

include plain sound keyed in
/-- Making sure that the column is there leaves the fields of a kind, but for optional marks, if a new column is not of
that kind. -/
theorem filter_columnEdits {unique : Bool} (clean : p.HasPlainColumn t nullable) {kind : Field → Bool}
    (blunt : ∀ f : Field, kind f.asOptional = kind f) {m : Model} (isModel : m ∈ (Document.parse t).models) {rs : List Text}
    (found : modelRows? t m.name = some rs)
    (column : kind (keyColumn p.foreignKey (p.keyType (Document.parse t)) nullable unique) = false) :
    (Model.ofRows m.name (rowsAfter (p.columnEdits (Document.parse t) nullable unique) m.name rs)).asOptional.fields.filter
      kind = m.asOptional.fields.filter kind := by
  have read := plain.eq_ofRows isModel found
  have plainRows := plain.modelRows found
  by_cases holds : p.holder = m.name
  · have looked : p.column? (Document.parse t) = (Model.ofRows m.name rs).field? p.foreignKey := by
      rw [KeyPlacement.column?, holds, Document.model?_of_mem isModel, Option.bind_some, ← read]
    have alone (e : FieldEdit) (inModel : e.model = p.holder) : rowsAfter [e] m.name rs = e.apply rs :=
      rowsAfter_here (inModel.trans holds) rs
    have writable := sound.columnEdits nullable unique
    unfold KeyPlacement.columnEdits at writable ⊢
    cases existing : p.column? (Document.parse t) with
    | none =>
      simp only [existing, List.forall_mem_singleton] at writable ⊢
      have kept := filter_apply
        (e := ⟨p.holder, keyColumn p.foreignKey (p.keyType (Document.parse t)) nullable unique, false⟩)
        writable.2 keyed plainRows column m.name fun f inModel => by cases existing.symm.trans (looked.trans inModel)
      have whole : kind ∘ Field.asOptional = kind := funext blunt
      rw [alone _ rfl, Model.asOptional, Model.asOptional, List.filter_map, List.filter_map, whole, kept, ← read]
    | some f =>
      obtain ⟨isWritable, name⟩ := sound.column f existing
      have inModel : (Model.ofRows m.name rs).field? f.name = some f := by rw [name, ← looked, existing]
      dsimp only
      split
      · rename_i becomes
        obtain ⟨isNullable, required⟩ : nullable = true ∧ f.isOptional = false := by simpa using becomes
        have only := clean f existing isNullable required rs (holds ▸ found)
        rw [← name] at only
        have looks : Field.asOptional { f with isOptional := true } = f.asOptional := rfl
        have same := shownFields_apply_same (e := ⟨p.holder, { f with isOptional := true }, true⟩)
          isWritable.optional (name ▸ keyed) plainRows rfl inModel looks only
        have fields : (Model.ofRows m.name (FieldEdit.apply ⟨p.holder, { f with isOptional := true }, true⟩ rs)).asOptional.fields =
            (Model.ofRows m.name rs).asOptional.fields := by
          rw [Model.asOptional, Model.asOptional, Model.fields_ofRows, Model.fields_ofRows]
          exact (map_keepFirst Field.asOptional Field.name _).trans
            ((congrArg (keepFirst Field.name) same).trans (map_keepFirst Field.asOptional Field.name _).symm)
        rw [alone _ rfl, fields, ← read]
      · have none : rowsAfter [] m.name rs = rs := rfl
        rw [none, ← read]
  · rw [rowsAfter_columnEdits nullable unique holds, ← read]

include plain sound keyed letter new in
/-- A relation by a key leaves the fields of a kind, but for optional marks, if its own fields are not of that kind. -/
theorem filter_afterEdits (clean : p.HasPlainColumn t nullable) {m : Model} {kind : Field → Bool}
    (blunt : ∀ f : Field, kind f.asOptional = kind f) (isModel : m ∈ (Document.parse t).models)
    (column : kind (keyColumn p.foreignKey (p.keyType (Document.parse t)) nullable (!oneToMany)) = false)
    (fields : ∀ e ∈ p.fieldEdits nullable oneToMany, e.model = m.name → kind e.field = false) :
    (m.afterEdits t (p.edits (Document.parse t) nullable oneToMany)).asOptional.fields.filter kind =
      m.asOptional.fields.filter kind := by
  unfold Model.afterEdits
  split
  · rename_i rs found
    have upserts := KeyPlacement.fieldEdits_isUpsert sound letter nullable oneToMany
    have columnWritable := fun e member => (sound.columnEdits nullable (!oneToMany) e member).2
    have plainRows := plain.modelRows found
    have read := plain.eq_ofRows isModel found
    have whole : kind ∘ Field.asOptional = kind := funext blunt
    rw [← filter_columnEdits plain sound keyed clean blunt isModel found column, KeyPlacement.edits_eq, rowsAfter_append,
      Model.asOptional, Model.asOptional, List.filter_map, List.filter_map, whole]
    refine congrArg (List.map Field.asOptional) (filter_rowsAfter (fun e member => (upserts e member).writable)
      (fun e member => (upserts e member).named) (rowsAfter_isBodyRows columnWritable _ plainRows) fun e member inModel =>
        ⟨fields e member inModel, fun f inSame => ?_⟩)
    obtain ⟨free, other⟩ := new.fieldEdits e member
    have name : f.name = e.field.name := by simpa using List.find?_some inSame
    rw [field?_rowsAfter columnWritable m.name plainRows, ← read,
      plain.field?_eq_none isModel found (inModel ▸ free)] at inSame
    rcases viewAfter_cases inSame with same | ⟨edit, inColumn, -, rfl⟩
    · cases same
    · exact absurd ((KeyPlacement.columnEdits_name sound nullable edit inColumn).symm.trans name).symm other
  · rfl

end

end SchemaDiagram

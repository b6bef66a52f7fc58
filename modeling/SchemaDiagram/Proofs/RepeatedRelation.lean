import SchemaDiagram.Proofs.KeyTargets
import SchemaDiagram.Proofs.RepeatedEdits

namespace SchemaDiagram

open Text

theorem occurs_of_not_mem {c : Char} {more t : Text} (none : c ∉ t) : occurs (c :: more) t = false := by
  induction t with
  | nil => rfl
  | cons d t ih =>
    obtain ⟨differ, later⟩ := List.ne_and_not_mem_of_not_mem_cons none
    rw [occurs, ih later, Bool.or_false]
    simp [List.isPrefixOf, differ]

theorem relationTag_unmarked {foreignKey referenced : Text} (plainKey : IsPlainName foreignKey)
    (plainReferenced : IsPlainName referenced) : occurs (txt "@id") (relationTag foreignKey referenced) = false := by
  have noSign {t : Text} (plain : IsPlainName t) : '@' ∉ t := fun member => absurd (plain '@' member).2 (by decide)
  have none : '@' ∉ txt "relation(fields: [" ++ (foreignKey ++ (txt "], references: [" ++ (referenced ++ txt "])"))) := by
    simp only [List.mem_append, not_or]
    exact ⟨by decide, noSign plainKey, by decide, noSign plainReferenced, by decide⟩
  have whole : relationTag foreignKey referenced =
      '@' :: (txt "relation(fields: [" ++ (foreignKey ++ (txt "], references: [" ++ (referenced ++ txt "])")))) := by
    simp [relationTag, txt]
  have sign : txt "@id" = '@' :: txt "id" := rfl
  rw [whole, sign, occurs, occurs_of_not_mem none, Bool.or_false]
  rfl

theorem keyColumn_isId (name type : Text) (nullable unique : Bool) :
    (keyColumn name type nullable unique).isId = false := by
  cases unique <;> rfl

theorem listField_isId (name model : Text) : (listField name model).isId = false := rfl

theorem relationField_isId {foreignKey referenced : Text} (plainKey : IsPlainName foreignKey)
    (plainReferenced : IsPlainName referenced) (name model : Text) (nullable : Bool) :
    (relationField name model foreignKey referenced nullable).isId = false := by
  simp [Field.isId, relationField, relationTag_unmarked plainKey plainReferenced]

/-- The field of a name in a model of a document. -/
def Document.field? (d : Document) (model name : Text) : Option Field := (d.model? model).bind (·.field? name)

/-- A relation by a key takes the place of no column and of no identity. In a model that refers to itself, the
column of the key is not the identity, or every line that begins with its name is a field. -/
structure KeyPlacement.IsFree (p : KeyPlacement) (t : Text) (oneToMany : Bool) : Prop where
  relation : ∀ f, (Document.parse t).field? p.holder p.relationName = some f → f.relation.isSome ∧ f.isId = false
  list : oneToMany → ∀ f, (Document.parse t).field? p.referenced p.listName = some f →
    f.relation.isSome ∧ f.isId = false
  column : p.holder = p.referenced → ∀ f, p.column? (Document.parse t) = some f → f.isId →
    ∀ rs, modelRows? t p.holder = some rs → ∀ l ∈ shownLines rs, firstWord? l = some p.foreignKey →
      (lineField? l).isSome

namespace KeyPlacement

/-- The edits that follow those of the column. -/
def fieldEdits (p : KeyPlacement) (nullable oneToMany : Bool) : List FieldEdit :=
  p.relationEdit nullable :: if oneToMany then [p.listEdit] else []

theorem edits_eq (p : KeyPlacement) (d : Document) (nullable oneToMany : Bool) :
    p.edits d nullable oneToMany = p.columnEdits d nullable (!oneToMany) ++ p.fieldEdits nullable oneToMany := rfl

theorem mem_fieldEdits {p : KeyPlacement} {nullable oneToMany : Bool} {e : FieldEdit}
    (member : e ∈ p.fieldEdits nullable oneToMany) : e = p.relationEdit nullable ∨ oneToMany = true ∧ e = p.listEdit := by
  cases oneToMany <;> simpa [fieldEdits] using member

variable {p : KeyPlacement} {t : Text} (sound : p.IsSound (Document.parse t)) (letter : ∃ c ∈ p.referenced, isAlphanumeric c)
  (nullable oneToMany : Bool)

include sound letter

theorem fieldEdits_isUpsert : ∀ e ∈ p.fieldEdits nullable oneToMany, e.IsUpsert := by
  intro e member
  rcases mem_fieldEdits member with rfl | ⟨-, rfl⟩
  · exact ⟨sound.relationEdit nullable, relationFieldName_ne_nil sound.referenced.2 letter, rfl⟩
  · exact ⟨sound.listEdit, listFieldName_ne_nil _, rfl⟩

omit letter in
theorem fieldEdits_shape (free : p.IsFree t oneToMany) : ∀ e ∈ p.fieldEdits nullable oneToMany,
    e.field.isColumn = false ∧ e.field.isId = false ∧
      ∀ f, (Document.parse t).field? e.model e.field.name = some f → f.relation.isSome ∧ f.isId = false := by
  intro e member
  rcases mem_fieldEdits member with rfl | ⟨many, rfl⟩
  · exact ⟨rfl, relationField_isId sound.foreignKey sound.referencedField _ _ _, free.relation⟩
  · exact ⟨Bool.and_false _, rfl, free.list many⟩

omit letter in
theorem columnEdits_name {unique : Bool} :
    ∀ e ∈ p.columnEdits (Document.parse t) nullable unique, e.field.name = p.foreignKey := by
  unfold columnEdits
  split
  · rename_i f existing
    split
    · simpa using (sound.column f existing).2
    · simp
  · exact List.forall_mem_singleton.mpr rfl

omit sound letter in
/-- A column of a key is marked as the identity only if it was before. -/
theorem columnEdits_marked {unique : Bool} {e : FieldEdit} (member : e ∈ p.columnEdits (Document.parse t) nullable unique)
    (marked : e.field.isId) :
    ∃ f, p.column? (Document.parse t) = some f ∧ f.isId := by
  unfold columnEdits at member
  split at member
  · rename_i f existing
    split at member
    · rw [List.mem_singleton.mp member] at marked
      exact ⟨f, existing, marked⟩
    · cases member
  · rw [List.mem_singleton.mp member, keyColumn_isId] at marked
    cases marked

omit letter in
/-- Where a relation by a key replaces a field, a column gives way to a column and another field to another one. -/
theorem edits_isColumn (free : p.IsFree t oneToMany) {e : FieldEdit}
    (member : e ∈ p.edits (Document.parse t) nullable oneToMany) (replaces : e.replaces) {f : Field}
    (there : (Document.parse t).field? e.model e.field.name = some f) : e.field.isColumn = f.isColumn := by
  rcases List.mem_append.mp member with inColumn | later
  · unfold columnEdits at inColumn
    split at inColumn
    · rename_i g existing
      split at inColumn
      · rw [List.mem_singleton.mp inColumn, (sound.column g existing).2] at there
        rw [List.mem_singleton.mp inColumn, ← Option.some.inj (existing.symm.trans there)]
        rfl
      · cases inColumn
    · rw [List.mem_singleton.mp inColumn] at replaces
      cases replaces
  · obtain ⟨noColumn, -, old⟩ := fieldEdits_shape sound nullable oneToMany free e later
    have relational := (old f there).1
    rw [noColumn, Field.isColumn, Option.isNone_eq_false_iff.mpr relational]
    rfl

end KeyPlacement

section

variable {p : KeyPlacement} {t : Text} (plain : IsPlainText t) (sound : p.IsSound (Document.parse t)) (keyed : p.foreignKey ≠ [])
  {nullable unique oneToMany : Bool} (free : p.IsFree t oneToMany)

include plain sound keyed free

/-- Making sure that there is a column moves no mark in the model that the key refers to. -/
theorem markedName?_columnEdits {rs : List Text} (found : modelRows? t p.referenced = some rs)
    (read : (Document.parse t).model? p.referenced = some (Model.ofRows p.referenced rs)) :
    (Model.ofRows p.referenced (rowsAfter (p.columnEdits (Document.parse t) nullable unique) p.referenced rs)).markedName? =
      (Model.ofRows p.referenced rs).markedName? := by
  by_cases self : p.holder = p.referenced
  · have plainRows := plain.modelRows found
    have looked : p.column? (Document.parse t) = (Model.ofRows p.referenced rs).field? p.foreignKey := by
      rw [KeyPlacement.column?, self, read, Option.bind_some]
    have alone (e : FieldEdit) (inModel : e.model = p.holder) : rowsAfter [e] p.referenced rs = e.apply rs :=
      rowsAfter_here (inModel.trans self) rs
    have column := sound.columnEdits nullable unique
    unfold KeyPlacement.columnEdits at column ⊢
    cases existing : p.column? (Document.parse t) with
    | none =>
      simp only [existing, List.forall_mem_singleton] at column ⊢
      rw [alone _ rfl]
      refine markedName?_apply column.2 keyed plainRows (keyColumn_isId _ _ _ _) _ fun f inModel => ?_
      cases existing.symm.trans (looked.trans inModel)
    | some f =>
      obtain ⟨writable, name⟩ := sound.column f existing
      have inModel : (Model.ofRows p.referenced rs).field? f.name = some f := by rw [name, ← looked, existing]
      dsimp only
      split
      · rw [alone _ rfl]
        by_cases marked : f.isId
        · refine markedName?_apply_same (e := ⟨p.holder, { f with isOptional := true }, true⟩) writable.optional
            (name ▸ keyed) plainRows rfl inModel rfl ?_
          have only := free.column self f existing marked rs (self ▸ found)
          rwa [← name] at only
        · have unmarked : f.isId = false := Bool.eq_false_iff.mpr marked
          refine markedName?_apply (e := ⟨p.holder, { f with isOptional := true }, true⟩) writable.optional
            (name ▸ keyed) plainRows unmarked _ fun g inSame => ?_
          rw [inModel] at inSame
          exact Option.some.inj inSame ▸ unmarked
      · rfl
  · have outside : ∀ e ∈ p.columnEdits (Document.parse t) nullable unique, ¬e.model = p.referenced :=
      fun e member => (sound.columnEdits nullable unique e member).1 ▸ self
    rw [rowsAfter, List.filter_eq_nil_iff.mpr (by simpa using outside)]
    rfl

/-- The edits of a relation by a key move no mark in the model that the key refers to. -/
theorem markedName?_edits (letter : ∃ c ∈ p.referenced, isAlphanumeric c) {rs : List Text}
    (found : modelRows? t p.referenced = some rs)
    (read : (Document.parse t).model? p.referenced = some (Model.ofRows p.referenced rs)) :
    (Model.ofRows p.referenced
        (rowsAfter (p.edits (Document.parse t) nullable oneToMany) p.referenced rs)).markedName? =
      (Model.ofRows p.referenced rs).markedName? := by
  have upserts := KeyPlacement.fieldEdits_isUpsert sound letter nullable oneToMany
  have writable := sound.columnEdits nullable (!oneToMany)
  have columnWritable := fun e member => (writable e member).2
  have plainRows := plain.modelRows found
  rw [KeyPlacement.edits_eq, rowsAfter_append]
  refine (markedName?_rowsAfter (fun e member => (upserts e member).writable) (fun e member => (upserts e member).named)
    ?_ fun e member inModel => ?_).trans (markedName?_columnEdits plain sound keyed free found read)
  · exact rowsAfter_isBodyRows columnWritable _ plainRows
  · obtain ⟨-, unmarked, old⟩ := KeyPlacement.fieldEdits_shape sound nullable oneToMany free e member
    refine ⟨unmarked, fun f inSame => ?_⟩
    have name : f.name = e.field.name := by simpa using List.find?_some inSame
    have inRows {g : Field} (here : (Model.ofRows p.referenced rs).field? e.field.name = some g) : g.isId = false := by
      refine (old g ?_).2
      rw [Document.field?, inModel, read]
      exact here
    rw [field?_rowsAfter columnWritable p.referenced plainRows] at inSame
    rcases viewAfter_cases inSame with same | ⟨edit, inColumn, atHolder, rfl⟩
    · exact inRows same
    · refine Bool.eq_false_iff.mpr fun marked => ?_
      obtain ⟨g, existing, isId⟩ := KeyPlacement.columnEdits_marked nullable inColumn marked
      have ofKey := KeyPlacement.columnEdits_name sound nullable edit inColumn
      rw [KeyPlacement.column?, ← (writable edit inColumn).1, atHolder, read, Option.bind_some, ← ofKey, name] at existing
      rw [inRows existing] at isId
      cases isId

variable (nullable) in
omit keyed in
/-- The models of a text after the edits of a relation by a key have their columns still. -/
theorem field?_edits {m : Model} (read : (Document.parse t).model? m.name = some m) {key : Text} {f : Field}
    (inModel : m.field? key = some f) :
    ∃ f', (m.afterEdits t (p.edits (Document.parse t) nullable oneToMany)).field? key = some f' ∧
      f'.isColumn = f.isColumn := by
  have writable := fun e member => (sound.edits nullable oneToMany e member).1
  have member : m ∈ (Document.parse t).models := List.mem_of_find?_eq_some read
  rw [plain.field?_afterEdits writable member, inModel]
  split
  · refine viewAfter_isColumn fun e inEdits atModel replaces name => ?_
    refine KeyPlacement.edits_isColumn sound nullable oneToMany free inEdits replaces ?_
    rw [Document.field?, atModel, read, name, Option.bind_some, inModel]
  · exact ⟨f, rfl, rfl⟩

variable (nullable) in
theorem keyTarget_edits (letter : ∃ c ∈ p.referenced, isAlphanumeric c) {m : Model} (name : m.name = p.referenced)
    (read : (Document.parse t).model? m.name = some m) {requested : Text} {f : Field}
    (inModel : m.field? requested = some f) :
    keyTarget (some (m.afterEdits t (p.edits (Document.parse t) nullable oneToMany))) requested =
      keyTarget (some m) requested := by
  obtain ⟨f', after, column⟩ := field?_edits plain sound nullable free read inModel
  have marked : (m.afterEdits t (p.edits (Document.parse t) nullable oneToMany)).markedName? = m.markedName? := by
    unfold Model.afterEdits
    split
    · rename_i rs found
      have whole := plain.eq_ofRows (List.mem_of_find?_eq_some read) found
      rw [name] at found read whole ⊢
      rw [whole] at read
      rw [markedName?_edits plain sound keyed free letter found read, ← whole]
    · rfl
  rw [keyTarget_eq, keyTarget_eq, after, inModel, marked, Option.any_some, Option.any_some, column]

end

/-- A column that is there, and that is optional if it has to be. -/
def IsMade (nullable : Bool) (column : Option Field) : Prop :=
  ∃ f, column = some f ∧ (nullable → f.isOptional ∨ f.name = protectedField)

section

variable {p : KeyPlacement} {d : Document} (sound : p.IsSound d) (keyed : p.foreignKey ≠ []) (nullable unique : Bool)

include sound keyed

omit sound keyed in
theorem rowsAfter_columnEdits {model : Text} (other : p.holder ≠ model) (rs : List Text) :
    rowsAfter (p.columnEdits d nullable unique) model rs = rs := by
  have outside : ∀ e ∈ p.columnEdits d nullable unique, ¬e.model = model := by
    intro e member
    unfold KeyPlacement.columnEdits at member
    split at member
    · split at member
      · exact List.mem_singleton.mp member ▸ other
      · cases member
    · exact List.mem_singleton.mp member ▸ other
  rw [rowsAfter, List.filter_eq_nil_iff.mpr (by simpa using outside)]
  rfl

theorem isMade_columnEdits :
    IsMade nullable (viewAfter (p.columnEdits d nullable unique) p.holder p.foreignKey (p.column? d)) := by
  have seen (e : FieldEdit) (old : Option Field) (atHolder : e.model = p.holder) (name : e.field.name = p.foreignKey) :
      viewAfter [e] p.holder p.foreignKey old =
        if !e.replaces then old.or (some e.field) else if p.foreignKey = protectedField then old else some e.field := by
    rw [viewAfter_cons, if_pos atHolder, FieldEdit.view, if_pos ⟨name, keyed⟩]
    rfl
  unfold KeyPlacement.columnEdits
  cases existing : p.column? d with
  | none =>
    refine ⟨keyColumn p.foreignKey (p.keyType d) nullable unique, seen _ _ rfl rfl, fun isNullable => Or.inl isNullable⟩
  | some f =>
    have name := (sound.column f existing).2
    dsimp only
    split
    · rw [seen _ _ rfl name]
      by_cases protected' : p.foreignKey = protectedField
      · exact ⟨f, by simp [protected'], fun _ => Or.inr (name.trans protected')⟩
      · exact ⟨{ f with isOptional := true }, by simp [protected'], fun _ => Or.inl rfl⟩
    · rename_i enough
      refine ⟨f, rfl, fun isNullable => Or.inl ?_⟩
      simpa [isNullable] using enough

omit sound keyed in
theorem IsMade.view {e : FieldEdit} {key : Text} {old : Option Field} (made : IsMade nullable old)
    (optional : e.field.name = key → nullable → e.field.isOptional) : IsMade nullable (e.view key old) := by
  obtain ⟨f, rfl, enough⟩ := made
  unfold FieldEdit.view
  split
  · rename_i here
    split
    · exact ⟨f, rfl, enough⟩
    split
    · exact ⟨f, rfl, enough⟩
    · exact ⟨e.field, rfl, fun isNullable => Or.inl (optional here.1 isNullable)⟩
  · exact ⟨f, rfl, enough⟩

/-- After the edits of a relation by a key its column is made. -/
theorem isMade_edits (apart : p.holder = p.referenced → p.listName ≠ p.foreignKey) (oneToMany : Bool) :
    IsMade nullable (viewAfter (p.edits d nullable oneToMany) p.holder p.foreignKey (p.column? d)) := by
  have made := isMade_columnEdits sound keyed nullable (!oneToMany)
  have withField : IsMade nullable ((p.relationEdit nullable).view p.foreignKey
      (viewAfter (p.columnEdits d nullable (!oneToMany)) p.holder p.foreignKey (p.column? d))) :=
    made.view nullable fun _ isNullable => isNullable
  have atHolder : (p.relationEdit nullable).model = p.holder := rfl
  rw [KeyPlacement.edits_eq, viewAfter_append, KeyPlacement.fieldEdits, viewAfter_cons, if_pos atHolder]
  cases oneToMany with
  | false => exact withField
  | true =>
    rw [if_pos rfl, viewAfter_cons]
    split
    · rename_i self
      exact withField.view nullable fun name => absurd name (apart self.symm)
    · exact withField

omit sound keyed in
/-- For a column that is made there is nothing to do. -/
theorem columnEdits_idle (made : IsMade nullable (p.column? d)) : ∀ e ∈ p.columnEdits d nullable unique, e.IsIdle := by
  obtain ⟨f, existing, enough⟩ := made
  intro e member
  unfold KeyPlacement.columnEdits at member
  rw [existing] at member
  dsimp only at member
  split at member
  · rename_i lacks
    obtain ⟨isNullable, noMark⟩ := Bool.and_eq_true_iff.mp lacks
    rw [List.mem_singleton.mp member]
    refine ⟨rfl, (enough isNullable).resolve_left ?_⟩
    simpa using noMark
  · cases member

end

theorem holdsForeignKey_congr {m m' : Model} {field : Text} {f f' : Field} (inModel : m.field? field = some f)
    (inModel' : m'.field? field = some f') : holdsForeignKey (some m') field = holdsForeignKey (some m) field := by
  simp [holdsForeignKey, inModel, inModel']

/-- A field that is taken for a foreign key ends with the suffix of ids. -/
theorem holdsForeignKey_ends {m : Option Model} {field : Text} (holds : holdsForeignKey m field) :
    ∃ c, field.getLast? = some c ∧ c ≠ 's' := by
  simp only [holdsForeignKey, Bool.and_eq_true] at holds
  obtain ⟨⟨-, suffixed⟩, -⟩ := holds
  cases found : stripIdSuffix? field with
  | none =>
    rw [found] at suffixed
    cases suffixed
  | some stem =>
    obtain ⟨ending, whole, rfl | rfl | rfl⟩ := stripIdSuffix?_form found
    · exact ⟨'d', by rw [whole]; simp [txt], by decide⟩
    · exact ⟨'D', by rw [whole]; simp [txt], by decide⟩
    · exact ⟨'d', by rw [whole]; simp [txt], by decide⟩

/-- The column of a foreign key has the suffix of ids, or else it is named after what it refers to. -/
theorem KeyPlacement.foreignKey_cases (d : Document) (c : Connection) :
    (∃ m, holdsForeignKey m (KeyPlacement.ofConnection d c).foreignKey) ∨
      (KeyPlacement.ofConnection d c).foreignKey =
        foreignKeyName (KeyPlacement.ofConnection d c).referenced (KeyPlacement.ofConnection d c).referencedField := by
  unfold KeyPlacement.ofConnection
  dsimp only
  split
  · rename_i holds
    exact Or.inl ⟨_, holds⟩
  · dsimp only
    split
    · rename_i holds
      exact Or.inl ⟨_, holds⟩
    · exact Or.inr rfl

/-- Where the key of a relation is placed, read off the two models. -/
def placementOf (source target : Model) (c : Connection) : KeyPlacement :=
  if holdsForeignKey (some source) c.sourceField then
    ⟨c.sourceModel, c.sourceField, c.targetModel, keyTarget (some target) c.targetField, true⟩
  else
    ⟨c.targetModel,
      if holdsForeignKey (some target) c.targetField then c.targetField
      else foreignKeyName c.sourceModel (keyTarget (some source) c.sourceField),
      c.sourceModel, keyTarget (some source) c.sourceField, false⟩

theorem KeyPlacement.ofConnection_eq {d : Document} {c : Connection} {source target : Model}
    (isSource : d.model? c.sourceModel = some source) (isTarget : d.model? c.targetModel = some target) :
    KeyPlacement.ofConnection d c = placementOf source target c := by
  rw [KeyPlacement.ofConnection, isSource, isTarget]
  rfl

section

variable {t : Text} (plain : IsPlainText t) {c : Connection} {source target : Model}
  (isSource : (Document.parse t).model? c.sourceModel = some source)
  (isTarget : (Document.parse t).model? c.targetModel = some target)

include plain isSource isTarget

theorem IsPlainText.foreignKey_ne_nil
    (letter : ∃ ch ∈ (KeyPlacement.ofConnection (Document.parse t) c).referenced, isAlphanumeric ch) :
    (KeyPlacement.ofConnection (Document.parse t) c).foreignKey ≠ [] := by
  have sound := plain.placement isSource isTarget
  rcases KeyPlacement.foreignKey_cases (Document.parse t) c with ⟨m, holds⟩ | new
  · obtain ⟨ch, last, -⟩ := holdsForeignKey_ends holds
    intro empty
    rw [empty] at last
    cases last
  · rw [new, foreignKeyName]
    exact List.append_ne_nil_of_left_ne_nil (sound.referenced.2.lowerCamel_ne_nil letter) _

/-- In a model that refers to itself the column of the key and the list differ. -/
theorem IsPlainText.foreignKey_ne_listName
    (self : (KeyPlacement.ofConnection (Document.parse t) c).holder =
      (KeyPlacement.ofConnection (Document.parse t) c).referenced) :
    (KeyPlacement.ofConnection (Document.parse t) c).listName ≠
      (KeyPlacement.ofConnection (Document.parse t) c).foreignKey := by
  have sound := plain.placement isSource isTarget
  rcases KeyPlacement.foreignKey_cases (Document.parse t) c with ⟨m, holds⟩ | new
  · obtain ⟨ch, last, differ⟩ := holdsForeignKey_ends holds
    exact listFieldName_ne_of_ends last differ
  · rw [new, KeyPlacement.listName, self]
    exact (foreignKeyName_ne_listFieldName sound.referencedField).symm

variable {f g : Field} (sourceField : source.field? c.sourceField = some f) (targetField : target.field? c.targetField = some g)
  {nullable oneToMany : Bool} (free : (KeyPlacement.ofConnection (Document.parse t) c).IsFree t oneToMany)
  (letter : ∃ ch ∈ (KeyPlacement.ofConnection (Document.parse t) c).referenced, isAlphanumeric ch)

include sourceField targetField free letter

/-- The key of a relation that is there already is placed where it is. -/
theorem IsPlainText.placement_again {d' : Document} {edits : List FieldEdit}
    (made : edits = (KeyPlacement.ofConnection (Document.parse t) c).edits (Document.parse t) nullable oneToMany)
    (after : d'.model? c.sourceModel = some (source.afterEdits t edits))
    (afterTarget : d'.model? c.targetModel = some (target.afterEdits t edits)) :
    KeyPlacement.ofConnection d' c = KeyPlacement.ofConnection (Document.parse t) c := by
  have sound := plain.placement isSource isTarget
  have keyed := plain.foreignKey_ne_nil isSource isTarget letter
  have sourceName : source.name = c.sourceModel := (plain.model? isSource).1
  have targetName : target.name = c.targetModel := (plain.model? isTarget).1
  obtain ⟨f', inSource, -⟩ := field?_edits plain sound nullable free (sourceName ▸ isSource) sourceField
  obtain ⟨g', inTarget, -⟩ := field?_edits plain sound nullable free (targetName ▸ isTarget) targetField
  have holdsSource := holdsForeignKey_congr sourceField inSource
  have holdsTarget := holdsForeignKey_congr targetField inTarget
  rw [made] at after afterTarget
  have before := KeyPlacement.ofConnection_eq isSource isTarget
  refine (KeyPlacement.ofConnection_eq after afterTarget).trans (Eq.trans ?_ before.symm)
  unfold placementOf at before ⊢
  rw [holdsSource, holdsTarget]
  by_cases holds : holdsForeignKey (some source) c.sourceField
  · rw [if_pos holds] at before
    have same := keyTarget_edits plain sound keyed nullable free letter
      (targetName.trans (congrArg KeyPlacement.referenced before).symm) (targetName ▸ isTarget) targetField
    rw [if_pos holds, if_pos holds, same]
  · rw [if_neg holds] at before
    have same := keyTarget_edits plain sound keyed nullable free letter
      (sourceName.trans (congrArg KeyPlacement.referenced before).symm) (sourceName ▸ isSource) sourceField
    rw [if_neg holds, if_neg holds, same]

end

theorem KeyPlacement.fieldEdits_repeat {p : KeyPlacement} {nullable oneToMany : Bool} {model : Text} {rs : List Text}
    (upserts : ∀ e ∈ p.fieldEdits nullable oneToMany, e.IsUpsert) (plain : IsBodyRows rs)
    (apart : ∀ e ∈ p.fieldEdits nullable oneToMany, e.model = model → EndsApart e.field.name rs) :
    rowsAfter (p.fieldEdits nullable oneToMany) model (rowsAfter (p.fieldEdits nullable oneToMany) model rs) =
      rowsAfter (p.fieldEdits nullable oneToMany) model rs := by
  cases oneToMany with
  | false =>
    exact rowsAfter_repeat (upserts _ List.mem_cons_self) plain (apart _ List.mem_cons_self)
  | true =>
    obtain ⟨first, second⟩ := List.forall_mem_cons.mp upserts
    obtain ⟨apartFirst, apartSecond⟩ := List.forall_mem_cons.mp apart
    exact rowsAfter_repeat_pair first plain apartFirst (second _ List.mem_cons_self) (apartSecond _ List.mem_cons_self)

/-- The edits of a relation by a key, computed once more, change nothing more. -/
theorem IsPlainText.keyEdits_again {t : Text} (plain : IsPlainText t) {p : KeyPlacement}
    (sound : p.IsSound (Document.parse t)) (keyed : p.foreignKey ≠ []) (letter : ∃ c ∈ p.referenced, isAlphanumeric c)
    (differ : p.holder = p.referenced → p.listName ≠ p.foreignKey) {nullable oneToMany : Bool} {d' : Document} {m : Model}
    (isHolder : (Document.parse t).model? p.holder = some m)
    (after : d'.model? p.holder = some (m.afterEdits t (p.edits (Document.parse t) nullable oneToMany)))
    {model : Text} {rs : List Text} (found : modelRows? t model = some rs)
    (apart : ∀ e ∈ p.fieldEdits nullable oneToMany, e.model = model → EndsApart e.field.name rs) :
    rowsAfter (p.edits d' nullable oneToMany) model (rowsAfter (p.edits (Document.parse t) nullable oneToMany) model rs) =
      rowsAfter (p.edits (Document.parse t) nullable oneToMany) model rs := by
  have upserts := KeyPlacement.fieldEdits_isUpsert sound letter nullable oneToMany
  have columns := sound.columnEdits nullable (!oneToMany)
  have plainRows := plain.modelRows found
  have settled (rs' : List Text) : rowsAfter (p.columnEdits d' nullable (!oneToMany)) model rs' = rs' := by
    by_cases here : p.holder = model
    · have name : m.name = p.holder := (plain.model? isHolder).1
      have made : IsMade nullable (p.column? d') := by
        have closed : (modelRows? t m.name).isSome := by rw [name, here, found]; rfl
        have view := plain.field?_afterEdits (fun e member => (sound.edits nullable oneToMany e member).1)
          (List.mem_of_find?_eq_some isHolder) p.foreignKey
        rw [if_pos closed, name] at view
        have old : p.column? (Document.parse t) = m.field? p.foreignKey := by
          rw [KeyPlacement.column?, isHolder, Option.bind_some]
        rw [KeyPlacement.column?, after, Option.bind_some, view, ← old]
        exact isMade_edits sound keyed nullable differ oneToMany
      exact rowsAfter_idle (columnEdits_idle nullable (!oneToMany) made) model rs'
    · exact rowsAfter_columnEdits nullable (!oneToMany) here rs'
  rw [KeyPlacement.edits_eq, KeyPlacement.edits_eq, rowsAfter_append, rowsAfter_append, settled]
  have columnWritable := fun e member => (columns e member).2
  refine KeyPlacement.fieldEdits_repeat upserts (rowsAfter_isBodyRows columnWritable model plainRows)
    fun e member inModel => ?_
  have word := (upserts e member).writable.name.isWord (upserts e member).named
  refine (apart e member inModel).rowsAfter word columnWritable (fun edit inColumn => ?_) model plainRows
  rw [KeyPlacement.columnEdits_name sound nullable edit inColumn]
  exact keyed

/-- The junction of a relation is not put in a second time. -/
theorem relationBase_self {t : Text} {c : Connection} {request : RelationRequest}
    (there : request.cardinality = .manyToMany → request.mode = .explicit →
      (Document.parse t).hasModel (junctionName c request.order)) : relationBase t c request = t := by
  unfold relationBase
  split
  · rename_i manyToMany explicit
    exact if_pos (there manyToMany explicit)
  · rfl

theorem IsPlainText.relationBase_hasModel {t : Text} (plain : IsPlainText t) {c : Connection} {request : RelationRequest}
    (hasSource : (Document.parse t).hasModel c.sourceModel) (hasTarget : (Document.parse t).hasModel c.targetModel)
    (manyToMany : request.cardinality = .manyToMany) (explicit : request.mode = .explicit) :
    (Document.parse (relationBase t c request)).hasModel (junctionName c request.order) := by
  obtain ⟨cardinality, mode, order, nullableSource, nullableTarget⟩ := request
  subst manyToMany explicit
  exact (plain.extendsJunction hasSource hasTarget order).2

/-- A relation that is made once more stays, if its edits change nothing more. -/
theorem IsPlainText.addRelation_again {t : Text} (plain : IsPlainText t) {c : Connection} (request : RelationRequest)
    (hasSource : (Document.parse t).hasModel c.sourceModel) (hasTarget : (Document.parse t).hasModel c.targetModel)
    (again : ∀ d' : Document,
      (∀ name, (Document.parse t).hasModel name → d'.model? name =
        ((Document.parse t).model? name).map (Model.afterEdits t (relationEdits (Document.parse t) c request))) →
      ∀ model, model = c.sourceModel ∨ model = c.targetModel → ∀ rs, modelRows? t model = some rs →
        rowsAfter (relationEdits d' c request) model (rowsAfter (relationEdits (Document.parse t) c request) model rs) =
          rowsAfter (relationEdits (Document.parse t) c request) model rs) :
    ∃ once, addRelation t c request = .ok once ∧ addRelation once c request = .ok once := by
  have base := plain.extendsBase request hasSource hasTarget
  have edits := plain.writableEdits request hasSource hasTarget
  have edited := base.plain.edited fun e member => (edits e member).1
  obtain ⟨once, atOnce⟩ : ∃ once, once = runEdits (relationBase t c request)
    (relationEdits (Document.parse t) c request) := ⟨_, rfl⟩
  rw [← atOnce] at edited
  have models (name : Text) (isModel : (Document.parse t).hasModel name) : (Document.parse once).model? name =
      ((Document.parse t).model? name).map (Model.afterEdits t (relationEdits (Document.parse t) c request)) := by
    rw [edited.model?, base.models name isModel]
    refine Option.map_congr fun m inText => ?_
    have named : m.name = name := (plain.model? inText).1
    unfold Model.afterEdits
    rw [base.rows m.name (named ▸ isModel)]
  have kept (name : Text) (isModel : (Document.parse t).hasModel name) : (Document.parse once).hasModel name := by
    rw [Document.hasModel, models name isModel, Option.isSome_map]
    exact isModel
  have baseOnce : relationBase once c request = once := relationBase_self fun manyToMany explicit => by
    rw [Document.hasModel, edited.model?, Option.isSome_map]
    exact plain.relationBase_hasModel hasSource hasTarget manyToMany explicit
  refine ⟨once, atOnce ▸ plain.addRelation_run request hasSource hasTarget, ?_⟩
  have keptSource := kept _ hasSource
  have keptTarget := kept _ hasTarget
  have editsOnce := edited.plain.writableEdits request keptSource keptTarget
  rw [edited.plain.addRelation_run request keptSource keptTarget, baseOnce]
  refine congrArg Except.ok (edited.plain.runEdits_self (fun e member => (editsOnce e member).1) fun model rs found => ?_)
  have sides {es : List FieldEdit} (within : ∀ e ∈ es, e.model = c.sourceModel ∨ e.model = c.targetModel)
      (other : ¬(model = c.sourceModel ∨ model = c.targetModel)) (rs : List Text) : rowsAfter es model rs = rs := by
    have outside : ∀ e ∈ es, ¬e.model = model := fun e member same => other (same ▸ within e member)
    rw [rowsAfter, List.filter_eq_nil_iff.mpr (by simpa using outside)]
    rfl
  by_cases side : model = c.sourceModel ∨ model = c.targetModel
  · have isModel : (Document.parse t).hasModel model := by
      rcases side with rfl | rfl
      · exact hasSource
      · exact hasTarget
    rw [edited.rows, base.rows model isModel] at found
    obtain ⟨old, inText, rfl⟩ := Option.map_eq_some_iff.mp found
    exact again (Document.parse once) models model side old inText
  · exact sides (fun e member => (editsOnce e member).2) side rs

section

variable {t : Text} (plain : IsPlainText t) {c : Connection} {source target : Model}
  (isSource : (Document.parse t).model? c.sourceModel = some source)
  (isTarget : (Document.parse t).model? c.targetModel = some target)
  {d' : Document} {edits : List FieldEdit} (after : d'.model? c.sourceModel = some (source.afterEdits t edits))
  (afterTarget : d'.model? c.targetModel = some (target.afterEdits t edits))
  {model : Text} {rs : List Text} (found : modelRows? t model = some rs)

include plain isSource isTarget after afterTarget found in
theorem IsPlainText.keyRelation_again (sourceLetter : ∃ ch ∈ c.sourceModel, isAlphanumeric ch)
    (targetLetter : ∃ ch ∈ c.targetModel, isAlphanumeric ch) {f g : Field}
    (sourceField : source.field? c.sourceField = some f) (targetField : target.field? c.targetField = some g)
    {p : KeyPlacement} (placed : KeyPlacement.ofConnection (Document.parse t) c = p) {nullable oneToMany : Bool}
    (free : p.IsFree t oneToMany) (made : edits = p.edits (Document.parse t) nullable oneToMany)
    (apart : ∀ e ∈ p.fieldEdits nullable oneToMany, e.model = model → EndsApart e.field.name rs) :
    KeyPlacement.ofConnection d' c = p ∧
      rowsAfter (p.edits d' nullable oneToMany) model (rowsAfter edits model rs) = rowsAfter edits model rs := by
  subst placed
  have sides := KeyPlacement.ofConnection_sides (Document.parse t) c
  have letter : ∃ ch ∈ (KeyPlacement.ofConnection (Document.parse t) c).referenced, isAlphanumeric ch := by
    rcases sides with ⟨-, referenced, -⟩ | ⟨-, referenced, -⟩
    · exact referenced ▸ targetLetter
    · exact referenced ▸ sourceLetter
  refine ⟨plain.placement_again isSource isTarget sourceField targetField free letter made after afterTarget, ?_⟩
  obtain ⟨m, isHolder, holderAfter⟩ : ∃ m,
      (Document.parse t).model? (KeyPlacement.ofConnection (Document.parse t) c).holder = some m ∧
        d'.model? (KeyPlacement.ofConnection (Document.parse t) c).holder = some (m.afterEdits t edits) := by
    rcases sides with ⟨holder, -⟩ | ⟨holder, -⟩
    · exact ⟨source, holder ▸ isSource, holder ▸ after⟩
    · exact ⟨target, holder ▸ isTarget, holder ▸ afterTarget⟩
  subst made
  exact plain.keyEdits_again (plain.placement isSource isTarget) (plain.foreignKey_ne_nil isSource isTarget letter) letter
    (plain.foreignKey_ne_listName isSource isTarget) isHolder holderAfter found apart

end

section

variable {c : Connection} {request : RelationRequest}

theorem relationEdits_of_key (keyed : request.cardinality ≠ .manyToMany) (d : Document) :
    relationEdits d c request = (KeyPlacement.ofConnection d c).edits d ((KeyPlacement.ofConnection d c).nullable request)
      (request.cardinality = .oneToMany) := by
  obtain ⟨cardinality, mode, order, nullableSource, nullableTarget⟩ := request
  cases cardinality with
  | oneToOne => rfl
  | oneToMany => rfl
  | manyToMany => exact absurd rfl keyed

/-- A relation by a key writes the fields that follow its column into the places it takes. -/
theorem takenFields_of_key (keyed : request.cardinality ≠ .manyToMany) (d : Document) (nullable : Bool) :
    takenFields d c request =
      ((KeyPlacement.ofConnection d c).fieldEdits nullable (request.cardinality = .oneToMany)).map
        fun e => (e.model, e.field.name) := by
  obtain ⟨cardinality, mode, order, nullableSource, nullableTarget⟩ := request
  cases cardinality with
  | oneToOne => rfl
  | oneToMany => rfl
  | manyToMany => exact absurd rfl keyed

/-- A relation by lists makes the same two edits whatever is there. -/
theorem relationEdits_of_lists (lists : request.cardinality = .manyToMany) :
    ∃ e g : FieldEdit, (∀ d, relationEdits d c request = [e, g] ∧
        takenFields d c request = [(e.model, e.field.name), (g.model, g.field.name)]) ∧
      (e.field.name ≠ [] ∧ e.replaces) ∧ g.field.name ≠ [] ∧ g.replaces := by
  obtain ⟨cardinality, mode, order, nullableSource, nullableTarget⟩ := request
  obtain rfl : cardinality = .manyToMany := lists
  cases mode with
  | implicit =>
    exact ⟨_, _, fun d => ⟨rfl, rfl⟩, ⟨listFieldName_ne_nil _, rfl⟩, listFieldName_ne_nil _, rfl⟩
  | explicit =>
    exact ⟨_, _, fun d => ⟨rfl, rfl⟩, ⟨listFieldName_ne_nil _, rfl⟩, listFieldName_ne_nil _, rfl⟩

end

/-- Relating two models twice is relating them once. The relation takes the place of no column and of no identity,
and no name that it writes stands alone in front of a closing brace. In a model that refers to itself, the column of the
key is not the identity, or every line that begins with its name is a field. -/
theorem addRelation_idempotent {t : Text} (plain : IsPlainText t) {c : Connection} {request : RelationRequest}
    (sourceLetter : ∃ ch ∈ c.sourceModel, isAlphanumeric ch) (targetLetter : ∃ ch ∈ c.targetModel, isAlphanumeric ch)
    (sourceField : ((Document.parse t).field? c.sourceModel c.sourceField).isSome)
    (targetField : ((Document.parse t).field? c.targetModel c.targetField).isSome)
    (free : request.cardinality ≠ .manyToMany → ∀ place ∈ takenFields (Document.parse t) c request,
      ∀ f ∈ (Document.parse t).field? place.1 place.2, f.relation.isSome ∧ f.isId = false)
    (apart : ∀ place ∈ takenFields (Document.parse t) c request, ∀ rs ∈ modelRows? t place.1, EndsApart place.2 rs)
    (identity : c.sourceModel = c.targetModel → ∀ place ∈ keyPlace? (Document.parse t) c request,
      ∀ f ∈ (Document.parse t).field? place.1 place.2, f.isId →
        ∀ rs ∈ modelRows? t place.1, ∀ l ∈ shownLines rs, firstWord? l = some place.2 → (lineField? l).isSome) :
    ∃ once, addRelation t c request = .ok once ∧ addRelation once c request = .ok once := by
  obtain ⟨f, inText⟩ := Option.isSome_iff_exists.mp sourceField
  obtain ⟨g, inTextTarget⟩ := Option.isSome_iff_exists.mp targetField
  obtain ⟨source, isSource, inSource⟩ := Option.bind_eq_some_iff.mp inText
  obtain ⟨target, isTarget, inTarget⟩ := Option.bind_eq_some_iff.mp inTextTarget
  have hasSource : (Document.parse t).hasModel c.sourceModel := by rw [Document.hasModel, isSource]; rfl
  have hasTarget : (Document.parse t).hasModel c.targetModel := by rw [Document.hasModel, isTarget]; rfl
  refine plain.addRelation_again request hasSource hasTarget fun d' models model side rs found => ?_
  have writable := plain.writableEdits request hasSource hasTarget
  have after := models _ hasSource
  have afterTarget := models _ hasTarget
  rw [isSource, Option.map_some] at after
  rw [isTarget, Option.map_some] at afterTarget
  by_cases lists : request.cardinality = .manyToMany
  · obtain ⟨e, other, edits, ⟨named, replaces⟩, namedOther, replacesOther⟩ := relationEdits_of_lists lists (c := c)
    have writable := plain.writableEdits request hasSource hasTarget
    rw [(edits (Document.parse t)).1] at writable
    rw [(edits (Document.parse t)).2] at apart
    obtain ⟨⟨here, -⟩, there⟩ := List.forall_mem_cons.mp writable
    rw [(edits (Document.parse t)).1, (edits d').1]
    refine rowsAfter_repeat_pair ⟨here, named, replaces⟩ (plain.modelRows found) (fun inModel => ?_)
      ⟨(there other List.mem_cons_self).1, namedOther, replacesOther⟩ fun inModel => ?_
    · exact apart _ List.mem_cons_self rs (inModel ▸ found)
    · exact apart _ (List.mem_cons_of_mem _ List.mem_cons_self) rs (inModel ▸ found)
  · obtain ⟨p, placed⟩ : ∃ p, KeyPlacement.ofConnection (Document.parse t) c = p := ⟨_, rfl⟩
    have taken := takenFields_of_key (c := c) lists (Document.parse t) (p.nullable request)
    have edits := relationEdits_of_key (c := c) lists (Document.parse t)
    have place : keyPlace? (Document.parse t) c request = some (p.holder, p.foreignKey) := by
      rw [keyPlace?, if_neg lists, placed]
    rw [placed] at taken edits
    have isFree : p.IsFree t (request.cardinality = .oneToMany) := by
      refine ⟨free lists (p.holder, p.relationName) (taken ▸ List.mem_cons_self), fun oneToMany => ?_,
        fun self => identity ?_ _ place⟩
      · refine free lists (p.referenced, p.listName) ?_
        rw [taken, KeyPlacement.fieldEdits, if_pos oneToMany]
        exact List.mem_cons_of_mem _ List.mem_cons_self
      · rcases KeyPlacement.ofConnection_sides (Document.parse t) c with ⟨holder, referenced, -⟩ | ⟨holder, referenced, -⟩
        · rw [← holder, ← referenced, placed, self]
        · rw [← holder, ← referenced, placed, self]
    obtain ⟨again, settled⟩ := plain.keyRelation_again isSource isTarget after afterTarget found sourceLetter targetLetter
      inSource inTarget placed isFree edits fun e member inModel =>
        apart (e.model, e.field.name) (taken ▸ List.mem_map_of_mem member) rs (inModel ▸ found)
    rw [relationEdits_of_key lists d', again]
    exact settled

/-- A model that refers to itself, written without white space around its last field. -/
def repliesSchema : Text :=
  txt "model Reply \x7b\n  id Int @id\n  parentId Int // above\n  text String\x7d\n"

theorem addRelation_idempotent_repliesSchema :
    ∃ once, addRelation repliesSchema ⟨txt "Reply", txt "id", txt "Reply", txt "parentId"⟩
        ⟨.oneToMany, .implicit, .sourceFirst, false, true⟩ = .ok once ∧
      addRelation once ⟨txt "Reply", txt "id", txt "Reply", txt "parentId"⟩
        ⟨.oneToMany, .implicit, .sourceFirst, false, true⟩ = .ok once := by
  have letter : ∃ ch ∈ txt "Reply", isAlphanumeric ch := ⟨'R', by decide, by decide⟩
  refine addRelation_idempotent ?_ letter letter ?_ ?_ ?_ ?_ ?_
  all_goals decide +kernel

/-- A schema with a name that stands alone in front of a closing brace. -/
def authorsSchema : Text :=
  txt "model User \x7b\n  id Int @id\n\x7d\n\nmodel Post \x7b\n  id Int @id\n  authorId Int\n  author\x7d\n"

/-- There the first run does not see a field in the name, and the second one does. -/
theorem addRelation_twice_authorsSchema :
    (IsPlainText authorsSchema ∧
      ((Document.parse authorsSchema).field? (txt "Post") (txt "authorId")).isSome ∧
      ((Document.parse authorsSchema).field? (txt "User") (txt "id")).isSome ∧
      ∀ place ∈ takenFields (Document.parse authorsSchema) ⟨txt "Post", txt "authorId", txt "User", txt "id"⟩
          ⟨.oneToOne, .implicit, .sourceFirst, false, false⟩,
        ((Document.parse authorsSchema).field? place.1 place.2).isNone) ∧
      ∃ once twice, addRelation authorsSchema ⟨txt "Post", txt "authorId", txt "User", txt "id"⟩
          ⟨.oneToOne, .implicit, .sourceFirst, false, false⟩ = .ok once ∧
        addRelation once ⟨txt "Post", txt "authorId", txt "User", txt "id"⟩
          ⟨.oneToOne, .implicit, .sourceFirst, false, false⟩ = .ok twice ∧ twice ≠ once := by
  refine ⟨by decide +kernel, txt "model User \x7b\n  id Int @id\n\x7d\n\nmodel Post \x7b\n  id Int @id\n" ++
      txt "  authorId Int\n  author\n  author User @relation(fields: [authorId], references: [id])\n\x7d\n",
    txt "model User \x7b\n  id Int @id\n\x7d\n\nmodel Post \x7b\n  id Int @id\n  authorId Int\n" ++
      txt "  author User @relation(fields: [authorId], references: [id])\n" ++
      txt "  author User @relation(fields: [authorId], references: [id])\n\x7d\n", ?_, ?_, ?_⟩
  all_goals decide +kernel

end SchemaDiagram

import SchemaDiagram.Proofs.AppendedModel
import SchemaDiagram.Proofs.RelationScript

namespace SchemaDiagram

open Text

/-- What an appended model writes for its lines. -/
def modelBody (fields attributes : List Text) : Text :=
  '\n' :: (fields.flatMap fun line => defaultIndent ++ line ++ txt "\n") ++
    (if attributes.isEmpty then [] else txt "\n" ++ attributes.flatMap fun line => defaultIndent ++ line ++ txt "\n")

theorem appendModel_eq {t : Text} (some : trimEnd t ≠ []) (name : Text) (fields attributes : List Text) :
    appendModel t name fields attributes = withModel t name (modelBody fields attributes) := by
  simp [appendModel, withModel, modelBlock, modelBody, some, txt]

theorem isPlainBody_nil : IsPlainBody [] := isBodyRows_rows.mp (isBodyRows_singleton.mpr ⟨isBodyRow_nil, rfl⟩)

theorem isPlainBody_newline {rest : Text} (plain : IsPlainBody rest) : IsPlainBody ('\n' :: rest) :=
  (isPlainBody_append_newline (r := []) (by simp)).mpr ⟨isBodyRow_nil, plain⟩

theorem isPlainBody_entries {entries : List Text} (code : ∀ line ∈ entries, IsCode line) {rest : Text}
    (plain : IsPlainBody rest) :
    IsPlainBody ((entries.flatMap fun line => defaultIndent ++ line ++ txt "\n") ++ rest) := by
  induction entries with
  | nil => exact plain
  | cons line entries ih =>
    obtain ⟨here, later⟩ := List.forall_mem_cons.mp code
    have row : IsCode (defaultIndent ++ line) := here.indented (by decide)
    have newline (u : Text) : txt "\n" ++ u = '\n' :: u := rfl
    rw [List.flatMap_cons, List.append_assoc, List.append_assoc, newline]
    exact (isPlainBody_append_newline row.inLine).mpr ⟨row.isBodyRow, ih later⟩

theorem isPlainBody_modelBody {fields attributes : List Text} (fieldCode : ∀ line ∈ fields, IsCode line)
    (attributeCode : ∀ line ∈ attributes, IsCode line) : IsPlainBody (modelBody fields attributes) := by
  have tail : IsPlainBody (if attributes.isEmpty then [] else
      txt "\n" ++ attributes.flatMap fun line => defaultIndent ++ line ++ txt "\n") := by
    split
    · exact isPlainBody_nil
    · have all := isPlainBody_entries attributeCode isPlainBody_nil
      rw [List.append_nil] at all
      exact isPlainBody_newline all
  exact isPlainBody_newline (isPlainBody_entries fieldCode tail)

theorem isWordChar_toUpper {c : Char} (ascii : isAscii c) (letter : isWordChar c) : isWordChar c.toUpper :=
  forall_ascii (p := fun c => isWordChar c → isWordChar c.toUpper) (by decide +kernel) ascii letter

theorem IsPlainName.capitalizeFirst {name : Text} (plain : IsPlainName name) : IsPlainName (capitalizeFirst name) := by
  rcases name with _ | ⟨c, name⟩
  · exact plain
  · obtain ⟨⟨ascii, letter⟩, later⟩ := List.forall_mem_cons.mp plain
    rw [SchemaDiagram.capitalizeFirst, upperForm_ascii ascii]
    exact List.forall_mem_cons.mpr ⟨⟨isAscii_toUpper ascii, isWordChar_toUpper ascii letter⟩, later⟩

/-- What a junction says of a model can be written. -/
structure JunctionSide.IsSound (side : JunctionSide) : Prop where
  model : IsWord side.model ∧ IsPlainName side.model
  foreignKey : IsPlainName side.foreignKey
  relationField : IsPlainName side.relationField
  keyType : IsTypeName side.keyType ∧ IsCode side.keyType
  identity : IsPlainName side.identity

theorem JunctionSide.IsSound.related {side : JunctionSide} (sound : side.IsSound) : side.related.IsSound :=
  have label : IsPlainName (txt "related") := isPlainName_literal (by decide)
  ⟨sound.model, label.append sound.foreignKey.capitalizeFirst, label.append sound.relationField.capitalizeFirst,
    sound.keyType, sound.identity⟩

namespace JunctionSide

/-- The column that a junction has for one of its sides. -/
def column (side : JunctionSide) : Field := keyColumn side.foreignKey side.keyType false false

/-- The field beside that column. -/
def key (side : JunctionSide) : Field :=
  SchemaDiagram.relationField side.relationField side.model side.foreignKey side.identity false

def fields (side : JunctionSide) : List Field := [side.column, side.key]

theorem lines_eq (side : JunctionSide) : side.lines = side.fields.map Field.render := by
  simp [lines, fields, column, key, render_keyColumn, render_relationField]

theorem IsSound.fields {side : JunctionSide} (sound : side.IsSound) : ∀ f ∈ side.fields, f.IsWritable :=
  List.forall_mem_cons.mpr ⟨keyColumn_isWritable sound.foreignKey sound.keyType.1 sound.keyType.2 _ _,
    List.forall_mem_singleton.mpr (relationField_isWritable sound.relationField sound.model.1 sound.model.2
      sound.foreignKey sound.identity _)⟩

end JunctionSide

/-- The attribute of a model whose identity is made of two columns. -/
def identityTag (first second : Text) : Text := txt "@@id([" ++ first ++ txt ", " ++ second ++ txt "])"

/-- The fields of a junction. -/
def junctionFields (d : Document) (c : Connection) (order : JunctionOrder) : List Field :=
  (junctionSides d c order).1.fields ++ (junctionSides d c order).2.fields

/-- The identity of a junction. -/
def junctionTag (d : Document) (c : Connection) (order : JunctionOrder) : Text :=
  identityTag (junctionSides d c order).1.foreignKey (junctionSides d c order).2.foreignKey

theorem identityTag_isToken {first second : Text} (plainFirst : IsPlainName first) (plainSecond : IsPlainName second) :
    IsCode (identityTag first second) ∧ IsToken (identityTag first second) := by
  have inner : IsInner (txt "[" ++ first ++ txt ", " ++ second ++ txt "]") :=
    (((IsInner.append (by unfold IsInner; decide) plainFirst.isInner).append (by unfold IsInner; decide)).append
      plainSecond.isInner).append (by unfold IsInner; decide)
  have split : identityTag first second =
      txt "@@" ++ txt "id" ++ '(' :: (txt "[" ++ first ++ txt ", " ++ second ++ txt "]" ++ [')']) := by
    simp [identityTag, txt]
  rw [split]
  exact isToken_group ⟨'@', txt "id", rfl⟩ (by decide) (by decide) (by decide) inner

section

variable {t : Text} (plain : IsPlainText t)

include plain

theorem IsPlainText.junctionSide {model : Text} {m : Model} (found : (Document.parse t).model? model = some m) :
    (JunctionSide.ofModel (Document.parse t) model).IsSound := by
  obtain ⟨-, word, plainModel, fields⟩ := plain.model? found
  have intName : IsPlainName (txt "Int") := isPlainName_literal (by decide)
  have intType : IsTypeName (txt "Int") ∧ IsCode (txt "Int") := ⟨(intName.isWord (by decide)).isTypeName, intName.isCode⟩
  have idName : IsPlainName (txt "id") := isPlainName_literal (by decide)
  have looked : ((Document.parse t).model? model).bind (·.identity?) = m.identity? := by rw [found]; rfl
  have singular : IsPlainName (singularFieldName model) := isPlainName_of_letters plainModel.lowerCamel
  cases identity : m.identity? with
  | none =>
    rw [identity] at looked
    refine ⟨⟨word, plainModel⟩, ?_, singular, ?_, ?_⟩
    · simpa [JunctionSide.ofModel, looked] using plainModel.foreignKeyName idName
    · simpa [JunctionSide.ofModel, looked] using intType
    · simpa [JunctionSide.ofModel, looked] using idName
  | some f =>
    rw [identity] at looked
    have writable := fields f (Model.identity?_mem identity)
    refine ⟨⟨word, plainModel⟩, ?_, singular, ?_, ?_⟩
    · simpa [JunctionSide.ofModel, looked] using plainModel.foreignKeyName writable.name
    · simpa [JunctionSide.ofModel, looked] using ⟨writable.typed, writable.type⟩
    · simpa [JunctionSide.ofModel, looked] using writable.name

theorem IsPlainText.trimEnd_ne_nil {model : Text} (found : (Document.parse t).hasModel model) : trimEnd t ≠ [] := by
  rw [Document.hasModel, plain.only.model?_eq_findModel, Option.isSome_map] at found
  obtain ⟨d, atModel⟩ := Option.isSome_iff_exists.mp found
  intro empty
  have place := (plain.stop_cases (List.mem_of_find?_eq_some atModel)).1
  simp [empty] at place

end

/-- A text that has the models of another one, and maybe further ones. -/
structure Extends (t t' : Text) : Prop where
  plain : IsPlainText t'
  rows : ∀ model, (Document.parse t).hasModel model → modelRows? t' model = modelRows? t model
  models : ∀ model, (Document.parse t).hasModel model →
    (Document.parse t').model? model = (Document.parse t).model? model

/-- The key is held by one of the two models, and refers to the other one. -/
theorem KeyPlacement.ofConnection_sides (d : Document) (c : Connection) :
    let p := KeyPlacement.ofConnection d c
    (p.holder = c.sourceModel ∧ p.referenced = c.targetModel ∧ p.holderIsSource = true) ∨
      p.holder = c.targetModel ∧ p.referenced = c.sourceModel ∧ p.holderIsSource = false := by
  unfold KeyPlacement.ofConnection
  dsimp only
  split
  · exact Or.inl ⟨rfl, rfl, rfl⟩
  · exact Or.inr ⟨rfl, rfl, rfl⟩

theorem KeyPlacement.IsSound.edits {p : KeyPlacement} {d : Document} (sound : p.IsSound d)
    (nullable oneToMany : Bool) :
    ∀ e ∈ p.edits d nullable oneToMany, e.field.IsWritable ∧ (e.model = p.holder ∨ e.model = p.referenced) := by
  intro e member
  rcases List.mem_append.mp member with column | member
  · obtain ⟨model, writable⟩ := sound.columnEdits _ _ e column
    exact ⟨writable, Or.inl model⟩
  · rcases List.mem_cons.mp member with rfl | member
    · exact ⟨sound.relationEdit nullable, Or.inl rfl⟩
    · cases oneToMany with
      | false => cases member
      | true =>
        rw [if_pos rfl, List.mem_singleton] at member
        subst member
        exact ⟨sound.listEdit, Or.inr rfl⟩

section

variable {t : Text} (plain : IsPlainText t) {c : Connection} (request : RelationRequest)
  (hasSource : (Document.parse t).hasModel c.sourceModel) (hasTarget : (Document.parse t).hasModel c.targetModel)

include plain

theorem IsPlainText.extends_self : Extends t t := ⟨plain, fun _ _ => rfl, fun _ _ => rfl⟩

include hasSource hasTarget

theorem IsPlainText.junctionName_isPlainName (order : JunctionOrder) :
    IsWord (junctionName c order) ∧ IsPlainName (junctionName c order) := by
  obtain ⟨source, isSource⟩ := Option.isSome_iff_exists.mp hasSource
  obtain ⟨target, isTarget⟩ := Option.isSome_iff_exists.mp hasTarget
  obtain ⟨-, -, sourceName, -⟩ := plain.model? isSource
  obtain ⟨-, -, targetName, -⟩ := plain.model? isTarget
  have between : IsPlainName (txt "On") := isPlainName_literal (by decide)
  have plain : IsPlainName (junctionName c order) := by
    cases order with
    | sourceFirst => exact (sourceName.append between).append targetName
    | targetFirst => exact (targetName.append between).append sourceName
  refine ⟨plain.isWord ?_, plain⟩
  cases order <;> simp [junctionName, txt]

theorem IsPlainText.soundSides (order : JunctionOrder) :
    (junctionSides (Document.parse t) c order).1.IsSound ∧ (junctionSides (Document.parse t) c order).2.IsSound := by
  obtain ⟨source, isSource⟩ := Option.isSome_iff_exists.mp hasSource
  obtain ⟨target, isTarget⟩ := Option.isSome_iff_exists.mp hasTarget
  have ofSource := plain.junctionSide isSource
  have ofTarget := plain.junctionSide isTarget
  have choose {first second : JunctionSide} (sound : second.IsSound) :
      (if first.foreignKey = second.foreignKey then second.related else second).IsSound := by
    split
    · exact sound.related
    · exact sound
  cases order with
  | sourceFirst => exact ⟨ofSource, choose ofTarget⟩
  | targetFirst => exact ⟨ofTarget, choose ofSource⟩

omit hasTarget in
/-- A junction that is new is put behind the text. -/
theorem IsPlainText.addJunction_new {order : JunctionOrder}
    (new : (Document.parse t).hasModel (junctionName c order) = false) :
    addJunction t (Document.parse t) c order = withModel t (junctionName c order)
      (modelBody ((junctionFields (Document.parse t) c order).map Field.render) [junctionTag (Document.parse t) c order]) := by
  have lines : (junctionFields (Document.parse t) c order).map Field.render =
      (junctionSides (Document.parse t) c order).1.lines ++ (junctionSides (Document.parse t) c order).2.lines := by
    rw [junctionFields, List.map_append, JunctionSide.lines_eq, JunctionSide.lines_eq]
  have unfolded : addJunction t (Document.parse t) c order =
      if (Document.parse t).hasModel (junctionName c order) then t
      else appendModel t (junctionName c order)
        ((junctionSides (Document.parse t) c order).1.lines ++ (junctionSides (Document.parse t) c order).2.lines)
        [junctionTag (Document.parse t) c order] := rfl
  rw [unfolded, if_neg (by simp [new]), appendModel_eq (plain.trimEnd_ne_nil hasSource), lines]

/-- What a junction is made of can be written. -/
theorem IsPlainText.junction_isSound (order : JunctionOrder) :
    (∀ f ∈ junctionFields (Document.parse t) c order, f.IsWritable) ∧
      ∀ a ∈ [junctionTag (Document.parse t) c order], IsCode a ∧ IsToken a := by
  obtain ⟨first, second⟩ := plain.soundSides hasSource hasTarget order
  exact ⟨List.forall_mem_append.mpr ⟨first.fields, second.fields⟩,
    List.forall_mem_singleton.mpr (identityTag_isToken first.foreignKey second.foreignKey)⟩

theorem IsPlainText.junction_isPlainBody (order : JunctionOrder) :
    IsPlainBody (modelBody ((junctionFields (Document.parse t) c order).map Field.render)
      [junctionTag (Document.parse t) c order]) := by
  obtain ⟨fields, attributes⟩ := plain.junction_isSound hasSource hasTarget order
  refine isPlainBody_modelBody (fun line member => ?_) fun a member => (attributes a member).1
  obtain ⟨f, inJunction, rfl⟩ := List.mem_map.mp member
  exact (fields f inJunction).isFieldLine.code

theorem IsPlainText.junctionAdded {order : JunctionOrder}
    (new : (Document.parse t).hasModel (junctionName c order) = false) :
    ModelAdded t (addJunction t (Document.parse t) c order) (junctionName c order) := by
  obtain ⟨word, plainName⟩ := plain.junctionName_isPlainName hasSource hasTarget order
  rw [plain.addJunction_new hasSource new]
  exact plain.modelAdded word plainName (plain.junction_isPlainBody hasSource hasTarget order)

/-- The text with a junction has it, and has the models as they were. -/
theorem IsPlainText.extendsJunction (order : JunctionOrder) :
    Extends t (addJunction t (Document.parse t) c order) ∧
      (Document.parse (addJunction t (Document.parse t) c order)).hasModel (junctionName c order) := by
  cases there : (Document.parse t).hasModel (junctionName c order) with
  | true =>
    have same : addJunction t (Document.parse t) c order = t := if_pos there
    rw [same]
    exact ⟨plain.extends_self, there⟩
  | false =>
    obtain ⟨plain', rows, models, added⟩ := plain.junctionAdded hasSource hasTarget there
    have other {model : Text} (found : (Document.parse t).hasModel model) : model ≠ junctionName c order := by
      rintro rfl
      rw [there] at found
      cases found
    exact ⟨⟨plain', fun model found => rows model (other found), fun model found => models model (other found)⟩, added⟩

theorem IsPlainText.extendsBase : Extends t (relationBase t c request) := by
  unfold relationBase
  split
  · exact (plain.extendsJunction hasSource hasTarget request.order).1
  · exact plain.extends_self

/-- The fields of a relation can be written, and go into the two models. -/
theorem IsPlainText.writableEdits : ∀ e ∈ relationEdits (Document.parse t) c request,
    e.field.IsWritable ∧ (e.model = c.sourceModel ∨ e.model = c.targetModel) := by
  obtain ⟨source, isSource⟩ := Option.isSome_iff_exists.mp hasSource
  obtain ⟨target, isTarget⟩ := Option.isSome_iff_exists.mp hasTarget
  obtain ⟨-, sourceWord, sourceName, -⟩ := plain.model? isSource
  obtain ⟨-, targetWord, targetName, -⟩ := plain.model? isTarget
  have sound := plain.placement isSource isTarget
  have byKey (nullable oneToMany : Bool) :
      ∀ e ∈ (KeyPlacement.ofConnection (Document.parse t) c).edits (Document.parse t) nullable oneToMany,
        e.field.IsWritable ∧ (e.model = c.sourceModel ∨ e.model = c.targetModel) := by
    intro e member
    obtain ⟨writable, model⟩ := sound.edits nullable oneToMany e member
    refine ⟨writable, ?_⟩
    rcases KeyPlacement.ofConnection_sides (Document.parse t) c with ⟨holder, referenced, -⟩ | ⟨holder, referenced, -⟩
    · rwa [holder, referenced] at model
    · rw [holder, referenced] at model
      exact model.symm
  have junction := plain.junctionName_isPlainName hasSource hasTarget request.order
  unfold relationEdits
  dsimp only
  split
  · exact byKey _ false
  · exact byKey _ true
  · refine List.forall_mem_cons.mpr ⟨⟨?_, Or.inl rfl⟩, List.forall_mem_singleton.mpr ⟨?_, Or.inr rfl⟩⟩
    · exact listField_isWritable targetName.listFieldName targetWord targetName
    · exact listField_isWritable sourceName.listFieldName sourceWord sourceName
  · have list := listField_isWritable junction.2.listFieldName junction.1 junction.2
    exact List.forall_mem_cons.mpr ⟨⟨list, Or.inl rfl⟩, List.forall_mem_singleton.mpr ⟨list, Or.inr rfl⟩⟩

/-- Relating two models runs the edits one by one. -/
theorem IsPlainText.addRelation_run :
    addRelation t c request =
      .ok (runEdits (relationBase t c request)
        (relationEdits (Document.parse t) c request)) := by
  obtain ⟨source, isSource⟩ := Option.isSome_iff_exists.mp hasSource
  obtain ⟨target, isTarget⟩ := Option.isSome_iff_exists.mp hasTarget
  have sound := plain.placement isSource isTarget
  have base := plain.extendsBase request hasSource hasTarget
  have writable := plain.writableEdits request hasSource hasTarget
  have both : ((Document.parse t).hasModel c.sourceModel && (Document.parse t).hasModel c.targetModel) = true := by
    rw [hasSource, hasTarget]
    rfl
  obtain ⟨cardinality, mode, order, nullableSource, nullableTarget⟩ := request
  refine (if_pos both).trans ?_
  match cardinality, mode with
  | .oneToOne, _ => exact relateByKey_run plain rfl sound _ false
  | .oneToMany, _ => exact relateByKey_run plain rfl sound _ true
  | .manyToMany, .implicit =>
    obtain ⟨⟨first, -⟩, later⟩ := List.forall_mem_cons.mp writable
    have run := runLists plain first (List.forall_mem_singleton.mp later).1 rfl rfl
    rw [render_listField, render_listField] at run
    exact run
  | .manyToMany, .explicit =>
    obtain ⟨⟨first, -⟩, later⟩ := List.forall_mem_cons.mp writable
    have run := runLists base.plain first (List.forall_mem_singleton.mp later).1 rfl rfl
    rw [render_listField] at run
    exact run

end

/-- A text that lacks one of the models stays as it is. -/
theorem addRelation_unknown {t : Text} {c : Connection} (request : RelationRequest)
    (unknown : ¬((Document.parse t).hasModel c.sourceModel ∧ (Document.parse t).hasModel c.targetModel)) :
    addRelation t c request = .ok t := by
  rw [addRelation]
  exact if_neg fun both => unknown (Bool.and_eq_true_iff.mp both)

end SchemaDiagram

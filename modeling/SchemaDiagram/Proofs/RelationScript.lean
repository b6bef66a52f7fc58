import SchemaDiagram.Proofs.FieldEdits
import SchemaDiagram.Proofs.FieldNames

namespace SchemaDiagram

open Text

/-- The attribute of a field that refers to a record by its key. -/
def relationTag (foreignKey referenced : Text) : Text :=
  txt "@relation(fields: [" ++ foreignKey ++ txt "], references: [" ++ referenced ++ txt "])"

/-- The field beside the column of a foreign key. -/
def relationField (name model foreignKey referenced : Text) (nullable : Bool) : Field where
  name := name
  type := model
  isList := false
  isOptional := nullable
  attributes := [relationTag foreignKey referenced]
  relation := some (.ofAttribute (relationTag foreignKey referenced))

/-- The column of a foreign key. -/
def keyColumn (name type : Text) (nullable unique : Bool) : Field where
  name := name
  type := type
  isList := false
  isOptional := nullable
  attributes := if unique then [txt "@unique"] else []
  relation := relationOf (if unique then [txt "@unique"] else []) type false

/-- The list of the records of a model. -/
def listField (name model : Text) : Field where
  name := name
  type := model
  isList := true
  isOptional := false
  attributes := []
  relation := relationOf [] model true

namespace KeyPlacement

/-- The field beside the foreign key. -/
def relationName (p : KeyPlacement) : Text := relationFieldName p.foreignKey p.referenced

/-- The list at the other end. -/
def listName (p : KeyPlacement) : Text := listFieldName p.holder

def nullable (p : KeyPlacement) (request : RelationRequest) : Bool :=
  if p.holderIsSource then request.nullableSource else request.nullableTarget

/-- The column of the foreign key, if there is one already. -/
def column? (p : KeyPlacement) (d : Document) : Option Field := (d.model? p.holder).bind (·.field? p.foreignKey)

/-- The column that the foreign key refers to. -/
def referenced? (p : KeyPlacement) (d : Document) : Option Field :=
  (d.model? p.referenced).bind (·.field? p.referencedField)

def keyType (p : KeyPlacement) (d : Document) : Text := ((p.referenced? d).map (·.type)).getD (txt "Int")

/-- The edits that make the column. -/
def columnEdits (p : KeyPlacement) (d : Document) (nullable unique : Bool) : List FieldEdit :=
  match p.column? d with
  | some f => if nullable && !f.isOptional then [⟨p.holder, { f with isOptional := true }, true⟩] else []
  | none => [⟨p.holder, keyColumn p.foreignKey (p.keyType d) nullable unique, false⟩]

/-- The edit that makes the field beside the column. -/
def relationEdit (p : KeyPlacement) (nullable : Bool) : FieldEdit :=
  ⟨p.holder, relationField p.relationName p.referenced p.foreignKey p.referencedField nullable, true⟩

/-- The edit that makes the list at the other end. -/
def listEdit (p : KeyPlacement) : FieldEdit := ⟨p.referenced, listField p.listName p.holder, true⟩

/-- The edits of a relation by a foreign key. -/
def edits (p : KeyPlacement) (d : Document) (nullable oneToMany : Bool) : List FieldEdit :=
  p.columnEdits d nullable (!oneToMany) ++ p.relationEdit nullable :: if oneToMany then [p.listEdit] else []

end KeyPlacement

/-- The edits that make a relation. -/
def relationEdits (d : Document) (c : Connection) (request : RelationRequest) : List FieldEdit :=
  let p := KeyPlacement.ofConnection d c
  let junction := junctionName c request.order
  match request.cardinality, request.mode with
  | .oneToOne, _ => p.edits d (p.nullable request) false
  | .oneToMany, _ => p.edits d (p.nullable request) true
  | .manyToMany, .implicit =>
    [⟨c.sourceModel, listField (listFieldName c.targetModel) c.targetModel, true⟩,
     ⟨c.targetModel, listField (listFieldName c.sourceModel) c.sourceModel, true⟩]
  | .manyToMany, .explicit =>
    [⟨c.sourceModel, listField (listFieldName junction) junction, true⟩,
     ⟨c.targetModel, listField (listFieldName junction) junction, true⟩]

/-- The fields that a relation writes whatever is there: their models and their names. -/
def takenFields (d : Document) (c : Connection) (request : RelationRequest) : List (Text × Text) :=
  let p := KeyPlacement.ofConnection d c
  let junction := listFieldName (junctionName c request.order)
  match request.cardinality, request.mode with
  | .oneToOne, _ => [(p.holder, p.relationName)]
  | .oneToMany, _ => [(p.holder, p.relationName), (p.referenced, p.listName)]
  | .manyToMany, .implicit =>
    [(c.sourceModel, listFieldName c.targetModel), (c.targetModel, listFieldName c.sourceModel)]
  | .manyToMany, .explicit => [(c.sourceModel, junction), (c.targetModel, junction)]

/-- The column of the foreign key of a relation, unless the relation is kept by lists. -/
def keyPlace? (d : Document) (c : Connection) (request : RelationRequest) : Option (Text × Text) :=
  let p := KeyPlacement.ofConnection d c
  if request.cardinality = .manyToMany then none else some (p.holder, p.foreignKey)

/-- The text that the edits of a relation begin with: it has the junction, if there is to be one. -/
def relationBase (t : Text) (c : Connection) (request : RelationRequest) : Text :=
  match request.cardinality, request.mode with
  | .manyToMany, .explicit => addJunction t (Document.parse t) c request.order
  | _, _ => t

theorem render_relationField (name model foreignKey referenced : Text) (nullable : Bool) :
    (relationField name model foreignKey referenced nullable).render =
      keyFieldLine name model (if nullable then txt "?" else []) foreignKey referenced := by
  simp [Field.render_eq, relationField, relationTag, Field.label, typeLabel, keyFieldLine, txt]

theorem render_keyColumn (name type : Text) (nullable unique : Bool) :
    (keyColumn name type nullable unique).render =
      name ++ txt " " ++ type ++ (if nullable then txt "?" else []) ++ (if unique then txt " @unique" else []) := by
  cases unique <;> simp [Field.render_eq, keyColumn, Field.label, typeLabel, txt]

theorem render_listField (name model : Text) : (listField name model).render = listFieldLine name model := by
  simp [Field.render_eq, listField, Field.label, typeLabel, listFieldLine, txt]

/-- A text without strings and parentheses, which may be the arguments of an attribute. -/
def IsInner (t : Text) : Prop := ∀ c ∈ t, isSafeChar c ∧ c ≠ '"' ∧ c ≠ '(' ∧ c ≠ ')'

theorem IsInner.append {s t : Text} (first : IsInner s) (second : IsInner t) : IsInner (s ++ t) :=
  fun c member => (List.mem_append.mp member).elim (first c) (second c)

theorem IsPlainName.isInner {t : Text} (plain : IsPlainName t) : IsInner t := by
  intro c member
  obtain ⟨ascii, letter⟩ := plain c member
  refine ⟨isSafeChar_of_isWordChar ascii letter, ?_, ?_, ?_⟩ <;> rintro rfl <;> exact absurd letter (by decide)

/-- A group without further parentheses and strings ends with the next parenthesis. -/
theorem groupRest_plain {inner : Text} (plain : IsInner inner) (rest : Text) :
    groupRest .outside 0 (inner ++ ')' :: rest) = inner ++ [')'] := by
  induction inner with
  | nil => rfl
  | cons c inner ih =>
    obtain ⟨⟨-, quote, opens, closes⟩, later⟩ := List.forall_mem_cons.mp plain
    rw [List.cons_append, groupRest, ih later]
    simp [quote, opens, closes]

/-- A name with a sign before it and a group of parentheses behind it is an attribute. -/
theorem isToken_group {signs name inner : Text} (signed : ∃ c more, signs ++ name = '@' :: c :: more)
    (inSigns : ∀ c ∈ signs, decide (c = '@') = true) (inName : ∀ c ∈ name, isAttributeNameChar c)
    (safe : ∀ c ∈ signs ++ name, isSafeChar c) (plain : IsInner inner) :
    IsCode (signs ++ name ++ '(' :: (inner ++ [')'])) ∧ IsToken (signs ++ name ++ '(' :: (inner ++ [')'])) := by
  have signStops : Stops (fun c => decide (c = '@')) (name ++ '(' :: (inner ++ [')'])) := by
    rcases name with _ | ⟨c, name⟩
    · exact stops_cons (by decide)
    · refine stops_cons (decide_eq_false ?_)
      rintro rfl
      exact absurd (inName '@' (by simp)) (by decide)
  have token : attributeToken (signs ++ (name ++ '(' :: (inner ++ [')']))) =
      signs ++ name ++ group ('(' :: (inner ++ [')'])) :=
    attributeToken_append inSigns signStops inName (stops_cons (by decide))
  refine ⟨isCode_of_safe fun c member => ?_, ?_, ?_, ?_⟩
  · rcases List.mem_append.mp member with lead | inGroup
    · exact safe c lead
    · rcases List.mem_cons.mp inGroup with rfl | inGroup
      · decide
      · rcases List.mem_append.mp inGroup with inside | last
        · exact (plain c inside).1
        · rw [List.mem_singleton.mp last]
          decide
  · obtain ⟨c, more, whole⟩ := signed
    exact ⟨c, more ++ '(' :: (inner ++ [')']), by rw [whole]; rfl⟩
  · rw [← List.cons_append, ← List.append_assoc]
    exact stops_reverse_append (by simp) (stops_cons (by decide))
  · rw [List.append_assoc, token, group, groupRest_plain plain]
    simp

theorem IsWord.isTypeName {t : Text} (word : IsWord t) : IsTypeName t :=
  ⟨t, [], (List.append_nil t).symm, word, Or.inl rfl⟩

section

variable {name model foreignKey referenced : Text}

theorem relationTag_isToken (plainKey : IsPlainName foreignKey) (plainReferenced : IsPlainName referenced) :
    IsCode (relationTag foreignKey referenced) ∧ IsToken (relationTag foreignKey referenced) := by
  have inner : IsInner (txt "fields: [" ++ foreignKey ++ txt "], references: [" ++ referenced ++ txt "]") :=
    (((IsInner.append (by unfold IsInner; decide) plainKey.isInner).append (by unfold IsInner; decide)).append
      plainReferenced.isInner).append (by unfold IsInner; decide)
  have split : relationTag foreignKey referenced = txt "@" ++ txt "relation" ++
      '(' :: (txt "fields: [" ++ foreignKey ++ txt "], references: [" ++ referenced ++ txt "]" ++ [')']) := by
    simp [relationTag, txt]
  rw [split]
  exact isToken_group ⟨'r', txt "elation", rfl⟩ (by decide) (by decide) (by decide) inner

theorem relationField_isWritable (plainName : IsPlainName name) (word : IsWord model) (plainModel : IsPlainName model)
    (plainKey : IsPlainName foreignKey) (plainReferenced : IsPlainName referenced) (nullable : Bool) :
    (relationField name model foreignKey referenced nullable).IsWritable := by
  obtain ⟨code, token⟩ := relationTag_isToken plainKey plainReferenced
  have relation : (txt "@relation").isPrefixOf (relationTag foreignKey referenced) = true := by
    rw [relationTag]
    simp [txt, List.isPrefixOf]
  exact ⟨plainName, word.isTypeName, plainModel.isCode, .last token, by simpa [relationField] using code, by
    simp [relationField, relationOf, relation]⟩

theorem keyColumn_isWritable {type : Text} (plainName : IsPlainName name) (typed : IsTypeName type) (code : IsCode type)
    (nullable unique : Bool) : (keyColumn name type nullable unique).IsWritable := by
  refine ⟨plainName, typed, code, ?_, ?_, rfl⟩
  · cases unique with
    | false => exact .nil
    | true => exact .last ⟨⟨'u', txt "nique", rfl⟩, stops_cons (by decide), by decide⟩
  · cases unique with
    | false => simp [keyColumn]
    | true => simpa [keyColumn] using isCode_of_safe (t := txt "@unique") (by decide)

theorem listField_isWritable (plainName : IsPlainName name) (word : IsWord model) (plainModel : IsPlainName model) :
    (listField name model).IsWritable :=
  ⟨plainName, word.isTypeName, plainModel.isCode, .nil, by simp [listField], rfl⟩

end

section

variable {t : Text} (plain : IsPlainText t)

include plain

variable {f : Field} (writable : f.IsWritable) (model : Text)

include writable

theorem IsPlainText.upsertField_run :
    upsertField t model f.name f.render = .ok (FieldEdit.run t ⟨model, f, true⟩) := by
  by_cases protected' : f.name = protectedField
  · have same : FieldEdit.run t ⟨model, f, true⟩ = t :=
      plain.editModel_self fun rs _ => by simp [FieldEdit.apply, protected']
    rw [same, upsertField, if_pos protected']
  · rw [plain.upsertField_eq model f.name writable.isFieldLine protected']
    refine congrArg Except.ok (editModel_congr fun rs _ => ?_)
    simp [FieldEdit.apply, protected']

omit writable in
theorem IsPlainText.insertField_run : insertField t model f.render = FieldEdit.run t ⟨model, f, false⟩ :=
  plain.insertField_eq model f.render

/-- To replace a field that is there is to put it in the place of the one of its name. -/
theorem IsPlainText.replaceField_run {m : Model} (found : (Document.parse t).model? model = some m) {g : Field}
    (there : m.field? f.name = some g) :
    replaceField t model f.name f.render = .ok (FieldEdit.run t ⟨model, f, true⟩) := by
  by_cases protected' : f.name = protectedField
  · have same : FieldEdit.run t ⟨model, f, true⟩ = t :=
      plain.editModel_self fun rs _ => by simp [FieldEdit.apply, protected']
    rw [same, replaceField, if_pos protected']
  · rw [plain.replaceField_eq model f.name writable.isFieldLine protected']
    refine congrArg Except.ok (editModel_congr fun rs atRows => ?_)
    have member : m ∈ (Document.parse t).models := List.mem_of_find?_eq_some found
    have named : m.name = model := (plain.model? found).1
    rw [← named] at atRows
    rw [plain.eq_ofRows member atRows, Model.field?_ofRows] at there
    simp [FieldEdit.apply, protected', upsertRow, hasRow_of_linesField? there]

end

theorem Model.identity?_mem {m : Model} {f : Field} (found : m.identity? = some f) : f ∈ m.fields := by
  rw [Model.identity?, Option.or_eq_some_iff] at found
  rcases found with marked | ⟨-, named⟩
  · exact List.mem_of_find?_eq_some marked
  · exact List.mem_of_find?_eq_some named

/-- A foreign key refers to a field of the model, or else to the name that an identity has by default. -/
theorem keyTarget_cases (m : Model) (requested : Text) :
    (∃ f ∈ m.fields, keyTarget (some m) requested = f.name) ∨ keyTarget (some m) requested = protectedField := by
  cases target : ((m.field? requested).filter fun f => f.relation.isNone && !f.isList).or m.identity? with
  | none => exact Or.inr (by simp only [keyTarget, target]; rfl)
  | some f =>
    refine Or.inl ⟨f, ?_, by simp only [keyTarget, target]; rfl⟩
    rw [Option.or_eq_some_iff] at target
    rcases target with asked | ⟨-, identity⟩
    · exact List.mem_of_find?_eq_some (Option.filter_eq_some_iff.mp asked).1
    · exact Model.identity?_mem identity

/-- What a placement says of the text it was computed from. -/
structure KeyPlacement.IsSound (p : KeyPlacement) (d : Document) : Prop where
  holder : IsWord p.holder ∧ IsPlainName p.holder
  referenced : IsWord p.referenced ∧ IsPlainName p.referenced
  foreignKey : IsPlainName p.foreignKey
  referencedField : IsPlainName p.referencedField
  keyType : IsTypeName (p.keyType d) ∧ IsCode (p.keyType d)
  column : ∀ f, p.column? d = some f → f.IsWritable ∧ f.name = p.foreignKey

theorem IsPlainText.field? {t : Text} (plain : IsPlainText t) {model name : Text} {f : Field}
    (found : ((Document.parse t).model? model).bind (·.field? name) = some f) : f.IsWritable ∧ f.name = name := by
  obtain ⟨m, isModel, inModel⟩ := Option.bind_eq_some_iff.mp found
  obtain ⟨-, -, -, fields⟩ := plain.model? isModel
  exact ⟨fields f (List.mem_of_find?_eq_some inModel), by simpa using List.find?_some inModel⟩

theorem IsPlainText.keyTarget {t : Text} (plain : IsPlainText t) {model : Text} {m : Model}
    (found : (Document.parse t).model? model = some m) (requested : Text) :
    IsPlainName (keyTarget (some m) requested) := by
  rcases keyTarget_cases m requested with ⟨f, member, same⟩ | same
  · rw [same]
    exact ((plain.model? found).2.2.2 f member).name
  · rw [same]
    exact isPlainName_literal (by decide)

theorem holdsForeignKey_field? {m : Model} {field : Text} (holds : holdsForeignKey (some m) field) :
    ∃ f, m.field? field = some f := by
  simp only [holdsForeignKey, Bool.and_eq_true, Option.any_some] at holds
  exact Option.isSome_iff_exists.mp holds.2

theorem IsPlainText.placement {t : Text} (plain : IsPlainText t) {c : Connection} {source target : Model}
    (isSource : (Document.parse t).model? c.sourceModel = some source)
    (isTarget : (Document.parse t).model? c.targetModel = some target) :
    (KeyPlacement.ofConnection (Document.parse t) c).IsSound (Document.parse t) := by
  obtain ⟨-, sourceWord, sourceName, sourceFields⟩ := plain.model? isSource
  obtain ⟨-, targetWord, targetName, targetFields⟩ := plain.model? isTarget
  have keyName {m : Model} {field : Text} (fields : ∀ f ∈ m.fields, f.IsWritable)
      (holds : holdsForeignKey (some m) field) : IsPlainName field := by
    obtain ⟨f, found⟩ := holdsForeignKey_field? holds
    have named : f.name = field := by simpa using List.find?_some found
    exact named ▸ (fields f (List.mem_of_find?_eq_some found)).name
  have typed (p : KeyPlacement) : IsTypeName (p.keyType (Document.parse t)) ∧ IsCode (p.keyType (Document.parse t)) := by
    rw [KeyPlacement.keyType]
    cases referenced : p.referenced? (Document.parse t) with
    | none => exact ⟨IsWord.isTypeName (by decide : txt "Int" ≠ [] ∧ ∀ c ∈ txt "Int", isWordChar c),
        isCode_of_safe (t := txt "Int") (by decide)⟩
    | some f =>
      have writable := (plain.field? referenced).1
      exact ⟨writable.typed, writable.type⟩
  have column (p : KeyPlacement) (f : Field) (found : p.column? (Document.parse t) = some f) :
      f.IsWritable ∧ f.name = p.foreignKey := plain.field? found
  unfold KeyPlacement.ofConnection
  rw [isSource, isTarget]
  by_cases holds : holdsForeignKey (some source) c.sourceField
  · rw [if_pos holds]
    exact ⟨⟨sourceWord, sourceName⟩, ⟨targetWord, targetName⟩, keyName sourceFields holds,
      plain.keyTarget isTarget _, typed _, column _⟩
  · rw [if_neg holds]
    have referenced := plain.keyTarget isSource c.sourceField
    refine ⟨⟨targetWord, targetName⟩, ⟨sourceWord, sourceName⟩, ?_, referenced, typed _, column _⟩
    show IsPlainName (if holdsForeignKey (some target) c.targetField then c.targetField
      else foreignKeyName c.sourceModel _)
    split
    · rename_i holdsTarget
      exact keyName targetFields holdsTarget
    · exact sourceName.foreignKeyName referenced

/-- Making an optional column of a field changes nothing else of it. -/
theorem Field.IsWritable.optional {f : Field} (writable : f.IsWritable) :
    ({ f with isOptional := true } : Field).IsWritable :=
  ⟨writable.name, writable.typed, writable.type, writable.tokens, writable.attributes, writable.relation⟩

theorem KeyPlacement.IsSound.columnEdits {p : KeyPlacement} {d : Document} (sound : p.IsSound d)
    (nullable unique : Bool) : ∀ e ∈ p.columnEdits d nullable unique, e.model = p.holder ∧ e.field.IsWritable := by
  unfold KeyPlacement.columnEdits
  split
  · rename_i f found
    split
    · simpa using (sound.column f found).1.optional
    · simp
  · simpa using keyColumn_isWritable sound.foreignKey sound.keyType.1 sound.keyType.2 nullable unique

theorem KeyPlacement.IsSound.relationEdit {p : KeyPlacement} {d : Document} (sound : p.IsSound d)
    (nullable : Bool) : (p.relationEdit nullable).field.IsWritable :=
  relationField_isWritable (sound.foreignKey.relationFieldName sound.referenced.2) sound.referenced.1
    sound.referenced.2 sound.foreignKey sound.referencedField nullable

theorem KeyPlacement.IsSound.listEdit {p : KeyPlacement} {d : Document} (sound : p.IsSound d) :
    p.listEdit.field.IsWritable :=
  listField_isWritable sound.holder.2.listFieldName sound.holder.1 sound.holder.2

theorem runEdits_append (t : Text) (first later : List FieldEdit) :
    runEdits t (first ++ later) = runEdits (runEdits t first) later := List.foldl_append

theorem ensureForeignKey_run {t : Text} (plain : IsPlainText t) {p : KeyPlacement}
    (sound : p.IsSound (Document.parse t)) (nullable unique : Bool) :
    ensureForeignKey t (Document.parse t) p (p.keyType (Document.parse t)) nullable unique =
      .ok (runEdits t (p.columnEdits (Document.parse t) nullable unique)) := by
  have column : ((Document.parse t).model? p.holder).bind (·.field? p.foreignKey) = p.column? (Document.parse t) := rfl
  unfold ensureForeignKey KeyPlacement.columnEdits
  rw [column]
  cases found : p.column? (Document.parse t) with
  | none =>
    rw [← render_keyColumn, plain.insertField_run]
    rfl
  | some f =>
    obtain ⟨writable, named⟩ := sound.column f found
    obtain ⟨m, isModel, inModel⟩ := Option.bind_eq_some_iff.mp found
    dsimp only
    split
    · rw [← named] at inModel
      exact plain.replaceField_run (f := { f with isOptional := true }) writable.optional p.holder isModel inModel
    · rfl

/-- Relating by a key runs the edits one by one. -/
theorem relateByKey_run {t : Text} (plain : IsPlainText t) {c : Connection} {p : KeyPlacement}
    (placed : KeyPlacement.ofConnection (Document.parse t) c = p) (sound : p.IsSound (Document.parse t))
    (request : RelationRequest) (oneToMany : Bool) :
    relateByKey t (Document.parse t) c request oneToMany =
      .ok (runEdits t (p.edits (Document.parse t) (p.nullable request) oneToMany)) := by
  have unfolded : relateByKey t (Document.parse t) c request oneToMany =
      (ensureForeignKey t (Document.parse t) p (p.keyType (Document.parse t)) (p.nullable request) (!oneToMany)).bind
        fun withKey => (upsertField withKey p.holder p.relationName (keyFieldLine p.relationName p.referenced
          (if p.nullable request then txt "?" else []) p.foreignKey p.referencedField)).bind
        fun withField => if oneToMany then upsertField withField p.referenced p.listName
          (listFieldLine p.listName p.holder) else .ok withField := by
    subst placed
    rfl
  obtain ⟨withKey, atKey⟩ : ∃ withKey,
    withKey = runEdits t (p.columnEdits (Document.parse t) (p.nullable request) (!oneToMany)) := ⟨_, rfl⟩
  have keyPlain : IsPlainText withKey := by
    rw [atKey]
    exact (plain.edited fun e member => (sound.columnEdits _ _ e member).2).plain
  have relation := sound.relationEdit (p.nullable request)
  have withRelation : upsertField withKey p.holder p.relationName
      (relationField p.relationName p.referenced p.foreignKey p.referencedField (p.nullable request)).render =
        .ok ((p.relationEdit (p.nullable request)).run withKey) := keyPlain.upsertField_run relation p.holder
  have withList : upsertField ((p.relationEdit (p.nullable request)).run withKey) p.referenced p.listName
      (listField p.listName p.holder).render =
        .ok (p.listEdit.run ((p.relationEdit (p.nullable request)).run withKey)) :=
    (keyPlain.edited_singleton relation).plain.upsertField_run sound.listEdit p.referenced
  rw [unfolded, ensureForeignKey_run plain sound, ← render_relationField, ← render_listField, KeyPlacement.edits,
    runEdits_append, ← atKey, Except.bind, withRelation, Except.bind]
  cases oneToMany with
  | false => rfl
  | true => rw [if_pos rfl, withList, if_pos rfl, runEdits, List.foldl_cons, List.foldl_cons, List.foldl_nil]

/-- Relating two models by lists runs the two edits. -/
theorem runLists {t : Text} (plain : IsPlainText t) {first second : FieldEdit} (writable : first.field.IsWritable)
    (writableSecond : second.field.IsWritable) (replaces : first.replaces = true) (replacesSecond : second.replaces = true) :
    ((upsertField t first.model first.field.name first.field.render).bind fun t' =>
        upsertField t' second.model second.field.name second.field.render) = .ok (runEdits t [first, second]) := by
  obtain ⟨model, f, r⟩ := first
  obtain ⟨model', f', r'⟩ := second
  subst replaces replacesSecond
  have plain' := (plain.edited_singleton (e := ⟨model, f, true⟩) writable).plain
  rw [plain.upsertField_run writable]
  exact plain'.upsertField_run writableSecond model'

end SchemaDiagram

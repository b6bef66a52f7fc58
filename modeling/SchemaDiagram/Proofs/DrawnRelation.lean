import SchemaDiagram.Proofs.DrawnFields
import SchemaDiagram.Proofs.OtherEdges

namespace SchemaDiagram

open Text

/-- A model that is closed and whose name can be the type of a relation. -/
structure IsDrawable (t model : Text) : Prop where
  closed : (modelBody? t model).isSome
  letter : ∃ ch ∈ model, isAlphanumeric ch
  notBuiltIn : model ∉ scalarTypes
  supported : (txt "Unsupported").isPrefixOf model = false

/-- No field of two models has one of them for its type. -/
def Document.AreUnrelated (d : Document) (a b : Text) : Prop :=
  ∀ m ∈ d.models, m.name = a ∨ m.name = b → ∀ f ∈ m.fields, f.type ≠ a ∧ f.type ≠ b

theorem modelRows?_isSome {t model : Text} (closed : (modelBody? t model).isSome) : (modelRows? t model).isSome := by
  rw [modelRows?, Option.isSome_map]
  exact closed

theorem hasModel_of_closed {t model : Text} (plain : IsPlainText t) (closed : (modelBody? t model).isSome) :
    (Document.parse t).hasModel model := by
  obtain ⟨offsets, found⟩ := Option.isSome_iff_exists.mp closed
  obtain ⟨d, isModel, -⟩ := Option.bind_eq_some_iff.mp found
  rw [Document.hasModel, plain.only.model?_eq_findModel, isModel]
  rfl

section

variable {t : Text} (plain : IsPlainText t) {p : KeyPlacement} (sound : p.IsSound (Document.parse t)) (keyed : p.foreignKey ≠ [])
  {nullable oneToMany : Bool} (new : p.IsNew t oneToMany) {h o : Model}
  (isHolder : (Document.parse t).model? p.holder = some h) (isOther : (Document.parse t).model? p.referenced = some o)
  (holder : IsDrawable t p.holder) (other : IsDrawable t p.referenced)
  (unrelated : (Document.parse t).AreUnrelated p.holder p.referenced)
  (scalar : (p.referenced? (Document.parse t)).any (·.relation.isNone))

include isHolder isOther unrelated scalar in
/-- The column of the key has neither model for its type. -/
theorem columnEdits_type {unique : Bool} :
    ∀ e ∈ p.columnEdits (Document.parse t) nullable unique, e.field.type ≠ p.holder ∧ e.field.type ≠ p.referenced := by
  obtain ⟨isModel, name⟩ := Document.model?_eq_some isHolder
  obtain ⟨isModelOther, nameOther⟩ := Document.model?_eq_some isOther
  unfold KeyPlacement.columnEdits
  cases existing : p.column? (Document.parse t) with
  | some f =>
    rw [KeyPlacement.column?, isHolder, Option.bind_some] at existing
    have types := unrelated h isModel (Or.inl name) f (List.mem_of_find?_eq_some existing)
    dsimp only
    split
    · exact List.forall_mem_singleton.mpr types
    · exact List.forall_mem_nil _
  | none =>
    obtain ⟨f, found, -⟩ := Option.any_eq_true _ _ |>.mp scalar
    have type : p.keyType (Document.parse t) = f.type := by rw [KeyPlacement.keyType, found]; rfl
    rw [KeyPlacement.referenced?, isOther, Option.bind_some] at found
    have types := unrelated o isModelOther (Or.inr nameOther) f (List.mem_of_find?_eq_some found)
    rw [← type] at types
    exact List.forall_mem_singleton.mpr types

variable (nullable) in
include sound keyed isOther scalar in
/-- The field beside the column says what the key is. -/
theorem relationEdit_relation : (p.relationEdit nullable).field.relation =
    some ⟨none, some [p.foreignKey], some [p.referencedField]⟩ := by
  obtain ⟨f, found, -⟩ := Option.any_eq_true _ _ |>.mp scalar
  rw [KeyPlacement.referenced?, isOther, Option.bind_some] at found
  have name : f.name = p.referencedField := by simpa using List.find?_some found
  have word := (Document.parse_isNamed t).fields o (Document.model?_eq_some isOther).1 f (List.mem_of_find?_eq_some found)
  exact relationField_relation (sound.foreignKey.isWord keyed) (name ▸ word) _ _ _

variable (nullable) in
include plain sound keyed new isHolder isOther holder other unrelated scalar in
/-- A relation by a key is the only one between its models. -/
theorem loneKey_edits :
    LoneKey (Document.parse (runEdits t (p.edits (Document.parse t) nullable oneToMany)))
      (h.afterEdits t (p.edits (Document.parse t) nullable oneToMany)) (p.relationEdit nullable).field
      (o.afterEdits t (p.edits (Document.parse t) nullable oneToMany))
      (if oneToMany then some p.listEdit.field else none) := by
  have writable := fun e member => (sound.edits nullable oneToMany e member).1
  have edited := plain.edited writable
  obtain ⟨isModel, name⟩ := Document.model?_eq_some isHolder
  obtain ⟨isModelOther, nameOther⟩ := Document.model?_eq_some isOther
  have inside {m : Model} (isModel : m ∈ (Document.parse t).models) :
      m.afterEdits t (p.edits (Document.parse t) nullable oneToMany) ∈
        (Document.parse (runEdits t (p.edits (Document.parse t) nullable oneToMany))).models :=
    edited.models ▸ List.mem_map_of_mem isModel
  have keys := relationEdit_relation sound keyed nullable isOther scalar
  have list : p.listEdit.field.relation = some {} := listField_relation holder.notBuiltIn holder.supported _
  refine ⟨inside isModel, inside isModelOther, ?_, ?_, ?_, ?_, ?_⟩
  · have found := plain.field?_afterEdits writable isModel p.relationName
    rw [name, if_pos (modelRows?_isSome holder.closed), new.viewAfter_relation sound other.letter] at found
    exact List.mem_of_find?_eq_some found
  · exact nameOther.symm.trans (Model.afterEdits_name _ _ o).symm
  · simp [Field.hasForeignKey, keys]
  · intro b same
    cases oneToMany with
    | false => cases same
    | true =>
      obtain rfl : p.listEdit.field = b := Option.some.inj same
      have found := plain.field?_afterEdits writable isModelOther p.listName
      rw [nameOther, if_pos (modelRows?_isSome other.closed), p.viewAfter_list] at found
      refine ⟨List.mem_of_find?_eq_some found, answers_iff.mpr ⟨?_, ?_, ?_, ?_⟩, ?_⟩
      · exact name.symm.trans (Model.afterEdits_name _ _ h).symm
      · rw [list]; rfl
      · exact fun both => (new.listName rfl).2 both.2
      · simp [Field.relationName, keys, list]
      · simp [Field.hasForeignKey, list]
  · intro m' isModel' f inModel' pair relational
    rw [edited.models] at isModel'
    obtain ⟨m, isModelM, rfl⟩ := List.mem_map.mp isModel'
    rw [Model.afterEdits_name, Model.afterEdits_name, Model.afterEdits_name, name, nameOther] at pair
    have named := Document.parse_isNamed t
    have types : f.type = p.holder ∨ f.type = p.referenced :=
      (isPair_iff.mp pair).elim (fun both => Or.inr both.2) fun both => Or.inl both.2
    rcases plain.mem_afterEdits writable isModelM inModel' with old | ⟨e, member, inModel, rfl⟩
    · have none := unrelated m isModelM ((isPair_iff.mp pair).imp And.left And.left) f old
      exact absurd types (not_or.mpr none)
    rcases List.mem_append.mp member with inColumn | later
    · exact absurd types (not_or.mpr (columnEdits_type isHolder isOther unrelated scalar e inColumn))
    rcases KeyPlacement.mem_fieldEdits later with rfl | ⟨many, rfl⟩
    · obtain rfl : m = h := named.eq_model isModelM isModel (inModel.symm.trans name.symm)
      exact Or.inl ⟨rfl, rfl⟩
    · obtain rfl : m = o := named.eq_model isModelM isModelOther (inModel.symm.trans nameOther.symm)
      exact Or.inr ⟨rfl, if_pos many⟩

variable (nullable) in
include plain sound keyed new isHolder isOther holder other unrelated scalar in
/-- One edge joins the models of a relation by a key. -/
theorem edge_edits :
    ∃ e, (inferEdges (Document.parse (runEdits t (p.edits (Document.parse t) nullable oneToMany)))).filter
        (Edge.joins p.holder p.referenced) = [e] ∧
      e.id = edgeId p.holder p.referenced p.relationName ∧ e.source = p.holder ∧ e.target = p.referenced ∧
      e.cardinality = .ofLists false oneToMany ∧ e.sourceField = fieldPath p.holder p.foreignKey ∧
      e.targetField = fieldPath p.referenced p.referencedField := by
  obtain ⟨h', isAfter⟩ : ∃ h', h' = h.afterEdits t (p.edits (Document.parse t) nullable oneToMany) := ⟨_, rfl⟩
  obtain ⟨o', isAfterOther⟩ : ∃ o', o' = o.afterEdits t (p.edits (Document.parse t) nullable oneToMany) := ⟨_, rfl⟩
  have lone := loneKey_edits plain sound keyed nullable new isHolder isOther holder other unrelated scalar
  have drawn := lone.filter_inferEdges (Document.parse_isNamed _)
  have name : h'.name = p.holder :=
    isAfter ▸ (Model.afterEdits_name _ _ h).trans (Document.model?_eq_some isHolder).2
  have nameOther : o'.name = p.referenced :=
    isAfterOther ▸ (Model.afterEdits_name _ _ o).trans (Document.model?_eq_some isOther).2
  have keys := relationEdit_relation sound keyed nullable isOther scalar
  rw [← isAfter, ← isAfterOther, name, nameOther] at drawn
  refine ⟨_, drawn, ?_, name, nameOther, ?_, ?_, ?_⟩
  · rw [keyEdge, name, nameOther]
    rfl
  · cases oneToMany <;> rfl
  · simp [keyEdge, keys, name]
  · simp [keyEdge, keys, nameOther]

omit isHolder holder in
include plain sound keyed new isOther other unrelated scalar in
/-- A relation by a key leaves all relations that do not lead from one of its models to the other. -/
theorem agreeElsewhere_edits (clean : p.HasPlainColumn t nullable) :
    AgreeElsewhere p.holder p.referenced (Document.parse t).models Model.asOptional fun m =>
      (m.afterEdits t (p.edits (Document.parse t) nullable oneToMany)).asOptional := by
  obtain ⟨isModelOther, nameOther⟩ := Document.model?_eq_some isOther
  have column : (keyColumn p.foreignKey (p.keyType (Document.parse t)) nullable (!oneToMany)).relation = none := by
    obtain ⟨f, found, noModel⟩ := Option.any_eq_true _ _ |>.mp scalar
    have type : p.keyType (Document.parse t) = f.type := by rw [KeyPlacement.keyType, found]; rfl
    rw [type]
    exact keyColumn_relation (plain.field? found).1 (Option.isNone_iff_eq_none.mp noModel) _ _ _
  have kept {m : Model} (isModel : m ∈ (Document.parse t).models) {kind : Field → Bool}
      (blunt : ∀ f : Field, kind f.asOptional = kind f) (noColumn : kind (keyColumn p.foreignKey
        (p.keyType (Document.parse t)) nullable (!oneToMany)) = false)
      (fields : ∀ e ∈ p.fieldEdits nullable oneToMany, e.model = m.name → kind e.field = false) :=
    filter_afterEdits plain sound keyed other.letter new clean blunt isModel noColumn fields
  refine ⟨fun m => Model.afterEdits_name _ _ m, fun m isModel => ?_, fun m isModel => Model.identityName_congr ?_⟩
  · have before : m.asOptional.fields.filter (Field.leadsElsewhere p.holder p.referenced m.name) =
        m.asOptional.fields.filter (·.relation.isSome) := by
      refine List.filter_congr fun f member => ?_
      obtain ⟨g, inModel, rfl⟩ := List.mem_map.mp member
      have noPair : isPair p.holder p.referenced m.name g.type = false := by
        refine Bool.eq_false_iff.mpr fun pair => ?_
        have types := unrelated m isModel ((isPair_iff.mp pair).imp And.left And.left) g inModel
        exact (isPair_iff.mp pair).elim (fun both => types.2 both.2) fun both => types.1 both.2
      simp [Field.leadsElsewhere, Field.asOptional, noPair]
    refine (kept isModel (fun f => rfl) (by simp [Field.leadsElsewhere, column]) ?_).trans before
    intro e member inModel
    have pair : isPair p.holder p.referenced m.asOptional.name e.field.type = true := by
      rcases KeyPlacement.mem_fieldEdits member with rfl | ⟨-, rfl⟩
      · exact isPair_iff.mpr (Or.inl ⟨inModel.symm, rfl⟩)
      · exact isPair_iff.mpr (Or.inr ⟨inModel.symm, rfl⟩)
    simp [Field.leadsElsewhere, pair]
  · refine kept isModel (fun f => rfl) (keyColumn_isId _ _ _ _) fun e member _ => ?_
    rcases KeyPlacement.mem_fieldEdits member with rfl | ⟨-, rfl⟩
    · exact relationField_isId sound.foreignKey sound.referencedField _ _ _
    · exact listField_isId _ _

end

/-- A relation by a key shows up in the diagram as it was drawn: one edge joins the two models, from the one that holds
the key to the other one, and all other edges are as they were. Of the holder one has to know that the line of the column
can be found by its name. -/
theorem addRelation_shown {t : Text} (plain : IsPlainText t) {c : Connection} {request : RelationRequest}
    (byKey : request.cardinality ≠ .manyToMany) (source : IsDrawable t c.sourceModel) (target : IsDrawable t c.targetModel)
    (unrelated : (Document.parse t).AreUnrelated c.sourceModel c.targetModel) {p : KeyPlacement}
    (placed : KeyPlacement.ofConnection (Document.parse t) c = p)
    (scalar : (p.referenced? (Document.parse t)).any (·.relation.isNone))
    (new : p.IsNew t (request.cardinality = .oneToMany)) :
    ∃ out, addRelation t c request = .ok out ∧
      (∃ e, (Diagram.ofDocument (Document.parse out)).edges.filter (Edge.joins c.sourceModel c.targetModel) = [e] ∧
        e.id = edgeId p.holder p.referenced p.relationName ∧ e.source = p.holder ∧ e.target = p.referenced ∧
        e.cardinality = request.cardinality ∧ e.sourceField = fieldPath p.holder p.foreignKey ∧
        e.targetField = fieldPath p.referenced p.referencedField) ∧
      (p.HasPlainColumn t (p.nullable request) →
        (Diagram.ofDocument (Document.parse out)).edges.filter (fun e => !e.joins c.sourceModel c.targetModel) =
          (Diagram.ofDocument (Document.parse t)).edges) := by
  have hasSource := hasModel_of_closed plain source.closed
  have hasTarget := hasModel_of_closed plain target.closed
  obtain ⟨sourceModel, isSource⟩ := Option.isSome_iff_exists.mp hasSource
  obtain ⟨targetModel, isTarget⟩ := Option.isSome_iff_exists.mp hasTarget
  have sides := KeyPlacement.ofConnection_sides (Document.parse t) c
  have sound := plain.placement isSource isTarget
  have keyed := plain.foreignKey_ne_nil isSource isTarget
  have edits := relationEdits_of_key (c := c) byKey (Document.parse t)
  have run := plain.addRelation_run request hasSource hasTarget
  rw [placed] at sides sound keyed edits
  rw [edits, relationBase_self fun lists => absurd lists byKey] at run
  obtain ⟨h, o, isHolder, isOther⟩ : ∃ h o,
      (Document.parse t).model? p.holder = some h ∧ (Document.parse t).model? p.referenced = some o := by
    rcases sides with ⟨holder, referenced, -⟩ | ⟨holder, referenced, -⟩
    · exact ⟨_, _, holder ▸ isSource, referenced ▸ isTarget⟩
    · exact ⟨_, _, holder ▸ isTarget, referenced ▸ isSource⟩
  obtain ⟨holder, other, apart, joins⟩ : IsDrawable t p.holder ∧ IsDrawable t p.referenced ∧
      (Document.parse t).AreUnrelated p.holder p.referenced ∧
        Edge.joins c.sourceModel c.targetModel = Edge.joins p.holder p.referenced := by
    rcases sides with ⟨holder, referenced, -⟩ | ⟨holder, referenced, -⟩
    · rw [holder, referenced]
      exact ⟨source, target, unrelated, rfl⟩
    · rw [holder, referenced]
      exact ⟨target, source, fun m isModel side f inModel => (unrelated m isModel side.symm f inModel).symm,
        funext fun e => isPair_comm _ _ _ _⟩
  have keyed := keyed other.letter
  obtain ⟨e, drawn, made, atSource, atTarget, cardinality, fields⟩ :=
    edge_edits plain sound keyed (p.nullable request) new isHolder isOther holder other apart scalar
  have asked : e.cardinality = request.cardinality := by
    rw [cardinality]
    cases shape : request.cardinality with
    | oneToOne => rfl
    | oneToMany => rfl
    | manyToMany => exact absurd shape byKey
  have others (clean : p.HasPlainColumn t (p.nullable request)) :=
    filter_inferEdges_elsewhere (Document.parse_isNamed _)
      (plain.edited fun e member => (sound.edits (p.nullable request) (request.cardinality = .oneToMany) e member).1).models
      (agreeElsewhere_edits plain sound keyed new isOther other apart scalar clean)
  refine ⟨_, run, ⟨e, ?_, made, atSource, atTarget, asked, fields⟩, ?_⟩
  · rw [joins, Diagram.edges_ofDocument]
    exact drawn
  · rw [joins, Diagram.edges_ofDocument, Diagram.edges_ofDocument]
    exact others

instance (p : KeyPlacement) (t : Text) (nullable : Bool) : Decidable (p.HasPlainColumn t nullable) :=
  inferInstanceAs (Decidable (∀ f ∈ p.column? (Document.parse t), nullable → f.isOptional = false →
    ∀ rs ∈ modelRows? t p.holder, ∀ l ∈ shownLines rs, firstWord? l = some p.foreignKey → (lineField? l).isSome))

instance (d : Document) (a b : Text) : Decidable (d.AreUnrelated a b) :=
  inferInstanceAs (Decidable (∀ m ∈ d.models, m.name = a ∨ m.name = b → ∀ f ∈ m.fields, f.type ≠ a ∧ f.type ≠ b))

/-- A schema with a column for the author of a post. Its posts are related to tags already. -/
def blogSchema : Text :=
  txt "model User \x7b\n  id Int @id\n\x7d\n\nmodel Post \x7b\n  id Int @id\n  authorId Int // by\n" ++
    txt "  tags Tag[]\n\x7d\n\nmodel Tag \x7b\n  id Int @id\n  posts Post[]\n\x7d\n"

theorem addRelation_shown_blogSchema :
    ∃ out, addRelation blogSchema ⟨txt "Post", txt "authorId", txt "User", txt "id"⟩
        ⟨.oneToMany, .implicit, .sourceFirst, true, false⟩ = .ok out ∧
      (∃ e, (Diagram.ofDocument (Document.parse out)).edges.filter (Edge.joins (txt "Post") (txt "User")) = [e] ∧
        e.id = txt "Post-User-author" ∧ e.sourceField = txt "Post.authorId") ∧
      (Diagram.ofDocument (Document.parse out)).edges.filter (fun e => !e.joins (txt "Post") (txt "User")) =
        (Diagram.ofDocument (Document.parse blogSchema)).edges ∧
      (Diagram.ofDocument (Document.parse blogSchema)).edges.length = 1 := by
  obtain ⟨p, atP⟩ : ∃ p : KeyPlacement, p = ⟨txt "Post", txt "authorId", txt "User", txt "id", true⟩ := ⟨_, rfl⟩
  obtain ⟨plain, ⟨closed, closedUser⟩, unrelated, placed, scalar, ⟨free, names⟩, ⟨freeList, namesList⟩, plainColumn, length⟩ :
      IsPlainText blogSchema ∧ ((modelBody? blogSchema (txt "Post")).isSome ∧ (modelBody? blogSchema (txt "User")).isSome) ∧
        (Document.parse blogSchema).AreUnrelated (txt "Post") (txt "User") ∧
        KeyPlacement.ofConnection (Document.parse blogSchema) ⟨txt "Post", txt "authorId", txt "User", txt "id"⟩ = p ∧
        (p.referenced? (Document.parse blogSchema)).any (·.relation.isNone) ∧
        (hasField blogSchema p.holder p.relationName = false ∧
          p.relationName ≠ p.foreignKey ∧ p.relationName ≠ protectedField) ∧
        (hasField blogSchema p.referenced p.listName = false ∧
          p.listName ≠ p.foreignKey ∧ p.listName ≠ p.relationName) ∧
        p.HasPlainColumn blogSchema true ∧ (Diagram.ofDocument (Document.parse blogSchema)).edges.length = 1 := by
    subst atP
    decide +kernel
  have post : IsDrawable blogSchema (txt "Post") := ⟨closed, ⟨'P', by decide, by decide⟩, by decide, by decide⟩
  have user : IsDrawable blogSchema (txt "User") := ⟨closedUser, ⟨'U', by decide, by decide⟩, by decide, by decide⟩
  have new : p.IsNew blogSchema true := ⟨free, names, fun _ => freeList, fun _ => namesList⟩
  have byKey : (⟨.oneToMany, .implicit, .sourceFirst, true, false⟩ : RelationRequest).cardinality ≠ .manyToMany := by decide
  subst atP
  obtain ⟨out, done, ⟨e, drawn, made, -, -, -, column, -⟩, others⟩ :=
    addRelation_shown plain byKey post user unrelated placed scalar new
  exact ⟨out, done, ⟨e, drawn, made, column⟩, others plainColumn, length⟩

/-- A schema with a line that begins with the name of a column and is no field. -/
def strayLineSchema : Text :=
  txt "model Job \x7b\n  ownerId @later\n  code Int @id\n  ownerId Int @id\n  tags Tag[]\n\x7d\n" ++
    txt "model Owner \x7b\n  id Int @id\n\x7d\nmodel Tag \x7b\n  jobs Job[]\n\x7d\n"

/-- There the column takes the place of that line, and with it the mark of the identity moves, where the edge to the tags
ends. -/
theorem addRelation_moves_edge_strayLineSchema :
    IsPlainText strayLineSchema ∧
      ∃ out, addRelation strayLineSchema ⟨txt "Job", txt "ownerId", txt "Owner", txt "id"⟩
          ⟨.oneToOne, .implicit, .sourceFirst, true, false⟩ = .ok out ∧
        (Diagram.ofDocument (Document.parse out)).edges.filter (fun e => !e.joins (txt "Job") (txt "Owner")) ≠
          (Diagram.ofDocument (Document.parse strayLineSchema)).edges := by
  refine ⟨by decide +kernel, txt "model Job \x7b\n  ownerId Int? @id\n  code Int @id\n  ownerId Int @id\n" ++
    txt "  tags Tag[]\n  owner Owner? @relation(fields: [ownerId], references: [id])\n\x7d\n" ++
    txt "model Owner \x7b\n  id Int @id\n\x7d\nmodel Tag \x7b\n  jobs Job[]\n\x7d\n", ?_, ?_⟩
  · decide +kernel
  · decide +kernel

end SchemaDiagram

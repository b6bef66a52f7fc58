import SchemaDiagram.Proofs.DrawnRelation
import SchemaDiagram.Proofs.ListEdges

namespace SchemaDiagram

open Text

/-- A model that is closed and whose name can be the type of a list of records. -/
structure IsListable (t model : Text) : Prop where
  closed : (modelBody? t model).isSome
  notBuiltIn : model ∉ scalarTypes
  supported : (txt "Unsupported").isPrefixOf model = false

/-- The list of the records of another model that a model gets. -/
def recordList (model : Text) : Field := listField (listFieldName model) model

/-- The edits of a relation by two lists. -/
def listEdits (c : Connection) : List FieldEdit :=
  [⟨c.sourceModel, recordList c.targetModel, true⟩, ⟨c.targetModel, recordList c.sourceModel, true⟩]

theorem relationEdits_implicit {c : Connection} {request : RelationRequest} (manyToMany : request.cardinality = .manyToMany)
    (implicit : request.mode = .implicit) (d : Document) : relationEdits d c request = listEdits c := by
  obtain ⟨cardinality, mode, order, nullableSource, nullableTarget⟩ := request
  subst manyToMany implicit
  rfl

theorem recordList_keyless (model : Text) :
    (recordList model).hasForeignKey = false ∧ (recordList model).relationName = none := by
  unfold Field.hasForeignKey Field.relationName recordList listField relationOf
  cases namesModel model true <;> exact ⟨rfl, rfl⟩

/-- A list of records is relational, unless its model is named like an unsupported type. -/
theorem recordList_relational_iff {model : Text} (notBuiltIn : model ∉ scalarTypes) :
    (recordList model).relation.isSome ↔ (txt "Unsupported").isPrefixOf model = false := by
  cases unsupported : (txt "Unsupported").isPrefixOf model with
  | false => simp [recordList, listField_relation notBuiltIn unsupported]
  | true => simp [recordList, listField, relationOf, namesModel, unsupported]

/-- A list that an edit puts into a closed model is there, if no other edit puts a field of that name there. -/
theorem IsPlainText.recordList_mem {t : Text} (plain : IsPlainText t) {edits : List FieldEdit}
    (writable : ∀ e ∈ edits, e.field.IsWritable) {m : Model} (isModel : m ∈ (Document.parse t).models)
    (closed : (modelRows? t m.name).isSome) {other : Text} (member : ⟨m.name, recordList other, true⟩ ∈ edits)
    (only : ∀ e ∈ edits, e.model = m.name → e.field.name = listFieldName other → e = ⟨m.name, recordList other, true⟩) :
    recordList other ∈ (m.afterEdits t edits).fields := by
  have found := plain.field?_afterEdits writable isModel (listFieldName other)
  rw [if_pos closed] at found
  exact List.mem_of_find?_eq_some (found.trans (viewAfter_of_mem (e := ⟨m.name, recordList other, true⟩) member rfl
    (listFieldName_ne_nil other) (listFieldName_ne_protectedField other) only _))

section

variable {t : Text} (plain : IsPlainText t) {c : Connection} (writable : ∀ e ∈ listEdits c, e.field.IsWritable)
  (unrelated : (Document.parse t).AreUnrelated c.sourceModel c.targetModel)

include plain writable

/-- Of two models each one has the list of the other's records. -/
theorem mem_recordList (apart : c.sourceModel ≠ c.targetModel) {m : Model}
    (isModel : m ∈ (Document.parse (runEdits t (listEdits c))).models) (closed : (modelBody? t m.name).isSome) {other : Text}
    (pair : isPair c.sourceModel c.targetModel m.name other) : recordList other ∈ m.fields := by
  rw [(plain.edited writable).models] at isModel
  obtain ⟨o, isOld, rfl⟩ := List.mem_map.mp isModel
  rw [Model.afterEdits_name] at closed pair
  have rowsAt := modelRows?_isSome closed
  rcases isPair_iff.mp pair with ⟨name, rfl⟩ | ⟨name, rfl⟩
  · refine plain.recordList_mem writable isOld rowsAt (by simp [listEdits, name]) ?_
    refine List.forall_mem_cons.mpr ⟨fun _ _ => by rw [name], List.forall_mem_singleton.mpr fun here _ => ?_⟩
    exact absurd (name.symm.trans here.symm) apart
  · refine plain.recordList_mem writable isOld rowsAt (by simp [listEdits, name]) ?_
    refine List.forall_mem_cons.mpr ⟨fun here _ => ?_, List.forall_mem_singleton.mpr fun _ _ => by rw [name]⟩
    exact absurd (here.trans name) apart

include unrelated

/-- After a relation by lists the two lists are all that leads from one of the models to the other. -/
theorem eq_recordList {m : Model} (isModel : m ∈ (Document.parse (runEdits t (listEdits c))).models) {f : Field}
    (inModel : f ∈ m.fields) (pair : isPair c.sourceModel c.targetModel m.name f.type) : f = recordList f.type := by
  rw [(plain.edited writable).models] at isModel
  obtain ⟨o, isOld, rfl⟩ := List.mem_map.mp isModel
  rw [Model.afterEdits_name] at pair
  rcases plain.mem_afterEdits writable isOld inModel with old | ⟨e, member, -, rfl⟩
  · have types := unrelated o isOld ((isPair_iff.mp pair).imp And.left And.left) f old
    exact (isPair_iff.mp pair).elim (fun both => absurd both.2 types.2) fun both => absurd both.2 types.1
  · rcases List.mem_cons.mp member with rfl | last
    · rfl
    · rw [List.mem_singleton.mp last]
      rfl

theorem hasNoKeyBetween_listEdits :
    (Document.parse (runEdits t (listEdits c))).HasNoKeyBetween c.sourceModel c.targetModel := by
  intro m isModel f inModel pair
  rw [eq_recordList plain writable unrelated isModel inModel pair]
  exact (recordList_keyless f.type).1

/-- A model has one list of its own records only, which is not its own answer. -/
theorem pairsLists_self {m : Model} (isModel : m ∈ (Document.parse (runEdits t (listEdits c))).models)
    (pair : isPair c.sourceModel c.targetModel m.name m.name) : m.pairsLists m = false := by
  refine Bool.eq_false_iff.mpr fun pairs => ?_
  have same {f : Field} (inModel : f ∈ m.fields) (typed : f.type = m.name) : f = recordList m.name :=
    typed ▸ eq_recordList plain writable unrelated isModel inModel (typed ▸ pair)
  obtain ⟨f, inModel, typed, -, -, g, found, -⟩ := pairsLists_iff.mp pairs
  obtain ⟨inModel', answer⟩ := inverse?_eq_some found
  obtain ⟨typedBack, -, apart, -⟩ := answers_iff.mp answer
  exact apart ⟨rfl, by rw [same inModel typed, same inModel' typedBack]⟩

/-- The lists of two models find each other. -/
theorem pairsLists_edits (apart : c.sourceModel ≠ c.targetModel) {a b : Model}
    (first : a ∈ (Document.parse (runEdits t (listEdits c))).models)
    (second : b ∈ (Document.parse (runEdits t (listEdits c))).models) (listable : IsListable t a.name)
    (listableOther : IsListable t b.name) (pair : isPair c.sourceModel c.targetModel a.name b.name) : a.pairsLists b := by
  have pairBack : isPair c.sourceModel c.targetModel b.name a.name := by rwa [isPair_symm]
  have differ : a.name ≠ b.name := by
    rcases isPair_iff.mp pair with ⟨isSource, isTarget⟩ | ⟨isTarget, isSource⟩
    · rwa [isSource, isTarget]
    · rw [isSource, isTarget]
      exact apart.symm
  have refers {model : Text} (listable : IsListable t model) : (recordList model).refersTo model none :=
    refersTo_iff.mpr ⟨rfl, (recordList_relational_iff listable.notBuiltIn).mpr listable.supported,
      (recordList_keyless model).2⟩
  refine pairsLists_of_first differ (mem_recordList plain writable apart first listable.closed pair)
    (refers listableOther) rfl ?_
  have inSecond := mem_recordList plain writable apart second listableOther.closed pairBack
  obtain ⟨g, found⟩ : ∃ g, (b.fields.find? fun g => g.refersTo a.name none) = some g :=
    Option.isSome_iff_exists.mp (List.find?_isSome.mpr ⟨_, inSecond, refers listable⟩)
  have refersBack : g.refersTo a.name none := by simpa using List.find?_some found
  have typed : g.type = a.name := (refersTo_iff.mp refersBack).1
  have same := eq_recordList plain writable unrelated second (List.mem_of_find?_eq_some found) (by rwa [typed])
  rw [found, Option.any_some, same]
  rfl

/-- A relation of a model to itself by lists gives no edge. -/
theorem filter_inferEdges_self {m : Model} (isModel : m ∈ (Document.parse (runEdits t (listEdits c))).models)
    (pair : isPair c.sourceModel c.targetModel m.name m.name) :
    (inferEdges (Document.parse (runEdits t (listEdits c)))).filter (Edge.joins c.sourceModel c.targetModel) = [] := by
  have keyless := hasNoKeyBetween_listEdits plain writable unrelated
  have unpaired := pairsLists_self plain writable unrelated isModel pair
  obtain ⟨source, target⟩ : c.sourceModel = m.name ∧ c.targetModel = m.name := by
    rcases isPair_iff.mp pair with ⟨source, target⟩ | ⟨target, source⟩
    · exact ⟨source.symm, target.symm⟩
    · exact ⟨source.symm, target.symm⟩
  rw [source, target] at keyless ⊢
  exact filter_inferEdges_unpaired (Document.parse_isNamed _).distinctModels isModel isModel (List.lt_irrefl _) keyless unpaired

/-- A relation of two models by lists gives one edge, from the model whose name comes first. -/
theorem filter_inferEdges_lists {a b : Model} (first : a ∈ (Document.parse (runEdits t (listEdits c))).models)
    (second : b ∈ (Document.parse (runEdits t (listEdits c))).models) (listable : IsListable t a.name)
    (listableOther : IsListable t b.name) (pair : isPair c.sourceModel c.targetModel a.name b.name) (order : a.name < b.name) :
    (inferEdges (Document.parse (runEdits t (listEdits c)))).filter (Edge.joins c.sourceModel c.targetModel) =
      [listEdge a b] := by
  have named := Document.parse_isNamed (runEdits t (listEdits c))
  have differ : a.name ≠ b.name := fun same => List.lt_irrefl _ (same ▸ order)
  obtain ⟨apart, ends⟩ : c.sourceModel ≠ c.targetModel ∧
      isPair c.sourceModel c.targetModel = isPair a.name b.name := by
    rcases isPair_iff.mp pair with ⟨isSource, isTarget⟩ | ⟨isTarget, isSource⟩
    · rw [← isSource, ← isTarget]
      exact ⟨differ, rfl⟩
    · rw [← isSource, ← isTarget]
      exact ⟨differ.symm, funext fun x => funext fun y => isPair_comm _ _ x y⟩
  have keyless := hasNoKeyBetween_listEdits plain writable unrelated
  have pairs := pairsLists_edits plain writable unrelated apart first second listable listableOther pair
  have joins : Edge.joins c.sourceModel c.targetModel = Edge.joins a.name b.name :=
    funext fun e => congrFun (congrFun ends e.source) e.target
  rw [joins]
  unfold Document.HasNoKeyBetween at keyless
  rw [ends] at keyless
  rcases filter_inferEdges_paired named.distinctModels first second (List.lt_asymm order) keyless pairs with one | ⟨-, takes⟩
  · exact one
  · obtain ⟨m, isModel, hyphen⟩ := takes.hyphen first second
    exact absurd hyphen ((named.models m isModel).not_mem (by decide))

end

/-- A relation by lists shows up in the diagram as one edge between the two models, from the name that comes first. A model
that is related to itself gets one list only, and no edge. -/
theorem addRelation_lists_shown {t : Text} (plain : IsPlainText t) {c : Connection} {request : RelationRequest}
    (manyToMany : request.cardinality = .manyToMany) (implicit : request.mode = .implicit)
    (source : IsListable t c.sourceModel) (target : IsListable t c.targetModel)
    (unrelated : (Document.parse t).AreUnrelated c.sourceModel c.targetModel) :
    ∃ out, addRelation t c request = .ok out ∧
      let between := (Diagram.ofDocument (Document.parse out)).edges.filter (Edge.joins c.sourceModel c.targetModel)
      (c.sourceModel = c.targetModel → between = []) ∧
        (c.sourceModel ≠ c.targetModel → ∃ e, between = [e] ∧ e.id = edgeId e.source e.target (txt "M-M") ∧
          bytes e.source < bytes e.target ∧ e.cardinality = .manyToMany) := by
  have hasSource := hasModel_of_closed plain source.closed
  have hasTarget := hasModel_of_closed plain target.closed
  have run := plain.addRelation_run request hasSource hasTarget
  have writable := fun e member => (plain.writableEdits request hasSource hasTarget e member).1
  rw [relationEdits_implicit manyToMany implicit] at run writable
  rw [relationBase_self fun _ explicit => by rw [implicit] at explicit; cases explicit] at run
  have after {model : Text} (has : (Document.parse t).hasModel model) :
      ∃ m ∈ (Document.parse (runEdits t (listEdits c))).models, m.name = model := by
    obtain ⟨m, found⟩ := Option.isSome_iff_exists.mp has
    have foundAfter := (plain.edited writable).model? model
    rw [found] at foundAfter
    exact ⟨_, Document.model?_eq_some foundAfter⟩
  obtain ⟨a, first, name⟩ := after hasSource
  obtain ⟨b, second, nameOther⟩ := after hasTarget
  refine ⟨_, run, ?_⟩
  rw [Diagram.edges_ofDocument]
  refine ⟨fun self => ?_, fun apart => ?_⟩
  · exact filter_inferEdges_self plain writable unrelated first (isPair_iff.mpr (Or.inl ⟨name, name.trans self⟩))
  rw [← name] at source
  rw [← nameOther] at target
  have pair : isPair c.sourceModel c.targetModel a.name b.name := isPair_iff.mpr (Or.inl ⟨name, nameOther⟩)
  by_cases order : a.name < b.name
  · exact ⟨_, filter_inferEdges_lists plain writable unrelated first second source target pair order, rfl,
      bytes_lt_bytes_iff.mpr order, rfl⟩
  · have orderBack : b.name < a.name := by
      by_contra notBefore
      have same : a.name = b.name := List.le_antisymm notBefore order
      exact apart (name.symm.trans (same.trans nameOther))
    have pairBack : isPair c.sourceModel c.targetModel b.name a.name := by rwa [isPair_symm]
    exact ⟨_, filter_inferEdges_lists plain writable unrelated second first target source pairBack orderBack, rfl,
      bytes_lt_bytes_iff.mpr orderBack, rfl⟩

/-- Students whose courses are a column, and courses without a list. -/
def coursesColumnSchema : Text :=
  txt "model Student \x7b\n  id Int @id\n  courses String // by name\n\x7d\n\n" ++
    txt "model Course \x7b id Int @id \x7d\n"

theorem addRelation_lists_shown_coursesColumnSchema :
    (IsPlainText coursesColumnSchema ∧
        (Document.parse coursesColumnSchema).AreUnrelated (txt "Student") (txt "Course")) ∧
      ∃ out, addRelation coursesColumnSchema ⟨txt "Student", txt "id", txt "Course", txt "id"⟩
          ⟨.manyToMany, .implicit, .sourceFirst, false, false⟩ = .ok out ∧
        ∃ e, (Diagram.ofDocument (Document.parse out)).edges.filter (Edge.joins (txt "Student") (txt "Course")) = [e] ∧
          e.id = edgeId e.source e.target (txt "M-M") ∧ bytes e.source < bytes e.target ∧
          e.cardinality = .manyToMany := by
  obtain ⟨plain, closed, closedCourse, unrelated⟩ :
      IsPlainText coursesColumnSchema ∧ (modelBody? coursesColumnSchema (txt "Student")).isSome ∧
        (modelBody? coursesColumnSchema (txt "Course")).isSome ∧
        (Document.parse coursesColumnSchema).AreUnrelated (txt "Student") (txt "Course") := by
    decide +kernel
  have student : IsListable coursesColumnSchema (txt "Student") := ⟨closed, by decide, by decide⟩
  have course : IsListable coursesColumnSchema (txt "Course") := ⟨closedCourse, by decide, by decide⟩
  have manyToMany : (⟨.manyToMany, .implicit, .sourceFirst, false, false⟩ : RelationRequest).cardinality = .manyToMany := rfl
  obtain ⟨out, done, -, shown⟩ := addRelation_lists_shown plain (c := ⟨txt "Student", txt "id", txt "Course", txt "id"⟩)
    manyToMany rfl student course unrelated
  exact ⟨⟨plain, unrelated⟩, out, done, shown (by decide)⟩

/-- Users that are to follow one another. -/
def followersSchema : Text := txt "model User \x7b\n  id Int @id\n\x7d\n"

theorem addRelation_lists_hidden_followersSchema :
    (IsPlainText followersSchema ∧ IsListable followersSchema (txt "User") ∧
        (Document.parse followersSchema).AreUnrelated (txt "User") (txt "User")) ∧
      ∃ out, addRelation followersSchema ⟨txt "User", txt "id", txt "User", txt "id"⟩
          ⟨.manyToMany, .implicit, .sourceFirst, false, false⟩ = .ok out ∧
        (Diagram.ofDocument (Document.parse out)).edges = [] := by
  obtain ⟨plain, closed, unrelated⟩ : IsPlainText followersSchema ∧ (modelBody? followersSchema (txt "User")).isSome ∧
      (Document.parse followersSchema).AreUnrelated (txt "User") (txt "User") := by
    decide +kernel
  refine ⟨⟨plain, ⟨closed, by decide, by decide⟩, unrelated⟩, ?_⟩
  refine ⟨txt "model User \x7b\n  id Int @id\n  users User[]\n\x7d\n", ?_, ?_⟩
  · decide +kernel
  · decide +kernel

end SchemaDiagram

import SchemaDiagram.Proofs.DrawnLists
import SchemaDiagram.Proofs.JunctionEdges
import SchemaDiagram.Proofs.WrittenModel

namespace SchemaDiagram

open Text

/-- The two models that a junction joins, in the order of its name. -/
def junctionEnds (c : Connection) : JunctionOrder → Text × Text
  | .sourceFirst => (c.sourceModel, c.targetModel)
  | .targetFirst => (c.targetModel, c.sourceModel)

/-- The edits of a relation by a junction. -/
def junctionEdits (c : Connection) (order : JunctionOrder) : List FieldEdit :=
  [⟨c.sourceModel, recordList (junctionName c order), true⟩, ⟨c.targetModel, recordList (junctionName c order), true⟩]

/-- A text with a relation by a junction. -/
def withJunction (t : Text) (c : Connection) (order : JunctionOrder) : Text :=
  runEdits (addJunction t (Document.parse t) c order) (junctionEdits c order)

/-- A closed model with a scalar for its identity. -/
structure HasScalarIdentity (t model : Text) (identity : Field) : Prop where
  closed : (modelBody? t model).isSome
  found : ((Document.parse t).model? model).bind (·.identity?) = some identity
  scalar : identity.relation = none

/-- A column of the type of an identity, and the field beside it that refers to the model of that identity. -/
structure RefersTo (model : Text) (identity column field : Field) : Prop where
  columnType : column.type = identity.type
  model : field.type = model
  key : field.relation = some ⟨none, some [column.name], some [identity.name]⟩

/-- A document has a junction of two models with these identities, and its diagram shows both of its relations, and no
other edge from it. -/
def Document.HasJunction (d : Document) (name model other : Text) (identity identityOther : Field) : Prop :=
  ∃ k r k' r' : Field,
    d.model? name = some ⟨name, [k, r, k', r'], [identityTag k.name k'.name]⟩ ∧
      [k.name, r.name, k'.name, r'.name].Nodup ∧ RefersTo model identity k r ∧ RefersTo other identityOther k' r' ∧
        ∃ e e', ((Diagram.ofDocument d).edges.filter (·.source = name)).Perm [e, e'] ∧
          (e.id = edgeId name model r.name ∧ e.cardinality = .oneToMany) ∧
            e'.id = edgeId name other r'.name ∧ e'.cardinality = .oneToMany

/-- The names that a junction has for one of its sides. -/
def JunctionSide.names (side : JunctionSide) : List Text := [side.foreignKey, side.relationField]

/-- What a side of a junction says of the identity of its model. -/
structure JunctionSide.Shows (side : JunctionSide) (model : Text) (identity : Field) : Prop where
  model : side.model = model
  keyType : side.keyType = identity.type
  identity : side.identity = identity.name

section

variable {t model : Text} {identity : Field} (has : HasScalarIdentity t model identity)

include has

theorem HasScalarIdentity.mem : ∃ m ∈ (Document.parse t).models, identity ∈ m.fields := by
  obtain ⟨m, isModel, found⟩ := Option.bind_eq_some_iff.mp has.found
  exact ⟨m, (Document.model?_eq_some isModel).1, Model.identity?_mem found⟩

theorem HasScalarIdentity.isWritable (plain : IsPlainText t) : identity.IsWritable ∧ IsWord identity.name := by
  obtain ⟨m, isModel, inModel⟩ := has.mem
  obtain ⟨-, -, -, fields⟩ := plain.model? ((Document.parse_isNamed t).model?_of_mem isModel)
  exact ⟨fields identity inModel, (Document.parse_isNamed t).fields m isModel identity inModel⟩

theorem HasScalarIdentity.shows : (JunctionSide.ofModel (Document.parse t) model).Shows model identity := by
  refine ⟨rfl, ?_, ?_⟩
  · simp only [JunctionSide.ofModel, has.found, Option.map_some, Option.getD_some]
  · simp only [JunctionSide.ofModel, has.found, Option.map_some, Option.getD_some]

end

theorem junctionSides_shows {t : Text} {c : Connection} {order : JunctionOrder} {identity identityOther : Field}
    (has : HasScalarIdentity t (junctionEnds c order).1 identity)
    (hasOther : HasScalarIdentity t (junctionEnds c order).2 identityOther) :
    (junctionSides (Document.parse t) c order).1.Shows (junctionEnds c order).1 identity ∧
      (junctionSides (Document.parse t) c order).2.Shows (junctionEnds c order).2 identityOther := by
  have choose {first second : JunctionSide} {model : Text} {f : Field} (shown' : second.Shows model f) :
      (if first.foreignKey = second.foreignKey then second.related else second).Shows model f := by
    split
    · exact ⟨shown'.model, shown'.keyType, shown'.identity⟩
    · exact shown'
  cases order with
  | sourceFirst => exact ⟨has.shows, choose hasOther.shows⟩
  | targetFirst => exact ⟨has.shows, choose hasOther.shows⟩

section

variable {side : JunctionSide} {model : Text} {identity : Field} (shown' : side.Shows model identity)

include shown'

theorem JunctionSide.Shows.refersTo (sound : side.IsSound) (keyed : side.foreignKey ≠ []) (word : IsWord identity.name) :
    RefersTo model identity side.column side.key := by
  refine ⟨shown'.keyType, shown'.model, ?_⟩
  have relation : side.key.relation = some ⟨none, some [side.foreignKey], some [side.identity]⟩ :=
    relationField_relation (sound.foreignKey.isWord keyed) (shown'.identity ▸ word) _ _ _
  rw [relation, shown'.identity]
  rfl

theorem JunctionSide.Shows.type_ne {other : Text} (noModel : model ≠ other) (noType : identity.type ≠ other) :
    ∀ f ∈ side.fields, f.type ≠ other :=
  List.forall_mem_cons.mpr ⟨fun same => noType (shown'.keyType.symm.trans same),
    List.forall_mem_singleton.mpr fun same => noModel (shown'.model.symm.trans same)⟩

theorem JunctionSide.Shows.column_relation (writable : identity.IsWritable) (scalar : identity.relation = none) :
    side.column.relation = none := by
  rw [column, shown'.keyType]
  exact keyColumn_relation writable scalar _ _ _

end

theorem relationEdits_explicit {c : Connection} {request : RelationRequest} (manyToMany : request.cardinality = .manyToMany)
    (explicit : request.mode = .explicit) (d : Document) :
    relationEdits d c request = junctionEdits c request.order := by
  obtain ⟨cardinality, mode, order, nullableSource, nullableTarget⟩ := request
  subst manyToMany explicit
  rfl

theorem relationBase_explicit {c : Connection} {request : RelationRequest} (manyToMany : request.cardinality = .manyToMany)
    (explicit : request.mode = .explicit) (t : Text) :
    relationBase t c request = addJunction t (Document.parse t) c request.order := by
  obtain ⟨cardinality, mode, order, nullableSource, nullableTarget⟩ := request
  subst manyToMany explicit
  rfl

theorem junctionEnds_iff (c : Connection) (order : JunctionOrder) {model : Text} :
    model = (junctionEnds c order).1 ∨ model = (junctionEnds c order).2 ↔ model = c.sourceModel ∨ model = c.targetModel := by
  cases order with
  | sourceFirst => exact Iff.rfl
  | targetFirst => exact or_comm

/-- A junction has a longer name than the models that it joins. -/
theorem junctionName_ne {c : Connection} {order : JunctionOrder} {model : Text}
    (isEnd : model = c.sourceModel ∨ model = c.targetModel) : model ≠ junctionName c order := by
  have longer {u v w : Text} (same : w = u ++ txt "On" ++ v) : w.length = u.length + 2 + v.length := by
    rw [same, List.length_append, List.length_append]
    rfl
  rintro rfl
  rcases isEnd with same | same <;> cases order <;> have := longer same.symm <;> omega

theorem junctionEnds_ne (c : Connection) (order : JunctionOrder) :
    (junctionEnds c order).1 ≠ junctionName c order ∧ (junctionEnds c order).2 ≠ junctionName c order :=
  ⟨junctionName_ne ((junctionEnds_iff c order).mp (Or.inl rfl)),
    junctionName_ne ((junctionEnds_iff c order).mp (Or.inr rfl))⟩

/-- The name of a junction has a capital that is in no built-in type. -/
theorem junctionName_notBuiltIn (c : Connection) (order : JunctionOrder) : junctionName c order ∉ scalarTypes := by
  intro builtIn
  have capital : 'O' ∈ junctionName c order := by cases order <;> simp [junctionName, txt]
  exact (by decide : ∀ s ∈ scalarTypes, 'O' ∉ s) _ builtIn capital

section

variable {t : Text} (plain : IsPlainText t) {c : Connection} {order : JunctionOrder} {identity identityOther : Field}
  (has : HasScalarIdentity t (junctionEnds c order).1 identity)
  (hasOther : HasScalarIdentity t (junctionEnds c order).2 identityOther)
  (new : (Document.parse t).hasModel (junctionName c order) = false)
  (unused : ∀ m ∈ (Document.parse t).models, ∀ f ∈ m.fields, f.type ≠ junctionName c order)

/-- The model that a new junction is read as. -/
def junctionModel (t : Text) (c : Connection) (order : JunctionOrder) : Model where
  name := junctionName c order
  fields := keepFirst Field.name ((junctionFields (Document.parse t) c order).filter fun f => !f.name.isEmpty)
  attributes := [junctionTag (Document.parse t) c order]

include has hasOther in
theorem closed_of_isEnd {model : Text} (isEnd : model = c.sourceModel ∨ model = c.targetModel) :
    (modelBody? t model).isSome :=
  ((junctionEnds_iff c order).mpr isEnd).elim (fun same => same ▸ has.closed) fun same => same ▸ hasOther.closed

section

variable (hasSource : (Document.parse t).hasModel c.sourceModel) (hasTarget : (Document.parse t).hasModel c.targetModel)

include plain hasSource hasTarget

theorem writable_junctionEdits : ∀ e ∈ junctionEdits c order, e.field.IsWritable := by
  have edits := plain.writableEdits (c := c) ⟨.manyToMany, .explicit, order, false, false⟩ hasSource hasTarget
  exact fun e member => (edits e member).1

include new

theorem edited_withJunction :
    Edited (addJunction t (Document.parse t) c order) (withJunction t c order) (junctionEdits c order) :=
  (plain.junctionAdded hasSource hasTarget new).plain.edited (writable_junctionEdits plain hasSource hasTarget)

/-- The lists leave the junction as it is. -/
theorem model?_withJunction :
    (Document.parse (withJunction t c order)).model? (junctionName c order) = some (junctionModel t c order) := by
  have found : (Document.parse (addJunction t (Document.parse t) c order)).model? (junctionName c order) =
      some (junctionModel t c order) := plain.model?_addJunction hasSource hasTarget new
  have other : ∀ e ∈ junctionEdits c order, e.model ≠ (junctionModel t c order).name :=
    List.forall_mem_cons.mpr ⟨junctionName_ne (Or.inl rfl), List.forall_mem_singleton.mpr (junctionName_ne (Or.inr rfl))⟩
  have stays := (plain.junctionAdded hasSource hasTarget new).plain.afterEdits_self
    (Document.model?_eq_some found).1 other
  rw [(edited_withJunction plain new hasSource hasTarget).model?, found, Option.map_some, stays]

/-- Of a text with a new junction the models are the junction and the ones that the text had. -/
theorem model_cases_withJunction {m : Model} (isModel : m ∈ (Document.parse (withJunction t c order)).models) :
    m = junctionModel t c order ∨ ∃ o ∈ (Document.parse t).models, o.name = m.name ∧ o.name ≠ junctionName c order ∧
      o ∈ (Document.parse (addJunction t (Document.parse t) c order)).models ∧
        m = o.afterEdits (addJunction t (Document.parse t) c order) (junctionEdits c order) := by
  have added := plain.junctionAdded hasSource hasTarget new
  have named := Document.parse_isNamed (withJunction t c order)
  by_cases isJunction : m.name = junctionName c order
  · have found := model?_withJunction plain new hasSource hasTarget
    rw [← isJunction, named.model?_of_mem isModel] at found
    exact Or.inl (Option.some.inj found)
  · rw [(edited_withJunction plain new hasSource hasTarget).models] at isModel
    obtain ⟨o, inBase, rfl⟩ := List.mem_map.mp isModel
    rw [Model.afterEdits_name] at isJunction
    have found := added.models o.name isJunction
    rw [(Document.parse_isNamed _).model?_of_mem inBase] at found
    exact Or.inr ⟨o, (Document.model?_eq_some found.symm).1, (Model.afterEdits_name _ _ o).symm, isJunction, inBase, rfl⟩

include has hasOther unused

/-- No field has the type of the junction but for the lists of its records. -/
theorem eq_recordList_withJunction {m : Model} (isModel : m ∈ (Document.parse (withJunction t c order)).models) {f : Field}
    (inModel : f ∈ m.fields) (typed : f.type = junctionName c order) : f = recordList (junctionName c order) := by
  have isNew {model : Text} {identity : Field} (has : HasScalarIdentity t model identity) :
      identity.type ≠ junctionName c order := by
    obtain ⟨o, isOld, inOld⟩ := has.mem
    exact unused o isOld identity inOld
  rcases model_cases_withJunction plain new hasSource hasTarget isModel with rfl | ⟨o, isOld, -, -, inBase, after⟩
  · obtain ⟨showsFirst, showsSecond⟩ := junctionSides_shows has hasOther
    rcases List.mem_append.mp (List.mem_filter.mp (mem_keepFirst inModel)).1 with inFirst | inSecond
    · exact absurd typed (showsFirst.type_ne (junctionEnds_ne c order).1 (isNew has) f inFirst)
    · exact absurd typed (showsSecond.type_ne (junctionEnds_ne c order).2 (isNew hasOther) f inSecond)
  · rw [after] at inModel
    rcases (plain.junctionAdded hasSource hasTarget new).plain.mem_afterEdits
      (writable_junctionEdits plain hasSource hasTarget) inBase inModel with old | ⟨e, member, -, rfl⟩
    · exact absurd typed (unused o isOld f old)
    · rcases List.mem_cons.mp member with rfl | last
      · rfl
      · rw [List.mem_singleton.mp last]

omit unused in
/-- Each of the two models lists the records of the junction. -/
theorem recordList_mem_withJunction {m : Model} (isModel : m ∈ (Document.parse (withJunction t c order)).models)
    (isEnd : m.name = c.sourceModel ∨ m.name = c.targetModel) : recordList (junctionName c order) ∈ m.fields := by
  rcases model_cases_withJunction plain new hasSource hasTarget isModel with rfl | ⟨o, -, name, other, inBase, after⟩
  · exact absurd rfl (junctionName_ne isEnd)
  · have added := plain.junctionAdded hasSource hasTarget new
    rw [← name] at isEnd
    have rowsAt : (modelRows? (addJunction t (Document.parse t) c order) o.name).isSome := by
      rw [added.rows o.name other]
      exact modelRows?_isSome (closed_of_isEnd has hasOther isEnd)
    rw [after]
    refine added.plain.recordList_mem (writable_junctionEdits plain hasSource hasTarget) inBase rowsAt ?_ ?_
    · rcases isEnd with same | same <;> simp [junctionEdits, same]
    · exact List.forall_mem_cons.mpr ⟨fun here _ => by rw [← here],
        List.forall_mem_singleton.mpr fun here _ => by rw [← here]⟩

end

/-- Whether the fields of a junction have names, and each one a name of its own. -/
def Document.NamesJunction (d : Document) (c : Connection) (order : JunctionOrder) : Prop :=
  ([] :: ((junctionSides d c order).1.names ++ (junctionSides d c order).2.names)).Nodup

/-- A junction has four fields only if they all have names of their own. -/
theorem namesJunction_iff :
    (Document.parse t).NamesJunction c order ↔ (junctionModel t c order).fields.length = 4 := by
  have names : (junctionFields (Document.parse t) c order).map Field.name =
      (junctionSides (Document.parse t) c order).1.names ++ (junctionSides (Document.parse t) c order).2.names := rfl
  have all : (junctionFields (Document.parse t) c order).length = 4 := rfl
  rw [Document.NamesJunction, ← names, List.nodup_cons, List.mem_map]
  constructor
  · rintro ⟨named, distinct⟩
    have kept : (junctionFields (Document.parse t) c order).filter (fun f => !f.name.isEmpty) =
        junctionFields (Document.parse t) c order := by
      refine List.filter_eq_self.mpr fun f member => ?_
      simpa using fun none => named ⟨f, member, none⟩
    rw [junctionModel, kept, keepFirst_of_nodup distinct, all]
  · intro four
    have kept := (keepFirst_sublist Field.name
      ((junctionFields (Document.parse t) c order).filter fun f => !f.name.isEmpty)).trans List.filter_sublist
    have whole := kept.eq_of_length (four.trans all.symm)
    refine ⟨?_, whole ▸ nodup_keepFirst Field.name _⟩
    rintro ⟨f, member, none⟩
    rw [← whole] at member
    have shown := (List.mem_filter.mp (mem_keepFirst member)).2
    simp [none] at shown

theorem junctionModel_fields (apart : (Document.parse t).NamesJunction c order) :
    (junctionModel t c order).fields = junctionFields (Document.parse t) c order :=
  ((keepFirst_sublist Field.name _).trans List.filter_sublist).eq_of_length (namesJunction_iff.mp apart)

section

variable (hasSource : (Document.parse t).hasModel c.sourceModel) (hasTarget : (Document.parse t).hasModel c.targetModel)

include plain has hasOther hasSource hasTarget

/-- The fields of a junction refer to the identities of its models. -/
theorem refersTo_junction (apart : (Document.parse t).NamesJunction c order) :
    RefersTo (junctionEnds c order).1 identity (junctionSides (Document.parse t) c order).1.column
        (junctionSides (Document.parse t) c order).1.key ∧
      RefersTo (junctionEnds c order).2 identityOther (junctionSides (Document.parse t) c order).2.column
        (junctionSides (Document.parse t) c order).2.key := by
  obtain ⟨first, second⟩ := plain.soundSides hasSource hasTarget order
  obtain ⟨showsFirst, showsSecond⟩ := junctionSides_shows has hasOther
  obtain ⟨named, -⟩ := List.nodup_cons.mp apart
  simp only [JunctionSide.names, List.mem_append, List.mem_cons, List.not_mem_nil, or_false, not_or] at named
  obtain ⟨⟨keyed, -⟩, keyedOther, -⟩ := named
  exact ⟨showsFirst.refersTo first (Ne.symm keyed) (has.isWritable plain).2,
    showsSecond.refersTo second (Ne.symm keyedOther) (hasOther.isWritable plain).2⟩

include new unused

/-- The keys of a new junction are all that refers to its models, and the lists of its records are all that refers to it. -/
theorem joinsByKeys_withJunction (apart : (Document.parse t).NamesJunction c order) {a b : Model}
    (first : a ∈ (Document.parse (withJunction t c order)).models)
    (second : b ∈ (Document.parse (withJunction t c order)).models) (name : a.name = (junctionEnds c order).1)
    (nameOther : b.name = (junctionEnds c order).2) :
    JoinsByKeys (Document.parse (withJunction t c order)) (junctionModel t c order) a b
      (junctionSides (Document.parse t) c order).1.key (junctionSides (Document.parse t) c order).2.key
      (recordList (junctionName c order)) := by
  obtain ⟨refers, refersOther⟩ := refersTo_junction plain has hasOther hasSource hasTarget apart
  obtain ⟨showsFirst, showsSecond⟩ := junctionSides_shows has hasOther
  have fields : (junctionModel t c order).fields =
      [(junctionSides (Document.parse t) c order).1.column, (junctionSides (Document.parse t) c order).1.key,
        (junctionSides (Document.parse t) c order).2.column, (junctionSides (Document.parse t) c order).2.key] :=
    junctionModel_fields apart
  have isEnd : a.name = c.sourceModel ∨ a.name = c.targetModel := (junctionEnds_iff c order).mp (Or.inl name)
  have isEndOther : b.name = c.sourceModel ∨ b.name = c.targetModel := (junctionEnds_iff c order).mp (Or.inr nameOther)
  have column := showsFirst.column_relation (has.isWritable plain).1 has.scalar
  have columnOther := showsSecond.column_relation (hasOther.isWritable plain).1 hasOther.scalar
  have distinct : (junctionSides (Document.parse t) c order).1.key.name ≠
      (junctionSides (Document.parse t) c order).2.key.name := by
    have names := (List.nodup_cons.mp apart).2
    simp only [JunctionSide.names, List.cons_append, List.nil_append, List.nodup_cons, List.mem_cons, not_or] at names
    exact names.2.1.2.1
  exact
    { junction := (Document.model?_eq_some (model?_withJunction plain new hasSource hasTarget)).1
      first, second, distinct
      apart := ⟨junctionName_ne isEnd, junctionName_ne isEndOther⟩
      inJunction := by simp [fields]
      typed := ⟨refers.model.trans name.symm, refersOther.model.trans nameOther.symm⟩
      keyed := by simp [Field.hasForeignKey, refers.key, refersOther.key]
      unnamed := by simp [Field.relationName, refers.key, refersOther.key]
      only := by simp [fields, column, columnOther]
      listed := ⟨recordList_mem_withJunction plain has hasOther new hasSource hasTarget first isEnd,
        recordList_mem_withJunction plain has hasOther new hasSource hasTarget second isEndOther⟩
      keyless := recordList_keyless _
      back := fun m isModel f inModel typed =>
        eq_recordList_withJunction plain has hasOther new unused hasSource hasTarget isModel inModel typed
      isList := rfl }

end

end

/-- A relation by a new junction gives the junction two relations to the models that it joins, each one of one record to
many, if its four fields have names of their own and its name is not taken for an unsupported type. -/
theorem addRelation_joins_iff {t : Text} (plain : IsPlainText t) {c : Connection} {request : RelationRequest}
    (manyToMany : request.cardinality = .manyToMany) (explicit : request.mode = .explicit) {identity identityOther : Field}
    (has : HasScalarIdentity t (junctionEnds c request.order).1 identity)
    (hasOther : HasScalarIdentity t (junctionEnds c request.order).2 identityOther)
    (new : (Document.parse t).hasModel (junctionName c request.order) = false)
    (unused : ∀ m ∈ (Document.parse t).models, ∀ f ∈ m.fields, f.type ≠ junctionName c request.order) :
    ∃ out, addRelation t c request = .ok out ∧
      ((Document.parse out).HasJunction (junctionName c request.order) (junctionEnds c request.order).1
          (junctionEnds c request.order).2 identity identityOther ↔
        (Document.parse t).NamesJunction c request.order ∧
          (txt "Unsupported").isPrefixOf (junctionName c request.order) = false) := by
  have hasSource := hasModel_of_closed plain (closed_of_isEnd has hasOther (Or.inl rfl))
  have hasTarget := hasModel_of_closed plain (closed_of_isEnd has hasOther (Or.inr rfl))
  have run := plain.addRelation_run request hasSource hasTarget
  rw [relationEdits_explicit manyToMany explicit, relationBase_explicit manyToMany explicit] at run
  have after {model : Text} (found : (Document.parse t).hasModel model) (other : model ≠ junctionName c request.order) :
      ∃ m ∈ (Document.parse (withJunction t c request.order)).models, m.name = model := by
    obtain ⟨m, isModel⟩ := Option.isSome_iff_exists.mp found
    rw [← (plain.junctionAdded hasSource hasTarget new).models model other] at isModel
    have foundAfter := (edited_withJunction plain new hasSource hasTarget).model? model
    rw [isModel] at foundAfter
    exact ⟨_, Document.model?_eq_some foundAfter⟩
  obtain ⟨a, first, name⟩ := after (hasModel_of_closed plain has.closed) (junctionEnds_ne c request.order).1
  obtain ⟨b, second, nameOther⟩ := after (hasModel_of_closed plain hasOther.closed) (junctionEnds_ne c request.order).2
  have named := Document.parse_isNamed (withJunction t c request.order)
  have found := model?_withJunction plain new hasSource hasTarget
  have joins (apart : (Document.parse t).NamesJunction c request.order) :=
    joinsByKeys_withJunction plain has hasOther new unused hasSource hasTarget apart first second name nameOther
  have relational := recordList_relational_iff (junctionName_notBuiltIn c request.order)
  refine ⟨_, run, ?_⟩
  constructor
  · rintro ⟨k, r, k', r', isJunction, -, -, -, e, e', drawn, ⟨-, many⟩, -⟩
    have apart : (Document.parse t).NamesJunction c request.order := by
      have same := Option.some.inj (found.symm.trans isJunction)
      exact namesJunction_iff.mpr (by rw [same]; rfl)
    rw [Diagram.edges_ofDocument] at drawn
    have shown : e ∈ (inferEdges (Document.parse (withJunction t c request.order))).filter
        (·.source = junctionName c request.order) := drawn.mem_iff.mpr List.mem_cons_self
    obtain ⟨inDiagram, fromJunction⟩ := List.mem_filter.mp shown
    refine ⟨apart, relational.mp ?_⟩
    rcases (joins apart).mem_inferEdges_from named inDiagram (of_decide_eq_true fromJunction) with rfl | rfl
    · exact ((joins apart).cardinality rfl rfl).mp many
    · exact ((joins apart).symm.cardinality rfl rfl).mp many
  · rintro ⟨apart, supported⟩
    have many := relational.mpr supported
    obtain ⟨refers, refersOther⟩ := refersTo_junction plain has hasOther hasSource hasTarget apart
    have drawn := (joins apart).filter_inferEdges named
    rw [← Diagram.edges_ofDocument] at drawn
    refine ⟨(junctionSides (Document.parse t) c request.order).1.column,
      (junctionSides (Document.parse t) c request.order).1.key,
      (junctionSides (Document.parse t) c request.order).2.column,
      (junctionSides (Document.parse t) c request.order).2.key, found.trans ?_, (List.nodup_cons.mp apart).2, refers,
      refersOther, _, _, drawn, ⟨?_, ((joins apart).cardinality rfl rfl).mpr many⟩, ?_,
      ((joins apart).symm.cardinality rfl rfl).mpr many⟩
    · exact congrArg (fun fields => some (Model.mk _ fields _)) (junctionModel_fields apart)
    · rw [← name]
      rfl
    · rw [← nameOther]
      rfl

instance (d : Document) (c : Connection) (order : JunctionOrder) : Decidable (d.NamesJunction c order) :=
  inferInstanceAs (Decidable (List.Nodup _))

/-- Students and courses that are to be joined. -/
def enrollmentSchema : Text :=
  txt "model Student \x7b\n  id Int @id // number\n  name String\n\x7d\n\nmodel Course \x7b code String @id \x7d\n"

theorem addRelation_joins_iff_enrollmentSchema :
    (IsPlainText enrollmentSchema ∧
        (Document.parse enrollmentSchema).hasModel (txt "CourseOnStudent") = false ∧
        ∀ m ∈ (Document.parse enrollmentSchema).models, ∀ f ∈ m.fields, f.type ≠ txt "CourseOnStudent") ∧
      ∃ out, addRelation enrollmentSchema ⟨txt "Student", txt "id", txt "Course", txt "code"⟩
          ⟨.manyToMany, .explicit, .targetFirst, false, false⟩ = .ok out ∧
        (Document.parse out).HasJunction (txt "CourseOnStudent") (txt "Course") (txt "Student")
          ⟨txt "code", txt "String", false, false, [txt "@id"], none⟩
          ⟨txt "id", txt "Int", false, false, [txt "@id"], none⟩ := by
  obtain ⟨plain, ⟨closed, closedCourse⟩, ⟨identity, identityCourse⟩, new, unused, named⟩ :
      IsPlainText enrollmentSchema ∧
        ((modelBody? enrollmentSchema (txt "Student")).isSome ∧ (modelBody? enrollmentSchema (txt "Course")).isSome) ∧
        (((Document.parse enrollmentSchema).model? (txt "Student")).bind (·.identity?) =
            some ⟨txt "id", txt "Int", false, false, [txt "@id"], none⟩ ∧
          ((Document.parse enrollmentSchema).model? (txt "Course")).bind (·.identity?) =
            some ⟨txt "code", txt "String", false, false, [txt "@id"], none⟩) ∧
        (Document.parse enrollmentSchema).hasModel (txt "CourseOnStudent") = false ∧
        (∀ m ∈ (Document.parse enrollmentSchema).models, ∀ f ∈ m.fields, f.type ≠ txt "CourseOnStudent") ∧
        (Document.parse enrollmentSchema).NamesJunction ⟨txt "Student", txt "id", txt "Course", txt "code"⟩ .targetFirst := by
    decide +kernel
  have manyToMany : (⟨.manyToMany, .explicit, .targetFirst, false, false⟩ : RelationRequest).cardinality = .manyToMany := rfl
  have course : HasScalarIdentity enrollmentSchema (txt "Course") _ := ⟨closedCourse, identityCourse, rfl⟩
  have student : HasScalarIdentity enrollmentSchema (txt "Student") _ := ⟨closed, identity, rfl⟩
  obtain ⟨out, done, joins⟩ := addRelation_joins_iff plain (c := ⟨txt "Student", txt "id", txt "Course", txt "code"⟩)
    manyToMany rfl course student new unused
  exact ⟨⟨plain, new, unused⟩, out, done, joins.mpr ⟨named, by decide⟩⟩

/-- Users of two kinds that are told apart by a capital only. -/
def twinsSchema : Text :=
  txt "model User \x7b\n  id Int @id\n\x7d\n\nmodel user \x7b\n  uid Int @id\n\x7d\n"

/-- The junction of these has one field for both of its relations, and loses the second one. -/
theorem addRelation_loses_relation_twinsSchema :
    (IsPlainText twinsSchema ∧
        HasScalarIdentity twinsSchema (txt "User") ⟨txt "id", txt "Int", false, false, [txt "@id"], none⟩ ∧
        HasScalarIdentity twinsSchema (txt "user") ⟨txt "uid", txt "Int", false, false, [txt "@id"], none⟩ ∧
        (Document.parse twinsSchema).hasModel (txt "UserOnuser") = false ∧
        ∀ m ∈ (Document.parse twinsSchema).models, ∀ f ∈ m.fields, f.type ≠ txt "UserOnuser") ∧
      ∃ out, addRelation twinsSchema ⟨txt "User", txt "id", txt "user", txt "uid"⟩
          ⟨.manyToMany, .explicit, .sourceFirst, false, false⟩ = .ok out ∧
        ((Document.parse out).model? (txt "UserOnuser")).map (fun m => m.fields.map Field.name) =
          some [txt "userId", txt "user", txt "userUid"] ∧
        (Diagram.ofDocument (Document.parse out)).edges.map Edge.id = [txt "UserOnuser-User-user"] := by
  obtain ⟨plain, ⟨closed, closedTwin⟩, ⟨identity, identityTwin⟩, new, unused⟩ :
      IsPlainText twinsSchema ∧
        ((modelBody? twinsSchema (txt "User")).isSome ∧ (modelBody? twinsSchema (txt "user")).isSome) ∧
        (((Document.parse twinsSchema).model? (txt "User")).bind (·.identity?) =
            some ⟨txt "id", txt "Int", false, false, [txt "@id"], none⟩ ∧
          ((Document.parse twinsSchema).model? (txt "user")).bind (·.identity?) =
            some ⟨txt "uid", txt "Int", false, false, [txt "@id"], none⟩) ∧
        (Document.parse twinsSchema).hasModel (txt "UserOnuser") = false ∧
        ∀ m ∈ (Document.parse twinsSchema).models, ∀ f ∈ m.fields, f.type ≠ txt "UserOnuser" := by
    decide +kernel
  refine ⟨⟨plain, ⟨closed, identity, rfl⟩, ⟨closedTwin, identityTwin, rfl⟩, new, unused⟩, ?_⟩
  refine ⟨txt "model User \x7b\n  id Int @id\n  userOnusers UserOnuser[]\n\x7d\n\n" ++
    txt "model user \x7b\n  uid Int @id\n  userOnusers UserOnuser[]\n\x7d\n\nmodel UserOnuser \x7b\n" ++
    txt "  userId Int\n  user User @relation(fields: [userId], references: [id])\n  userUid Int\n" ++
    txt "  user user @relation(fields: [userUid], references: [uid])\n\n  @@id([userId, userUid])\n\x7d\n", ?_, ?_⟩
  · decide +kernel
  · decide +kernel

end SchemaDiagram

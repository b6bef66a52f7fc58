import SchemaDiagram.Proofs.KeyEdges

namespace SchemaDiagram

open Text

/-- A model whose relations are two foreign keys, without a name, and to which no other field refers than a list in each of
the models that the keys refer to. -/
structure JoinsByKeys (d : Document) (j a b : Model) (key keyOther list : Field) : Prop where
  junction : j ∈ d.models
  first : a ∈ d.models
  second : b ∈ d.models
  apart : a.name ≠ j.name ∧ b.name ≠ j.name
  inJunction : key ∈ j.fields ∧ keyOther ∈ j.fields
  typed : key.type = a.name ∧ keyOther.type = b.name
  keyed : key.hasForeignKey ∧ keyOther.hasForeignKey
  unnamed : key.relationName = none ∧ keyOther.relationName = none
  distinct : key.name ≠ keyOther.name
  only : ∀ f ∈ j.fields, f.relation.isSome → f = key ∨ f = keyOther
  listed : list ∈ a.fields ∧ list ∈ b.fields
  keyless : list.hasForeignKey = false ∧ list.relationName = none
  back : ∀ m ∈ d.models, ∀ f ∈ m.fields, f.type = j.name → f = list
  isList : list.type = j.name

namespace JoinsByKeys

variable {d : Document} (named : d.IsNamed) {j a b : Model} {key keyOther list : Field}
  (joins : JoinsByKeys d j a b key keyOther list)

include joins

/-- The same junction, seen from its second key. -/
theorem symm : JoinsByKeys d j b a keyOther key list where
  junction := joins.junction
  first := joins.second
  second := joins.first
  apart := joins.apart.symm
  inJunction := joins.inJunction.symm
  typed := joins.typed.symm
  keyed := joins.keyed.symm
  unnamed := joins.unnamed.symm
  distinct := joins.distinct.symm
  only := fun f inJunction relational => (joins.only f inJunction relational).symm
  listed := joins.listed.symm
  keyless := joins.keyless
  back := joins.back
  isList := joins.isList

/-- The list answers the key if it is relational at all. -/
theorem inverse?_eq : inverse? j key a = if list.relation.isSome then some list else none := by
  have answered (relational : list.relation.isSome) : answers j key a list :=
    answers_iff.mpr ⟨joins.isList, relational, fun both => joins.apart.1 both.1.symm,
      joins.unnamed.1.trans joins.keyless.2.symm⟩
  cases found : inverse? j key a with
  | some g =>
    obtain ⟨inFirst, answer⟩ := inverse?_eq_some found
    obtain ⟨typed, relational, -, -⟩ := answers_iff.mp answer
    obtain rfl := joins.back a joins.first g inFirst typed
    rw [if_pos relational]
  | none =>
    split
    · rename_i relational
      exact absurd (answered relational) (by simpa using List.find?_eq_none.mp found list joins.listed.1)
    · rfl

/-- The edge of a key shows many records, if the list of these is relational. -/
theorem cardinality (single : key.isList = false) (many : list.isList) :
    (keyEdge j key a (inverse? j key a)).cardinality = .oneToMany ↔ list.relation.isSome := by
  rw [joins.inverse?_eq]
  by_cases relational : list.relation.isSome
  · simp [keyEdge, relational, single, many, Cardinality.ofLists]
  · simp [keyEdge, relational, single, Cardinality.ofLists]

include named

theorem gives : GivesEdge d j key (keyEdge j key a (inverse? j key a)) := by
  have target : d.model? key.type = some a := joins.typed.1 ▸ named.model?_of_mem joins.first
  refine .key target joins.keyed.1 fun g found => ?_
  obtain ⟨inFirst, answer⟩ := inverse?_eq_some found
  rw [joins.back a joins.first g inFirst (answers_iff.mp answer).1]
  exact joins.keyless.1

/-- Every edge from the junction is that of one of its keys. -/
theorem eq_keyEdge {m : Model} {f : Field} {e : Edge} (isModel : m ∈ d.models) (inModel : f ∈ m.fields)
    (gives : GivesEdge d m f e) (fromJunction : e.source = j.name) :
    e = keyEdge j key a (inverse? j key a) ∨ e = keyEdge j keyOther b (inverse? j keyOther b) := by
  cases gives with
  | @key o target keyed single =>
    obtain rfl := named.eq_model isModel joins.junction fromJunction
    rcases joins.only f inModel (Field.relation_isSome keyed) with rfl | rfl
    · rw [joins.typed.1, named.model?_of_mem joins.first] at target
      exact Or.inl (by rw [Option.some.inj target])
    · rw [joins.typed.2, named.model?_of_mem joins.second] at target
      exact Or.inr (by rw [Option.some.inj target])
  | @answer o g target relational keyless found keyed =>
    obtain ⟨isTarget, name⟩ := Document.model?_eq_some target
    obtain ⟨inTarget, answer⟩ := inverse?_eq_some found
    obtain rfl := named.eq_model isTarget joins.junction fromJunction
    obtain rfl := joins.back m isModel f inModel name.symm
    obtain ⟨typed, relationalBack, -, -⟩ := answers_iff.mp answer
    rcases joins.only g inTarget relationalBack with rfl | rfl
    · obtain rfl := named.eq_model isModel joins.first (typed.symm.trans joins.typed.1)
      rw [joins.inverse?_eq, if_pos relational]
      exact Or.inl rfl
    · obtain rfl := named.eq_model isModel joins.second (typed.symm.trans joins.typed.2)
      rw [joins.symm.inverse?_eq, if_pos relational]
      exact Or.inr rfl
  | @lists o g target relational keyless found keylessBack isList isListBack atFirst =>
    obtain rfl := named.eq_model isModel joins.junction fromJunction
    rcases joins.only f inModel relational with rfl | rfl
    · rw [joins.keyed.1] at keyless
      cases keyless
    · rw [joins.keyed.2] at keyless
      cases keyless

theorem mem_inferEdges_from {e : Edge} (member : e ∈ inferEdges d) (fromJunction : e.source = j.name) :
    e = keyEdge j key a (inverse? j key a) ∨ e = keyEdge j keyOther b (inverse? j keyOther b) := by
  rw [inferEdges_eq] at member
  rcases mem_foldl_addEdge member with none | found
  · cases none
  · obtain ⟨m, isModel, inEdges⟩ := List.mem_flatMap.mp found
    obtain ⟨f, inModel, gives⟩ := mem_edges_iff.mp inEdges
    exact joins.eq_keyEdge named isModel inModel gives fromJunction

theorem ids_apart : (keyEdge j key a (inverse? j key a)).id ≠ (keyEdge j keyOther b (inverse? j keyOther b)).id := by
  intro same
  have word {m : Model} (isModel : m ∈ d.models) := named.models m isModel
  obtain ⟨-, -, name⟩ := edgeId_inj (word joins.junction) (word joins.first) (word joins.junction) (word joins.second) same
  exact joins.distinct name

/-- The edge of a key is drawn. -/
theorem keyEdge_mem : keyEdge j key a (inverse? j key a) ∈ inferEdges d := by
  have word {m : Model} (isModel : m ∈ d.models) := named.models m isModel
  obtain ⟨e, inDiagram, same | same⟩ :=
    inferEdges_covers joins.junction (mem_edges_iff.mpr ⟨key, joins.inJunction.1, joins.gives named⟩)
  · obtain ⟨source, -, -⟩ :=
      (origin_of_mem_inferEdges inDiagram).ends_of_id named (word joins.junction) (word joins.first) same
    rcases joins.mem_inferEdges_from named inDiagram source with rfl | rfl
    · exact inDiagram
    · exact absurd same.symm (joins.ids_apart named)
  · -- the edge from the other end would show a foreign key of the list's model
    have reverse : (keyEdge j key a (inverse? j key a)).reverseId = edgeId a.name j.name key.name := Edge.reverseId_eq rfl
    obtain ⟨k, inFirst, -, typed, keyed⟩ := (origin_of_mem_inferEdges inDiagram).key_of_id named joins.first joins.junction
      (named.fields j joins.junction key joins.inJunction.1) (same.trans reverse)
    rw [joins.back a joins.first k inFirst typed, joins.keyless.1] at keyed
    cases keyed

/-- The diagram shows both keys of a junction, and no other edge from it. -/
theorem filter_inferEdges : ((inferEdges d).filter (·.source = j.name)).Perm
    [keyEdge j key a (inverse? j key a), keyEdge j keyOther b (inverse? j keyOther b)] := by
  have differ : keyEdge j key a (inverse? j key a) ≠ keyEdge j keyOther b (inverse? j keyOther b) :=
    fun same => joins.ids_apart named (congrArg Edge.id same)
  refine (List.perm_ext_iff_of_nodup ((nodup_inferEdges d).of_map.filter _) (by simp [differ])).mpr fun e => ?_
  simp only [List.mem_filter, decide_eq_true_eq, List.mem_cons, List.not_mem_nil, or_false]
  constructor
  · rintro ⟨member, fromJunction⟩
    exact joins.mem_inferEdges_from named member fromJunction
  · rintro (rfl | rfl)
    · exact ⟨joins.keyEdge_mem named, rfl⟩
    · exact ⟨joins.symm.keyEdge_mem named, rfl⟩

end JoinsByKeys

end SchemaDiagram

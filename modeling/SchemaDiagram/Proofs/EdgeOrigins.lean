import SchemaDiagram.Proofs.EdgeIds

namespace SchemaDiagram

open Text

theorem Field.relation_isSome {f : Field} (keyed : f.hasForeignKey) : f.relation.isSome := by
  cases none : f.relation with
  | none => simp [Field.hasForeignKey, none] at keyed
  | some relation => rfl

theorem answers_iff {source target : Model} {f back : Field} :
    answers source f target back ↔ back.type = source.name ∧ back.relation.isSome ∧
      ¬(source.name = target.name ∧ back.name = f.name) ∧ f.relationName = back.relationName := by
  simp [answers, and_assoc, Decidable.imp_iff_not_or]

/-- Two relational fields answer each other or neither answers the other. -/
theorem answers_symm {source target : Model} {f back : Field} (typed : f.type = target.name)
    (relational : f.relation.isSome) (answer : answers source f target back) : answers target back source f := by
  obtain ⟨-, -, apart, named⟩ := answers_iff.mp answer
  exact answers_iff.mpr ⟨typed, relational, fun both => apart ⟨both.1.symm, both.2.symm⟩, named.symm⟩

theorem inverse?_eq_some {source target : Model} {f back : Field} (found : inverse? source f target = some back) :
    back ∈ target.fields ∧ answers source f target back :=
  ⟨List.mem_of_find?_eq_some found, List.find?_some found⟩

theorem Document.model?_eq_some {d : Document} {name : Text} {m : Model} (found : d.model? name = some m) :
    m ∈ d.models ∧ m.name = name :=
  ⟨List.mem_of_find?_eq_some found, by simpa using List.find?_some found⟩

/-- The ways in which a field gives rise to an edge: it carries the foreign key, or the field that it answers does, or
both are lists. -/
inductive GivesEdge (d : Document) (m : Model) (f : Field) : Edge → Prop
  | key {o : Model} (target : d.model? f.type = some o) (keyed : f.hasForeignKey)
      (single : ∀ b ∈ inverse? m f o, b.hasForeignKey = false) : GivesEdge d m f (keyEdge m f o (inverse? m f o))
  | answer {o : Model} {b : Field} (target : d.model? f.type = some o) (relational : f.relation.isSome)
      (keyless : f.hasForeignKey = false) (back : inverse? m f o = some b) (keyed : b.hasForeignKey) :
      GivesEdge d m f (keyEdge o b m (some f))
  | lists {o : Model} {b : Field} (target : d.model? f.type = some o) (relational : f.relation.isSome)
      (keyless : f.hasForeignKey = false) (back : inverse? m f o = some b) (keylessBack : b.hasForeignKey = false)
      (list : f.isList) (listBack : b.isList) (first : ¬o.name < m.name) : GivesEdge d m f (listEdge m o)

theorem fieldEdge?_eq_some_iff {d : Document} {m : Model} {f : Field} {e : Edge} :
    fieldEdge? d m f = some e ↔ GivesEdge d m f e := by
  constructor
  · intro found
    obtain ⟨relation, relational, found⟩ := Option.bind_eq_some_iff.mp found
    obtain ⟨o, target, found⟩ := Option.bind_eq_some_iff.mp found
    have isSome : f.relation.isSome := by rw [relational]; rfl
    dsimp only at found
    split at found
    · rename_i keyed none
      obtain rfl := Option.some.inj found
      exact none ▸ .key target keyed (by simp [none])
    · rename_i b keyed back
      split at found
      · cases found
      · rename_i keyless
        obtain rfl := Option.some.inj found
        exact back ▸ .key target keyed (by simpa [back] using keyless)
    · cases found
    · rename_i b keyless back
      split at found
      · rename_i keyed
        obtain rfl := Option.some.inj found
        exact .answer target isSome keyless back keyed
      split at found
      · rename_i noKey lists
        obtain ⟨⟨list, listBack⟩, first⟩ : (f.isList ∧ b.isList) ∧ ¬o.name < m.name := by simpa using lists
        obtain rfl := Option.some.inj found
        exact .lists target isSome keyless back (Bool.eq_false_iff.mpr noKey) list listBack first
      · cases found
  · intro gives
    have isRelation (relational : f.relation.isSome) : ∃ relation, f.relation = some relation :=
      Option.isSome_iff_exists.mp relational
    cases gives with
    | key target keyed single =>
      obtain ⟨relation, isSome⟩ := isRelation (Field.relation_isSome keyed)
      cases back : inverse? m f _ with
      | none => simp [fieldEdge?, isSome, target, keyed, back]
      | some b => simp [fieldEdge?, isSome, target, keyed, back, single b back]
    | answer target relational keyless back keyed =>
      obtain ⟨relation, isSome⟩ := isRelation relational
      simp [fieldEdge?, isSome, target, keyless, back, keyed]
    | lists target relational keyless back keylessBack list listBack first =>
      obtain ⟨relation, isSome⟩ := isRelation relational
      simp [fieldEdge?, isSome, target, keyless, back, keylessBack, list, listBack, first]

/-- Where an edge comes from: a foreign key, which at most one field answers, or two lists that answer each other. -/
inductive Edge.Origin (d : Document) : Edge → Prop
  | key {h o : Model} {k : Field} {back : Option Field} (holder : h ∈ d.models) (other : o ∈ d.models)
      (inHolder : k ∈ h.fields) (typed : k.type = o.name) (keyed : k.hasForeignKey)
      (single : ∀ b ∈ back, b ∈ o.fields ∧ answers h k o b) : Edge.Origin d (keyEdge h k o back)
  | lists {a b : Model} {f g : Field} (first : a ∈ d.models) (second : b ∈ d.models) (inFirst : f ∈ a.fields)
      (inSecond : g ∈ b.fields) (typed : f.type = b.name) (answer : answers a f b g)
      (keyless : f.hasForeignKey = false ∧ g.hasForeignKey = false) (list : f.isList ∧ g.isList)
      (order : ¬b.name < a.name) : Edge.Origin d (listEdge a b)

theorem GivesEdge.origin {d : Document} {m : Model} {f : Field} {e : Edge} (gives : GivesEdge d m f e)
    (isModel : m ∈ d.models) (inModel : f ∈ m.fields) : e.Origin d := by
  cases gives with
  | key target keyed single =>
    obtain ⟨isTarget, name⟩ := Document.model?_eq_some target
    exact .key isModel isTarget inModel name.symm keyed fun b back => inverse?_eq_some back
  | answer target relational keyless back keyed =>
    obtain ⟨isTarget, name⟩ := Document.model?_eq_some target
    obtain ⟨inTarget, answer⟩ := inverse?_eq_some back
    refine .key isTarget isModel inTarget (answers_iff.mp answer).1 keyed fun b same => ?_
    rw [← Option.some.inj same]
    exact ⟨inModel, answers_symm name.symm relational answer⟩
  | lists target relational keyless back keylessBack list listBack first =>
    obtain ⟨isTarget, name⟩ := Document.model?_eq_some target
    obtain ⟨inTarget, answer⟩ := inverse?_eq_some back
    exact .lists isModel isTarget inModel inTarget name.symm answer ⟨keyless, keylessBack⟩ ⟨list, listBack⟩ first

/-- The edges that the fields of a model give rise to. -/
def Model.edges (d : Document) (m : Model) : List Edge := m.fields.filterMap (fieldEdge? d m)

theorem mem_edges_iff {d : Document} {m : Model} {e : Edge} :
    e ∈ m.edges d ↔ ∃ f ∈ m.fields, GivesEdge d m f e := by
  simp only [Model.edges, List.mem_filterMap, fieldEdge?_eq_some_iff]

theorem inferEdges_eq (d : Document) : inferEdges d = (d.models.flatMap (Model.edges d)).foldl addEdge [] := rfl

theorem Diagram.edges_ofDocument (d : Document) : (Diagram.ofDocument d).edges = inferEdges d := rfl

theorem mem_addEdge {edges : List Edge} {e e' : Edge} (member : e' ∈ addEdge edges e) : e' ∈ edges ∨ e' = e := by
  unfold addEdge at member
  split at member
  · exact Or.inl member
  · simpa using member

theorem mem_foldl_addEdge {found edges : List Edge} {e : Edge} (member : e ∈ found.foldl addEdge edges) :
    e ∈ edges ∨ e ∈ found := by
  induction found generalizing edges with
  | nil => exact Or.inl member
  | cons e' found ih =>
    rcases ih member with known | later
    · rcases mem_addEdge known with known | rfl
      · exact Or.inl known
      · exact Or.inr List.mem_cons_self
    · exact Or.inr (List.mem_cons_of_mem _ later)

theorem Model.edges_origin {d : Document} {m : Model} (isModel : m ∈ d.models) {e : Edge} (found : e ∈ m.edges d) :
    e.Origin d := by
  obtain ⟨f, inModel, gives⟩ := mem_edges_iff.mp found
  exact gives.origin isModel inModel

theorem origin_of_mem_inferEdges {d : Document} {e : Edge} (member : e ∈ inferEdges d) : e.Origin d := by
  rw [inferEdges_eq] at member
  rcases mem_foldl_addEdge member with none | found
  · cases none
  · obtain ⟨m, isModel, inModel⟩ := List.mem_flatMap.mp found
    exact Model.edges_origin isModel inModel

/-- After an edge is added there is one of its id, seen from one end or the other. -/
theorem addEdge_covers (edges : List Edge) (e : Edge) :
    ∃ known ∈ addEdge edges e, known.id = e.id ∨ known.id = e.reverseId := by
  unfold addEdge
  split
  · rename_i there
    obtain ⟨known, inEdges, same⟩ := List.any_eq_true.mp there
    exact ⟨known, inEdges, by simpa using same⟩
  · exact ⟨e, by simp, Or.inl rfl⟩

theorem isPrefix_foldl_addEdge (found edges : List Edge) : edges <+: found.foldl addEdge edges := by
  induction found generalizing edges with
  | nil => exact List.prefix_refl edges
  | cons e found ih =>
    refine List.IsPrefix.trans ?_ (ih (addEdge edges e))
    unfold addEdge
    split
    · exact List.prefix_refl edges
    · exact List.prefix_append edges [e]

/-- For every edge that a field gives rise to the diagram has one of its id, seen from one end or the other. -/
theorem inferEdges_covers {d : Document} {m : Model} (isModel : m ∈ d.models) {e : Edge} (found : e ∈ m.edges d) :
    ∃ known ∈ inferEdges d, known.id = e.id ∨ known.id = e.reverseId := by
  have member : e ∈ d.models.flatMap (Model.edges d) := List.mem_flatMap.mpr ⟨m, isModel, found⟩
  obtain ⟨before, after, split⟩ := List.append_of_mem member
  obtain ⟨known, there, same⟩ := addEdge_covers (before.foldl addEdge []) e
  refine ⟨known, ?_, same⟩
  rw [inferEdges_eq, split, List.foldl_append, List.foldl_cons]
  exact (isPrefix_foldl_addEdge after _).subset there

/-- An edge that comes later has another id than the edge before it, from either end. -/
def Edge.Follows (later e : Edge) : Prop := e.id ≠ later.id ∧ e.id ≠ later.reverseId

theorem pairwise_addEdge {edges : List Edge} (apart : edges.Pairwise fun e later => later.Follows e) (e : Edge) :
    (addEdge edges e).Pairwise fun e later => later.Follows e := by
  unfold addEdge
  split
  · exact apart
  · rename_i new
    refine List.pairwise_append.mpr ⟨apart, List.pairwise_singleton _ _, fun known member other same => ?_⟩
    rw [List.mem_singleton.mp same]
    rw [Edge.Follows, ← not_or]
    exact fun found => new (List.any_eq_true.mpr ⟨known, member, by simpa using found⟩)

theorem pairwise_inferEdges (d : Document) : (inferEdges d).Pairwise fun e later => later.Follows e := by
  have run (found edges : List Edge) (apart : edges.Pairwise fun e later => later.Follows e) :
      (found.foldl addEdge edges).Pairwise fun e later => later.Follows e := by
    induction found generalizing edges with
    | nil => exact apart
    | cons e found ih => exact ih (addEdge edges e) (pairwise_addEdge apart e)
  exact run _ [] List.Pairwise.nil

theorem nodup_inferEdges (d : Document) : ((inferEdges d).map Edge.id).Nodup :=
  List.pairwise_map.mpr ((pairwise_inferEdges d).imp fun follows => follows.1)

end SchemaDiagram

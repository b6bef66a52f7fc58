import SchemaDiagram.Proofs.EdgeKinds
import SchemaDiagram.Proofs.EdgesBetween

namespace SchemaDiagram

open Text

/-- No field between two models carries a foreign key. -/
def Document.HasNoKeyBetween (d : Document) (a b : Text) : Prop :=
  ∀ m ∈ d.models, ∀ f ∈ m.fields, isPair a b m.name f.type → f.hasForeignKey = false

/-- Whether a model has a list of another one that is answered by a list. -/
def Model.pairsLists (a b : Model) : Bool :=
  a.fields.any fun f => f.type = b.name && f.relation.isSome && f.isList && (inverse? a f b).any (·.isList)

theorem pairsLists_iff {a b : Model} : a.pairsLists b ↔ ∃ f ∈ a.fields, f.type = b.name ∧ f.relation.isSome ∧ f.isList ∧
    ∃ g, inverse? a f b = some g ∧ g.isList := by
  simp [Model.pairsLists, Option.any_eq_true, and_assoc]

/-- An edge between other models has the id that the edge of two lists would have, from one end or the other. -/
def Diagram.TakesListEdge (g : Diagram) (a b : Model) : Prop :=
  ∃ e ∈ g.edges, e.joins a.name b.name = false ∧ (e.id = (listEdge a b).id ∨ e.id = (listEdge a b).reverseId)

theorem Edge.Origin.made {d : Document} {e : Edge} (origin : e.Origin d) : ∃ mark, e.id = edgeId e.source e.target mark := by
  cases origin with
  | key => exact ⟨_, rfl⟩
  | lists => exact ⟨_, rfl⟩

section

variable {d : Document} (distinct : (d.models.map Model.name).Nodup) {a b : Model} (first : a ∈ d.models)
  (second : b ∈ d.models) (order : ¬b.name < a.name) (keyless : d.HasNoKeyBetween a.name b.name)

include distinct first second order keyless

/-- Without foreign keys, every edge between two models is that of lists. -/
theorem GivesEdge.eq_listEdge {m : Model} {f : Field} {e : Edge} (isModel : m ∈ d.models) (inModel : f ∈ m.fields)
    (gives : GivesEdge d m f e) (between : e.joins a.name b.name) : e = listEdge a b ∧ a.pairsLists b := by
  have pair : isPair a.name b.name m.name f.type := gives.joins _ _ ▸ between
  have same {m m' : Model} (isModel : m ∈ d.models) (isModel' : m' ∈ d.models) (name : m.name = m'.name) : m = m' :=
    List.inj_on_of_nodup_map distinct isModel isModel' name
  have noKey := keyless m isModel f inModel pair
  cases gives with
  | key target keyed =>
    rw [noKey] at keyed
    cases keyed
  | @answer o g target relational _ found keyed =>
    obtain ⟨isTarget, name⟩ := Document.model?_eq_some target
    obtain ⟨inTarget, answer⟩ := inverse?_eq_some found
    have pairBack : isPair a.name b.name o.name g.type := by
      rw [(answers_iff.mp answer).1, name, isPair_symm]
      exact pair
    rw [keyless o isTarget g inTarget pairBack] at keyed
    cases keyed
  | @lists o g target relational _ found _ list listBack atFirst =>
    obtain ⟨isTarget, name⟩ := Document.model?_eq_some target
    obtain ⟨rfl, rfl⟩ : m = a ∧ o = b := by
      rcases isPair_iff.mp pair with ⟨source, typed⟩ | ⟨source, typed⟩
      · exact ⟨same isModel first source, same isTarget second (name.trans typed)⟩
      · -- the list of the model that comes later gives an edge only if both are one model
        have atSecond : o = a := same isTarget first (name.trans typed)
        have self : a.name = b.name := List.le_antisymm order (atSecond ▸ source ▸ atFirst)
        have one : a = b := same first second self
        exact ⟨same isModel first (source.trans self.symm), atSecond.trans one⟩
    exact ⟨rfl, pairsLists_iff.mpr ⟨f, inModel, name.symm, relational, list, g, found, listBack⟩⟩

theorem mem_inferEdges_between {e : Edge} (member : e ∈ inferEdges d) (between : e.joins a.name b.name) :
    e = listEdge a b ∧ a.pairsLists b := by
  rw [inferEdges_eq] at member
  rcases mem_foldl_addEdge member with none | found
  · cases none
  · obtain ⟨m, isModel, inEdges⟩ := List.mem_flatMap.mp found
    obtain ⟨f, inModel, gives⟩ := mem_edges_iff.mp inEdges
    exact gives.eq_listEdge distinct first second order keyless isModel inModel between

/-- Lists that do not find each other give no edge. -/
theorem filter_inferEdges_unpaired (unpaired : a.pairsLists b = false) :
    (inferEdges d).filter (Edge.joins a.name b.name) = [] := by
  refine List.filter_eq_nil_iff.mpr fun e member between => ?_
  rw [(mem_inferEdges_between distinct first second order keyless member between).2] at unpaired
  cases unpaired

theorem GivesEdge.of_pairsLists (pairs : a.pairsLists b) :
    ∃ f ∈ a.fields, GivesEdge d a f (listEdge a b) := by
  obtain ⟨f, inFirst, typed, relational, list, g, found, listBack⟩ := pairsLists_iff.mp pairs
  obtain ⟨inSecond, answer⟩ := inverse?_eq_some found
  have target : d.model? f.type = some b := typed ▸ find?_of_mem distinct second
  have noKey := keyless a first f inFirst (isPair_iff.mpr (Or.inl ⟨rfl, typed⟩))
  have noKeyBack := keyless b second g inSecond (isPair_iff.mpr (Or.inr ⟨rfl, (answers_iff.mp answer).1⟩))
  exact ⟨f, inFirst, .lists target relational noKey found noKeyBack list listBack order⟩

/-- Lists that find each other give one edge, however many there are, unless its id is taken. -/
theorem filter_inferEdges_paired (pairs : a.pairsLists b) :
    (inferEdges d).filter (Edge.joins a.name b.name) = [listEdge a b] ∨
      (inferEdges d).filter (Edge.joins a.name b.name) = [] ∧ (Diagram.ofDocument d).TakesListEdge a b := by
  have only {e : Edge} (member : e ∈ inferEdges d) (between : e.joins a.name b.name) : e = listEdge a b :=
    (mem_inferEdges_between distinct first second order keyless member between).1
  by_cases there : listEdge a b ∈ inferEdges d
  · refine Or.inl (eq_singleton_of_nodup ((nodup_inferEdges d).of_map.filter _) ?_ fun e member => ?_)
    · exact List.mem_filter.mpr ⟨there, isPair_iff.mpr (Or.inl ⟨rfl, rfl⟩)⟩
    · exact only (List.mem_filter.mp member).1 (List.mem_filter.mp member).2
  · have apart {e : Edge} (member : e ∈ inferEdges d) : e.joins a.name b.name = false :=
      Bool.eq_false_iff.mpr fun between => there (only member between ▸ member)
    obtain ⟨f, inFirst, gives⟩ := GivesEdge.of_pairsLists distinct first second order keyless pairs
    obtain ⟨e, inDiagram, same⟩ := inferEdges_covers first (mem_edges_iff.mpr ⟨f, inFirst, gives⟩)
    exact Or.inr ⟨List.filter_eq_nil_iff.mpr fun e member => by simp [apart member], e, inDiagram, apart inDiagram, same⟩

end

/-- Only where a name has a hyphen can the id of an edge be taken by an edge between other models. -/
theorem Diagram.TakesListEdge.hyphen {d : Document} {a b : Model} (first : a ∈ d.models) (second : b ∈ d.models)
    (takes : (Diagram.ofDocument d).TakesListEdge a b) : ∃ m ∈ d.models, '-' ∈ m.name := by
  by_contra none
  have noHyphen (m : Model) (isModel : m ∈ d.models) : '-' ∉ m.name := fun inside => none ⟨m, isModel, inside⟩
  obtain ⟨e, inDiagram, apart, same⟩ := takes
  have origin := origin_of_mem_inferEdges inDiagram
  obtain ⟨mark, made⟩ := origin.made
  obtain ⟨⟨m, isSource, source⟩, ⟨o, isTarget, target⟩⟩ := origin.ends
  have atSource := noHyphen m isSource
  have atTarget := noHyphen o isTarget
  rw [source] at atSource
  rw [target] at atTarget
  have reverse : (listEdge a b).reverseId = edgeId b.name a.name Cardinality.manyToMany.label := Edge.reverseId_eq rfl
  have between : isPair a.name b.name e.source e.target := by
    rw [made, reverse] at same
    rcases same with same | same
    · obtain ⟨isFirst, isSecond, -⟩ := edgeId_inj_of_noHyphen atSource atTarget (noHyphen a first) (noHyphen b second) same
      exact isPair_iff.mpr (Or.inl ⟨isFirst, isSecond⟩)
    · obtain ⟨isSecond, isFirst, -⟩ := edgeId_inj_of_noHyphen atSource atTarget (noHyphen b second) (noHyphen a first) same
      exact isPair_iff.mpr (Or.inr ⟨isSecond, isFirst⟩)
  rw [Edge.joins, between] at apart
  cases apart

/-- Whether a field refers to a model, in a relation of this name or in one without a name. -/
def Field.refersTo (f : Field) (model : Text) (relation : Option Text) : Bool :=
  f.type = model && f.relation.isSome && f.relationName = relation

theorem refersTo_iff {f : Field} {model : Text} {relation : Option Text} :
    f.refersTo model relation ↔ f.type = model ∧ f.relation.isSome ∧ f.relationName = relation := by
  simp [Field.refersTo, and_assoc]

/-- Between two models a field is answered by the first one that refers back in a relation of the same name. -/
theorem inverse?_eq_find? {a b : Model} (differ : a.name ≠ b.name) (f : Field) :
    inverse? a f b = b.fields.find? fun g => g.refersTo a.name f.relationName := by
  refine congrArg (List.find? · b.fields) (funext fun g => Bool.eq_iff_iff.mpr ?_)
  rw [answers_iff, refersTo_iff]
  constructor
  · rintro ⟨typed, relational, -, named⟩
    exact ⟨typed, relational, named.symm⟩
  · rintro ⟨typed, relational, named⟩
    exact ⟨typed, relational, fun both => differ both.1, named.symm⟩

/-- A list of a model is paired if the first field that refers back in its relation is a list as well. -/
theorem pairsLists_of_first {a b : Model} (differ : a.name ≠ b.name) {f : Field} (inFirst : f ∈ a.fields)
    {relation : Option Text} (refers : f.refersTo b.name relation) (list : f.isList)
    (firstBack : (b.fields.find? fun g => g.refersTo a.name relation).any (·.isList)) : a.pairsLists b := by
  obtain ⟨typed, relational, rfl⟩ := refersTo_iff.mp refers
  obtain ⟨g, found, listBack⟩ := Option.any_eq_true _ _ |>.mp firstBack
  exact pairsLists_iff.mpr ⟨f, inFirst, typed, relational, list, g, (inverse?_eq_find? differ f).trans found, listBack⟩

/-- Two models that list each other, without foreign keys and names of relations between them. The name of one comes
before that of the other. -/
structure Document.HasUnnamedLists (d : Document) (a b : Model) : Prop where
  first : a ∈ d.models
  second : b ∈ d.models
  order : a.name < b.name
  list : ∃ f ∈ a.fields, f.type = b.name ∧ f.relation.isSome ∧ f.isList
  listBack : ∃ g ∈ b.fields, g.type = a.name ∧ g.relation.isSome ∧ g.isList
  keyless : d.HasNoKeyBetween a.name b.name
  unnamed : ∀ m ∈ d.models, ∀ f ∈ m.fields, isPair a.name b.name m.name f.type → f.relationName = none

/-- The lists of two models without names for their relations are paired if and only if the first field that refers from
the later model to the earlier one is a list. -/
theorem Document.HasUnnamedLists.pairsLists_eq {d : Document} {a b : Model} (lists : d.HasUnnamedLists a b) :
    a.pairsLists b = (b.fields.find? fun g => g.refersTo a.name none).any (·.isList) := by
  have differ : a.name ≠ b.name := fun same => List.lt_irrefl _ (same ▸ lists.order)
  have noName {f : Field} (inFirst : f ∈ a.fields) (typed : f.type = b.name) : f.relationName = none :=
    lists.unnamed a lists.first f inFirst (isPair_iff.mpr (Or.inl ⟨rfl, typed⟩))
  refine Bool.eq_iff_iff.mpr ⟨fun pairs => ?_, fun firstBack => ?_⟩
  · obtain ⟨f, inFirst, typed, -, -, g, found, listBack⟩ := pairsLists_iff.mp pairs
    rw [inverse?_eq_find? differ, noName inFirst typed] at found
    rw [found]
    exact listBack
  · obtain ⟨f, inFirst, typed, relational, list⟩ := lists.list
    exact pairsLists_of_first differ inFirst (refersTo_iff.mpr ⟨typed, relational, noName inFirst typed⟩) list firstBack

/-- Two models that list each other are joined by one edge if the first field that refers from the later one to the
earlier one is a list, and by none if it is not. The edge can be missing only if an edge between other models has its id,
which takes a name with a hyphen. -/
theorem unnamedLists_shown {d : Document} (distinct : (d.models.map Model.name).Nodup) {a b : Model}
    (lists : d.HasUnnamedLists a b) :
    let between := (Diagram.ofDocument d).edges.filter (Edge.joins a.name b.name)
    if (b.fields.find? fun g => g.refersTo a.name none).any (·.isList) then
      (∃ e, between = [e] ∧ e.id = edgeId a.name b.name (txt "M-M") ∧ e.cardinality = .manyToMany) ∨
        between = [] ∧ (Diagram.ofDocument d).TakesListEdge a b ∧ ∃ m ∈ d.models, '-' ∈ m.name
    else between = [] := by
  have order : ¬b.name < a.name := List.lt_asymm lists.order
  dsimp only
  rw [← lists.pairsLists_eq]
  split
  · rename_i pairs
    rcases filter_inferEdges_paired distinct lists.first lists.second order lists.keyless pairs with one | ⟨none, takes⟩
    · exact Or.inl ⟨_, one, rfl, rfl⟩
    · exact Or.inr ⟨none, takes, takes.hyphen lists.first lists.second⟩
  · rename_i unpaired
    exact filter_inferEdges_unpaired distinct lists.first lists.second order lists.keyless (Bool.eq_false_iff.mpr unpaired)

instance (d : Document) (a b : Text) : Decidable (d.HasNoKeyBetween a b) :=
  inferInstanceAs (Decidable (∀ m ∈ d.models, ∀ f ∈ m.fields, isPair a b m.name f.type → f.hasForeignKey = false))

instance (d : Document) (a b : Model) : Decidable (d.HasUnnamedLists a b) :=
  decidable_of_iff (a ∈ d.models ∧ b ∈ d.models ∧ a.name < b.name ∧
      (∃ f ∈ a.fields, f.type = b.name ∧ f.relation.isSome ∧ f.isList) ∧
      (∃ g ∈ b.fields, g.type = a.name ∧ g.relation.isSome ∧ g.isList) ∧ d.HasNoKeyBetween a.name b.name ∧
      ∀ m ∈ d.models, ∀ f ∈ m.fields, isPair a.name b.name m.name f.type → f.relationName = none)
    ⟨fun ⟨first, second, order, list, listBack, keyless, unnamed⟩ =>
      ⟨first, second, order, list, listBack, keyless, unnamed⟩,
     fun lists => ⟨lists.first, lists.second, lists.order, lists.list, lists.listBack, lists.keyless, lists.unnamed⟩⟩

/-- Posts and tags that list each other, and refer to one another besides. -/
def tagsSchema : Text :=
  txt "model Tag \x7b\n  id Int @id\n  posts Post[]\n  pinned Post\n\x7d\n\n" ++
    txt "model Post \x7b\n  id Int @id\n  topic Tag\n  tags Tag[]\n  hidden Tag[]\n\x7d\n"

theorem unnamedLists_shown_tagsSchema :
    ((Document.parse tagsSchema).models.map Model.name).Nodup ∧
      ∃ a ∈ (Document.parse tagsSchema).models, ∃ b ∈ (Document.parse tagsSchema).models,
        (Document.parse tagsSchema).HasUnnamedLists a b ∧
          ∃ e, (Diagram.ofDocument (Document.parse tagsSchema)).edges.filter (Edge.joins a.name b.name) = [e] ∧
            e.id = edgeId a.name b.name (txt "M-M") ∧ e.cardinality = .manyToMany := by
  obtain ⟨distinct, a, first, b, second, lists, firstBack, noHyphen⟩ :
      ((Document.parse tagsSchema).models.map Model.name).Nodup ∧
        ∃ a ∈ (Document.parse tagsSchema).models, ∃ b ∈ (Document.parse tagsSchema).models,
          (Document.parse tagsSchema).HasUnnamedLists a b ∧
            (b.fields.find? fun g => g.refersTo a.name none).any (·.isList) ∧
            ∀ m ∈ (Document.parse tagsSchema).models, '-' ∉ m.name := by
    decide +kernel
  have shown := unnamedLists_shown distinct lists
  dsimp only at shown
  rw [if_pos firstBack] at shown
  rcases shown with one | ⟨-, -, m, isModel, hyphen⟩
  · exact ⟨distinct, a, first, b, second, lists, one⟩
  · exact absurd hyphen (noHyphen m isModel)

/-- Posts and tags that list each other, where a single tag of a post refers to it first. -/
def topicSchema : Text :=
  txt "model Post \x7b\n  id Int @id\n  tags Tag[]\n\x7d\n\n" ++
    txt "model Tag \x7b\n  id Int @id\n  pinned Post\n  posts Post[]\n\x7d\n"

theorem unnamedLists_hidden_topicSchema :
    (Document.parse topicSchema).IsNamed ∧
      ∃ a ∈ (Document.parse topicSchema).models, ∃ b ∈ (Document.parse topicSchema).models,
        (Document.parse topicSchema).HasUnnamedLists a b ∧ (Diagram.ofDocument (Document.parse topicSchema)).edges = [] :=
  ⟨Document.parse_isNamed topicSchema, by decide +kernel⟩

/-- Two models list each other once in a relation of each of some names. -/
def ListEachOther (a b : Model) (names : List Text) : Prop :=
  ∀ name ∈ names, (a.fields.filter fun f => f.refersTo b.name (some name) && f.isList).length = 1 ∧
    (b.fields.filter fun g => g.refersTo a.name (some name) && g.isList).length = 1

instance (a b : Model) (names : List Text) : Decidable (ListEachOther a b names) :=
  inferInstanceAs (Decidable (∀ name ∈ names,
    (a.fields.filter fun f => f.refersTo b.name (some name) && f.isList).length = 1 ∧
      (b.fields.filter fun g => g.refersTo a.name (some name) && g.isList).length = 1))

/-- However many lists two models have of each other, without foreign keys one edge at most joins the two. There is one if
for some name of a relation the earlier model has a list and the later one refers back by a list first, unless an edge
between other models has its id, which takes a name with a hyphen. -/
theorem namedLists_share_edge {d : Document} (distinct : (d.models.map Model.name).Nodup) {a b : Model}
    (first : a ∈ d.models) (second : b ∈ d.models) (order : a.name < b.name) (keyless : d.HasNoKeyBetween a.name b.name)
    {names : List Text} (lists : ListEachOther a b names) :
    let between := (Diagram.ofDocument d).edges.filter (Edge.joins a.name b.name)
    (between = [] ∨ ∃ e, between = [e] ∧ e.id = edgeId a.name b.name (txt "M-M") ∧ e.cardinality = .manyToMany) ∧
      ((∃ name ∈ names, (b.fields.find? fun g => g.refersTo a.name (some name)).any (·.isList)) → between = [] →
        (Diagram.ofDocument d).TakesListEdge a b ∧ ∃ m ∈ d.models, '-' ∈ m.name) := by
  have differ : a.name ≠ b.name := fun same => List.lt_irrefl _ (same ▸ order)
  have notAfter : ¬b.name < a.name := List.lt_asymm order
  dsimp only
  cases pairs : a.pairsLists b with
  | false =>
    refine ⟨Or.inl (filter_inferEdges_unpaired distinct first second notAfter keyless pairs), fun paired _ => ?_⟩
    obtain ⟨name, member, firstBack⟩ := paired
    obtain ⟨f, one⟩ := List.length_eq_one_iff.mp (lists name member).1
    obtain ⟨inFirst, isList⟩ := List.mem_filter.mp (one ▸ List.mem_singleton_self f)
    obtain ⟨refers, list⟩ := Bool.and_eq_true_iff.mp isList
    rw [pairsLists_of_first differ inFirst refers list firstBack] at pairs
    cases pairs
  | true =>
    rcases filter_inferEdges_paired distinct first second notAfter keyless pairs with one | ⟨none, takes⟩
    · refine ⟨Or.inr ⟨_, one, rfl, rfl⟩, fun _ none => ?_⟩
      rw [Diagram.edges_ofDocument, one] at none
      cases none
    · exact ⟨Or.inl none, fun _ _ => ⟨takes, takes.hyphen first second⟩⟩

/-- Users that write and review articles, in relations of two names. -/
def reviewsSchema : Text :=
  txt "model Article \x7b\n  id Int @id\n  authors User[] @relation(\"Written\")\n" ++
    txt "  reviewers User[] @relation(\"Reviewed\")\n\x7d\n\n" ++
    txt "model User \x7b\n  id Int @id\n  written Article[] @relation(\"Written\")\n" ++
    txt "  reviewed Article[] @relation(\"Reviewed\")\n\x7d\n"

/-- The two relations are drawn as one edge. -/
theorem namedLists_share_edge_reviewsSchema :
    ∃ a ∈ (Document.parse reviewsSchema).models, ∃ b ∈ (Document.parse reviewsSchema).models,
      (Document.parse reviewsSchema).HasNoKeyBetween a.name b.name ∧
        ListEachOther a b [txt "Written", txt "Reviewed"] ∧
        ∃ e, (Diagram.ofDocument (Document.parse reviewsSchema)).edges.filter (Edge.joins a.name b.name) = [e] ∧
          e.id = edgeId a.name b.name (txt "M-M") ∧ e.cardinality = .manyToMany := by
  obtain ⟨a, first, b, second, order, keyless, lists, firstBack, noHyphen⟩ :
      ∃ a ∈ (Document.parse reviewsSchema).models, ∃ b ∈ (Document.parse reviewsSchema).models,
        a.name < b.name ∧ (Document.parse reviewsSchema).HasNoKeyBetween a.name b.name ∧
          ListEachOther a b [txt "Written", txt "Reviewed"] ∧
          (∃ name ∈ [txt "Written", txt "Reviewed"],
            (b.fields.find? fun g => g.refersTo a.name (some name)).any (·.isList)) ∧
          ∀ m ∈ (Document.parse reviewsSchema).models, '-' ∉ m.name := by
    decide +kernel
  obtain ⟨few, shown⟩ :=
    namedLists_share_edge (Document.parse_isNamed reviewsSchema).distinctModels first second order keyless lists
  refine ⟨a, first, b, second, keyless, lists, few.resolve_left fun none => ?_⟩
  obtain ⟨-, m, isModel, hyphen⟩ := shown firstBack none
  exact noHyphen m isModel hyphen

theorem namedLists_not_apart_reviewsSchema :
    (Document.parse reviewsSchema).IsNamed ∧ [txt "Written", txt "Reviewed"].Nodup ∧
      ∃ a ∈ (Document.parse reviewsSchema).models, ∃ b ∈ (Document.parse reviewsSchema).models,
        a.name ≠ b.name ∧ (Document.parse reviewsSchema).HasNoKeyBetween a.name b.name ∧
          ListEachOther a b [txt "Written", txt "Reviewed"] ∧
            ((Diagram.ofDocument (Document.parse reviewsSchema)).edges.filter (Edge.joins a.name b.name)).length = 1 :=
  ⟨Document.parse_isNamed reviewsSchema, by decide +kernel⟩

end SchemaDiagram

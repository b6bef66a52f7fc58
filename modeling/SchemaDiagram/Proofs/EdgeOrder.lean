import SchemaDiagram.Proofs.KeyEdges

namespace SchemaDiagram

open Text

/-- No two models refer to each other by foreign keys of one name. -/
def Document.NoTwinKeys (d : Document) : Prop :=
  ∀ m ∈ d.models, ∀ o ∈ d.models, m.name ≠ o.name → ∀ f ∈ m.fields, ∀ g ∈ o.fields,
    f.hasForeignKey → g.hasForeignKey → f.type = o.name → g.type = m.name → f.name ≠ g.name

instance (d : Document) : Decidable d.NoTwinKeys :=
  inferInstanceAs (Decidable (∀ m ∈ d.models, ∀ o ∈ d.models, m.name ≠ o.name → ∀ f ∈ m.fields, ∀ g ∈ o.fields,
    f.hasForeignKey → g.hasForeignKey → f.type = o.name → g.type = m.name → f.name ≠ g.name))

/-- Where no edge is another one seen from its other end, the first edge of each id stays. -/
theorem foldl_addEdge_eq {found edges : List Edge}
    (oneWay : ∀ e ∈ edges ++ found, ∀ e' ∈ edges ++ found, e.id = e'.reverseId → e.id = e'.id) :
    found.foldl addEdge edges = edges ++ (keepFirst Edge.id found).filter fun e => !edges.any (·.id = e.id) := by
  induction found generalizing edges with
  | nil => simp [keepFirst]
  | cons e found ih =>
    have known : (edges.any fun known => known.id = e.id || known.id = e.reverseId) = edges.any (·.id = e.id) := by
      refine Bool.eq_iff_iff.mpr ?_
      simp only [List.any_eq_true, Bool.or_eq_true, decide_eq_true_eq]
      refine exists_congr fun known => and_congr_right fun inEdges => ⟨fun same => ?_, Or.inl⟩
      exact same.elim id (oneWay known (by simp [inEdges]) e (by simp))
    rw [List.foldl_cons, addEdge, known, keepFirst]
    by_cases there : edges.any (·.id = e.id)
    · rw [if_pos there, ih fun a inA b inB => oneWay a (by simp at inA ⊢; tauto) b (by simp at inB ⊢; tauto),
        List.filter_cons_of_neg (by simpa using there), List.filter_filter]
      refine congrArg (edges ++ ·) (List.filter_congr fun a _ => ?_)
      by_cases same : a.id = e.id
      · simp only [same, there]
        simp
      · simp [same]
    · rw [if_neg there, ih fun a inA b inB => oneWay a (by simp at inA ⊢; tauto) b (by simp at inB ⊢; tauto),
        List.filter_cons_of_pos (by simpa using there), List.filter_filter, List.append_assoc]
      refine congrArg (edges ++ e :: ·) (List.filter_congr fun a _ => ?_)
      rw [List.any_append, Bool.not_or]
      simp [eq_comm]

theorem mem_keepFirst_iff {α : Type} {name : α → Text} {all : List α} {a : α} :
    a ∈ keepFirst name all ↔ all.find? (name · = name a) = some a := by
  rw [← find?_keepFirst]
  exact ⟨find?_of_mem (nodup_keepFirst name all), List.mem_of_find?_eq_some⟩

section

variable {d : Document} (named : d.IsNamed) (noTwins : d.NoTwinKeys)

include named noTwins

/-- An edge that another one is, seen from its other end, joins a model to itself. -/
theorem Edge.Origin.oneWay {e e' : Edge} (origin : e.Origin d) (origin' : e'.Origin d) (same : e.id = e'.reverseId) :
    e.id = e'.id := by
  have words := named.models
  cases origin' with
  | @key h o k back holder other inHolder typed keyed single =>
    have reverse : (keyEdge h k o back).reverseId = edgeId o.name h.name k.name := Edge.reverseId_eq rfl
    obtain ⟨g, inOther, name, typedBack, keyedBack⟩ :=
      origin.key_of_id named other holder (named.fields h holder k inHolder) (same.trans reverse)
    by_cases self : h.name = o.name
    · rw [same, reverse, self]
      exact congrArg (edgeId · o.name k.name) self.symm
    · exact absurd name.symm (noTwins h holder o other self k inHolder g inOther keyed keyedBack typed typedBack)
  | @lists a b f g first second inFirst inSecond typed answer keyless list order =>
    have reverse : (listEdge a b).reverseId = edgeId b.name a.name Cardinality.manyToMany.label := Edge.reverseId_eq rfl
    rw [reverse] at same
    cases origin with
    | @key h o k back holder other inHolder typed keyed single =>
      obtain ⟨-, -, mark⟩ := edgeId_inj (words h holder) (words o other) (words b second) (words a first) same
      exact absurd mark (named.fields h holder k inHolder).ne_manyToMany
    | @lists a' b' f' g' first' second' inFirst' inSecond' typed' answer' keyless' list' order' =>
      obtain ⟨source, target, -⟩ := edgeId_inj (words a' first') (words b' second') (words b second) (words a first) same
      rw [source, target] at order'
      have self : a.name = b.name := List.le_antisymm order order'
      rw [same]
      exact congrArg₂ (edgeId · · Cardinality.manyToMany.label) self.symm self

theorem inferEdges_eq_keepFirst : inferEdges d = keepFirst Edge.id (d.models.flatMap (Model.edges d)) := by
  have origin (e : Edge) (found : e ∈ [] ++ d.models.flatMap (Model.edges d)) : e.Origin d := by
    obtain ⟨m, isModel, inModel⟩ := List.mem_flatMap.mp found
    exact Model.edges_origin isModel inModel
  rw [inferEdges_eq, foldl_addEdge_eq fun e found e' found' => (origin e found).oneWay named noTwins (origin e' found')]
  simp

end

/-- The first edge of an id that the fields of a model give rise to. -/
def Model.edge? (d : Document) (id : Text) (m : Model) : Option Edge := (m.edges d).find? (·.id = id)

theorem Model.edge?_eq_some {d : Document} {id : Text} {m : Model} {e : Edge} (found : m.edge? d id = some e) :
    e.id = id ∧ ∃ f, m.fields.find? (fun f => (fieldEdge? d m f).any (·.id = id)) = some f ∧ f ∈ m.fields ∧
      GivesEdge d m f e := by
  have sameId : e.id = id := by simpa using List.find?_some found
  rw [Model.edge?, Model.edges, List.find?_filterMap] at found
  obtain ⟨f, first, made⟩ := Option.bind_eq_some_iff.mp found
  exact ⟨sameId, f, first, List.mem_of_find?_eq_some first, fieldEdge?_eq_some_iff.mp made⟩

/-- Two searches that each find what the other one accepts find the same. -/
theorem find?_eq_of_each {α : Type} {p q : α → Bool} {all : List α} {a b : α} (first : all.find? p = some a)
    (second : all.find? q = some b) (holds : q a) (holdsBack : p b) : a = b := by
  induction all with
  | nil => cases first
  | cons c all ih =>
    rw [List.find?_cons] at first second
    cases atP : p c with
    | true =>
      rw [atP] at first
      obtain rfl := Option.some.inj first
      rw [holds] at second
      exact Option.some.inj second
    | false =>
      rw [atP] at first
      cases atQ : q c with
      | true =>
        rw [atQ] at second
        rw [← Option.some.inj second, atP] at holdsBack
        cases holdsBack
      | false =>
        rw [atQ] at second
        exact ih first second

section

variable {d : Document} (named : d.IsNamed)

include named

/-- From the model that holds a key and from the model that it refers to one sees the same edge. -/
theorem inverse?_eq_of_answer {h o : Model} (holder : h ∈ d.models) (differ : h.name ≠ o.name) {k f : Field}
    (keyed : k.hasForeignKey) (single : ∀ b ∈ inverse? h k o, b.hasForeignKey = false) (typedBack : f.type = h.name)
    (relational : f.relation.isSome) (back : inverse? o f h = some k)
    (first : o.fields.find? (fun g => (fieldEdge? d o g).any (·.id = edgeId h.name o.name k.name)) = some f) :
    inverse? h k o = some f := by
  have inOther : f ∈ o.fields := List.mem_of_find?_eq_some first
  have answer := answers_symm typedBack relational (inverse?_eq_some back).2
  cases found : inverse? h k o with
  | none => exact absurd answer (by simpa using List.find?_eq_none.mp found f inOther)
  | some b =>
    obtain ⟨inside, answerFirst⟩ := inverse?_eq_some found
    obtain ⟨typedFirst, relationalFirst, -, namedFirst⟩ := answers_iff.mp answerFirst
    have sameClass : answers o b h = answers o f h := by
      funext g
      have agree : b.relationName = f.relationName := namedFirst.symm.trans (answers_iff.mp answer).2.2.2
      simp [answers, agree, Ne.symm differ]
    have backFirst : inverse? o b h = some k := by rw [inverse?, sameClass]; exact back
    have gives : GivesEdge d o b (keyEdge h k o (some b)) :=
      .answer (typedFirst ▸ named.model?_of_mem holder) relationalFirst (single b found) backFirst keyed
    refine congrArg some (find?_eq_of_each found first ?_ answer)
    rw [fieldEdge?_eq_some_iff.mpr gives]
    simp [keyEdge]

/-- The key `k` of `h` gives an edge at both of its ends: at `h` by itself and at `o` by the field `f` that it answers. -/
structure SeenFromBoth (d : Document) (h : Model) (k : Field) (o : Model) (f : Field) (atHolder atOther : Edge) :
    Prop where
  keyed : k.hasForeignKey
  single : ∀ b ∈ inverse? h k o, b.hasForeignKey = false
  typedBack : f.type = h.name
  relational : f.relation.isSome
  back : inverse? o f h = some k
  holderEdge : atHolder = keyEdge h k o (inverse? h k o)
  otherEdge : atOther = keyEdge h k o (some f)

/-- Two models that give edges under one id are the two ends of one key. -/
theorem GivesEdge.seenFromBoth {m m' : Model} (isModel : m ∈ d.models) (isModel' : m' ∈ d.models)
    (differ : m.name ≠ m'.name) {f f' : Field} (inModel : f ∈ m.fields) (inModel' : f' ∈ m'.fields) {e e' : Edge}
    (gives : GivesEdge d m f e) (gives' : GivesEdge d m' f' e') (same : e.id = e'.id) :
    SeenFromBoth d m f m' f' e e' ∨ SeenFromBoth d m' f' m f e' e := by
  have words := named.models
  have target {o : Model} {name : Text} (found : d.model? name = some o) : IsWord o.name :=
    words o (Document.model?_eq_some found).1
  have mark {o : Model} {name : Text} (found : d.model? name = some o) {k : Field} (inOther : k ∈ o.fields) :
      k.name ≠ Cardinality.manyToMany.label :=
    (named.fields o (Document.model?_eq_some found).1 k inOther).ne_manyToMany
  have here := words m isModel
  have there := words m' isModel'
  cases gives with
  | @key o atTarget keyed single =>
    cases gives' with
    | key atTarget' => exact absurd (edgeId_inj here (target atTarget) there (target atTarget') same).1 differ
    | @answer o' k atTarget' relational keyless back keyed' =>
      obtain ⟨isTarget, name⟩ := Document.model?_eq_some atTarget
      obtain ⟨isTarget', name'⟩ := Document.model?_eq_some atTarget'
      obtain ⟨source, other, mark⟩ := edgeId_inj here (target atTarget) (target atTarget') there same
      obtain rfl := named.eq_model isModel isTarget' source
      obtain rfl := named.eq_model isTarget isModel' other
      obtain rfl := named.eq_field isModel inModel (inverse?_eq_some back).1 mark
      exact Or.inl ⟨keyed, single, name'.symm, relational, back, rfl, rfl⟩
    | lists atTarget' =>
      obtain ⟨-, -, same⟩ := edgeId_inj here (target atTarget) there (target atTarget') same
      exact absurd same (named.fields m isModel f inModel).ne_manyToMany
  | @answer o k atTarget relational keyless back keyed =>
    cases gives' with
    | @key o' atTarget' keyed' single' =>
      obtain ⟨isTarget, name⟩ := Document.model?_eq_some atTarget
      obtain ⟨isTarget', name'⟩ := Document.model?_eq_some atTarget'
      obtain ⟨source, other, mark⟩ := edgeId_inj (target atTarget) here there (target atTarget') same
      obtain rfl := named.eq_model isTarget isModel' source
      obtain rfl := named.eq_model isTarget' isModel other.symm
      obtain rfl := named.eq_field isTarget (inverse?_eq_some back).1 inModel' mark
      exact Or.inr ⟨keyed', single', name.symm, relational, back, rfl, rfl⟩
    | answer atTarget' => exact absurd (edgeId_inj (target atTarget) here (target atTarget') there same).2.1 differ
    | lists atTarget' =>
      obtain ⟨-, -, same⟩ := edgeId_inj (target atTarget) here there (target atTarget') same
      exact absurd same (mark atTarget (inverse?_eq_some back).1)
  | @lists o b atTarget =>
    cases gives' with
    | key atTarget' =>
      obtain ⟨-, -, same⟩ := edgeId_inj here (target atTarget) there (target atTarget') same
      exact absurd same.symm (named.fields m' isModel' f' inModel').ne_manyToMany
    | answer atTarget' relational' keyless' back' =>
      obtain ⟨-, -, same⟩ := edgeId_inj here (target atTarget) (target atTarget') there same
      exact absurd same.symm (mark atTarget' (inverse?_eq_some back').1)
    | lists atTarget' => exact absurd (edgeId_inj here (target atTarget) there (target atTarget') same).1 differ

/-- Whichever of two models is seen first, it gives the same edge under an id. -/
theorem Model.edge?_agree {m m' : Model} (isModel : m ∈ d.models) (isModel' : m' ∈ d.models) {id : Text} {e e' : Edge}
    (found : m.edge? d id = some e) (found' : m'.edge? d id = some e') : e = e' := by
  by_cases differ : m.name = m'.name
  · obtain rfl := named.eq_model isModel isModel' differ
    exact Option.some.inj (found.symm.trans found')
  obtain ⟨made, f, first, inModel, gives⟩ := Model.edge?_eq_some found
  obtain ⟨made', f', first', inModel', gives'⟩ := Model.edge?_eq_some found'
  rcases gives.seenFromBoth named isModel isModel' differ inModel inModel' gives' (made.trans made'.symm) with
    ⟨keyed, single, typedBack, relational, back, rfl, rfl⟩ | ⟨keyed, single, typedBack, relational, back, rfl, rfl⟩
  · rw [← made] at first'
    rw [inverse?_eq_of_answer named isModel differ keyed single typedBack relational back first']
  · rw [← made'] at first
    rw [inverse?_eq_of_answer named isModel' (Ne.symm differ) keyed single typedBack relational back first]

/-- A diagram has the edges that any of the models puts first under their id. -/
theorem mem_inferEdges_iff (noTwins : d.NoTwinKeys) {e : Edge} :
    e ∈ inferEdges d ↔ ∃ m ∈ d.models, m.edge? d e.id = some e := by
  rw [inferEdges_eq_keepFirst named noTwins, mem_keepFirst_iff, List.find?_flatMap]
  constructor
  · exact fun found => List.exists_of_findSome?_eq_some found
  · rintro ⟨m, isModel, found⟩
    cases first : d.models.findSome? fun m => (m.edges d).find? (·.id = e.id) with
    | none =>
      rw [Model.edge?, List.findSome?_eq_none_iff.mp first m isModel] at found
      cases found
    | some e' =>
      obtain ⟨m', isModel', found'⟩ := List.exists_of_findSome?_eq_some first
      exact congrArg some (Model.edge?_agree named isModel' isModel found' found)

end

theorem find?_perm {α : Type} {name : α → Text} {all all' : List α} (perm : all'.Perm all)
    (distinct : (all.map name).Nodup) (key : Text) : all'.find? (name · = key) = all.find? (name · = key) := by
  have distinct' : (all'.map name).Nodup := (perm.map name).nodup_iff.mpr distinct
  have found {l l' : List α} (same : l.Perm l') (nodup : (l'.map name).Nodup) {a : α}
      (first : l.find? (name · = key) = some a) : l'.find? (name · = key) = some a := by
    obtain rfl : name a = key := by simpa using List.find?_some first
    exact find?_of_mem nodup (same.mem_iff.mp (List.mem_of_find?_eq_some first))
  exact Option.ext fun a => ⟨found perm distinct, found perm.symm distinct'⟩

/-- The edges of a diagram do not depend on the order of the models, if no two models refer to each other by foreign
keys of one name. -/
theorem edges_perm {d : Document} (named : d.IsNamed) (noTwins : d.NoTwinKeys) {models : List Model}
    (perm : models.Perm d.models) :
    (Diagram.ofDocument { d with models }).edges.Perm (Diagram.ofDocument d).edges := by
  have member {m : Model} : m ∈ models ↔ m ∈ d.models := perm.mem_iff
  have named' : ({ d with models } : Document).IsNamed :=
    ⟨(perm.map Model.name).nodup_iff.mpr named.distinctModels, fun m isModel => named.distinctFields m (member.mp isModel),
      fun m isModel => named.models m (member.mp isModel), fun m isModel => named.fields m (member.mp isModel)⟩
  have noTwins' : ({ d with models } : Document).NoTwinKeys :=
    fun m isModel o isOther => noTwins m (member.mp isModel) o (member.mp isOther)
  have looked (name : Text) : ({ d with models } : Document).model? name = d.model? name :=
    find?_perm perm named.distinctModels name
  have edges (m : Model) : m.edges { d with models } = m.edges d := by
    unfold Model.edges fieldEdge?
    simp only [looked]
  have distinct (d : Document) : (inferEdges d).Nodup := (nodup_inferEdges d).of_map
  refine (List.perm_ext_iff_of_nodup (distinct _) (distinct d)).mpr fun e => ?_
  rw [mem_inferEdges_iff named' noTwins', mem_inferEdges_iff named noTwins]
  exact exists_congr fun m => and_congr member (by rw [Model.edge?, Model.edge?, edges])

/-- A schema whose relations are seen from several sides: two fields of a user answer the author of a post, the post and
its tags list each other, and comments refer to comments. -/
def forumSchema : Text :=
  txt "model User \x7b\n  id Int @id\n  posts Post[]\n  latest Post\n\x7d\n\n" ++
    txt "model Post \x7b\n  id Int @id\n  authorId Int\n" ++
    txt "  author User @relation(fields: [authorId], references: [id])\n  tags Tag[]\n\x7d\n\n" ++
    txt "model Tag \x7b\n  id Int @id\n  posts Post[]\n\x7d\n\n" ++
    txt "model Comment \x7b\n  id Int @id\n  aboveId Int\n" ++
    txt "  above Comment @relation(fields: [aboveId], references: [id])\n  below Comment[]\n\x7d\n"

theorem edges_perm_forumSchema :
    (Document.parse forumSchema).models.reverse ≠ (Document.parse forumSchema).models ∧
      (Diagram.ofDocument { Document.parse forumSchema with
        models := (Document.parse forumSchema).models.reverse }).edges.Perm
        (Diagram.ofDocument (Document.parse forumSchema)).edges ∧
      (Diagram.ofDocument (Document.parse forumSchema)).edges.length = 3 :=
  ⟨by decide +kernel, edges_perm (Document.parse_isNamed forumSchema) (by decide +kernel) (List.reverse_perm _),
    by decide +kernel⟩

end SchemaDiagram

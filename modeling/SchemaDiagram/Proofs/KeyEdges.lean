import Mathlib.Data.List.Nodup
import Mathlib.Data.List.Pairwise
import SchemaDiagram.Proofs.EdgeOrigins
import SchemaDiagram.Proofs.ParsedForm

namespace SchemaDiagram

open Text

/-- The models of a document, and the fields of each of them, have distinct words for names. -/
structure Document.IsNamed (d : Document) : Prop where
  distinctModels : (d.models.map Model.name).Nodup
  distinctFields : ∀ m ∈ d.models, (m.fields.map Field.name).Nodup
  models : ∀ m ∈ d.models, IsWord m.name
  fields : ∀ m ∈ d.models, ∀ f ∈ m.fields, IsWord f.name

theorem Document.parse_isNamed (t : Text) : (Document.parse t).IsNamed :=
  have read := Document.parse_isRead t
  ⟨read.distinctModels, fun m member => (read.models m member).distinct, fun m member => (read.models m member).name,
    fun m member f inModel => ((read.models m member).fields f inModel).formed.named⟩

section

variable {d : Document} (named : d.IsNamed)

include named

theorem Document.IsNamed.eq_model {m m' : Model} (isModel : m ∈ d.models) (isModel' : m' ∈ d.models)
    (same : m.name = m'.name) : m = m' := List.inj_on_of_nodup_map named.distinctModels isModel isModel' same

theorem Document.IsNamed.eq_field {m : Model} (isModel : m ∈ d.models) {f f' : Field} (inModel : f ∈ m.fields)
    (inModel' : f' ∈ m.fields) (same : f.name = f'.name) : f = f' :=
  List.inj_on_of_nodup_map (named.distinctFields m isModel) inModel inModel' same

theorem Document.IsNamed.model?_of_mem {m : Model} (isModel : m ∈ d.models) : d.model? m.name = some m :=
  find?_of_mem named.distinctModels isModel

/-- The ends of an edge and its mark can be read off its id. -/
theorem Edge.Origin.ends_of_id {e : Edge} (origin : e.Origin d) {source target mark : Text} (word : IsWord source)
    (wordTarget : IsWord target) (made : e.id = edgeId source target mark) :
    e.source = source ∧ e.target = target ∧ e.reverseId = edgeId target source mark := by
  have found {a b : Model} (first : a ∈ d.models) (second : b ∈ d.models) {mark' : Text} (source' : e.source = a.name)
      (target' : e.target = b.name) (own : e.id = edgeId a.name b.name mark') :
      e.source = source ∧ e.target = target ∧ e.reverseId = edgeId target source mark := by
    obtain ⟨rfl, rfl, rfl⟩ := edgeId_inj (named.models a first) (named.models b second) word wordTarget (own.symm.trans made)
    have whole : e.id = edgeId e.source e.target mark' := by rw [source', target', own]
    exact ⟨source', target', by rw [Edge.reverseId_eq whole, source', target']⟩
  cases origin with
  | key holder other => exact found holder other rfl rfl rfl
  | lists first second => exact found first second rfl rfl rfl

/-- An edge that is marked with a word shows a foreign key of that name. -/
theorem Edge.Origin.key_of_id {e : Edge} (origin : e.Origin d) {m o : Model} (isModel : m ∈ d.models)
    (isOther : o ∈ d.models) {mark : Text} (word : IsWord mark) (made : e.id = edgeId m.name o.name mark) :
    ∃ k ∈ m.fields, k.name = mark ∧ k.type = o.name ∧ k.hasForeignKey := by
  have words := named.models
  cases origin with
  | @key h o' k back holder other inHolder typed keyed single =>
    obtain ⟨source, target, same⟩ := edgeId_inj (words h holder) (words o' other) (words m isModel) (words o isOther) made
    obtain rfl := named.eq_model holder isModel source
    exact ⟨k, inHolder, same, typed.trans target, keyed⟩
  | @lists a b f g first second inFirst inSecond typed answer keyless list order =>
    obtain ⟨-, -, same⟩ := edgeId_inj (words a first) (words b second) (words m isModel) (words o isOther) made
    exact absurd same.symm word.ne_manyToMany

end

/-- Whether a diagram has an edge of this mark from one model to another. -/
def Diagram.HasEdge (g : Diagram) (source target mark : Text) : Prop :=
  ∃ e ∈ g.edges, e.id = edgeId source target mark ∧ e.source = source ∧ e.target = target

/-- Of an edge and the same one seen from its other end a diagram has one at most. -/
theorem Document.IsNamed.not_hasEdge_reverse {d : Document} (named : d.IsNamed) {m o : Model} (isModel : m ∈ d.models)
    (isOther : o ∈ d.models) (differ : m.name ≠ o.name) {mark : Text}
    (there : (Diagram.ofDocument d).HasEdge m.name o.name mark) :
    ¬(Diagram.ofDocument d).HasEdge o.name m.name mark := by
  rintro ⟨e', inDiagram', made', source', -⟩
  obtain ⟨e, inDiagram, made, source, -⟩ := there
  have word := named.models m isModel
  have wordOther := named.models o isOther
  obtain ⟨-, -, reverse⟩ := (origin_of_mem_inferEdges inDiagram).ends_of_id named word wordOther made
  obtain ⟨-, -, reverse'⟩ := (origin_of_mem_inferEdges inDiagram').ends_of_id named wordOther word made'
  have apart : e ≠ e' := fun same => differ (source.symm.trans (same ▸ source'))
  have either : (inferEdges d).Pairwise fun e e' => e.id ≠ e'.reverseId ∨ e'.id ≠ e.reverseId :=
    (pairwise_inferEdges d).imp fun follows => Or.inl follows.2
  have symmetric : Std.Symm fun e e' : Edge => e.id ≠ e'.reverseId ∨ e'.id ≠ e.reverseId := ⟨fun _ _ => Or.symm⟩
  rcases either.forall inDiagram inDiagram' apart with clash | clash
  · exact clash (made.trans reverse'.symm)
  · exact clash (made'.trans reverse.symm)

/-- A foreign key that no other one answers has its edge, unless the model that it refers to has a foreign key of the
same name back whose edge is there already. -/
theorem keyEdge_shown_iff {d : Document} (named : d.IsNamed) {h o : Model} (holder : h ∈ d.models) (other : o ∈ d.models)
    {k : Field} (inHolder : k ∈ h.fields) (keyed : k.hasForeignKey) (typed : k.type = o.name)
    (single : ∀ b ∈ inverse? h k o, b.hasForeignKey = false) :
    ((Diagram.ofDocument d).HasEdge h.name o.name k.name ↔
        ¬(h.name ≠ o.name ∧ (Diagram.ofDocument d).HasEdge o.name h.name k.name)) ∧
      ((Diagram.ofDocument d).HasEdge o.name h.name k.name →
        ∃ g ∈ o.fields, g.name = k.name ∧ g.type = h.name ∧ g.hasForeignKey) := by
  have word := named.models h holder
  have wordOther := named.models o other
  refine ⟨⟨fun there both => named.not_hasEdge_reverse holder other both.1 there both.2, fun free => ?_⟩, ?_⟩
  · have gives : GivesEdge d h k (keyEdge h k o (inverse? h k o)) :=
      .key (typed ▸ named.model?_of_mem other) keyed single
    have reverse : (keyEdge h k o (inverse? h k o)).reverseId = edgeId o.name h.name k.name := Edge.reverseId_eq rfl
    obtain ⟨e, inDiagram, same | same⟩ := inferEdges_covers holder (mem_edges_iff.mpr ⟨k, inHolder, gives⟩)
    · obtain ⟨source, target, -⟩ := (origin_of_mem_inferEdges inDiagram).ends_of_id named word wordOther same
      exact ⟨e, inDiagram, same, source, target⟩
    · rw [reverse] at same
      obtain ⟨source, target, -⟩ := (origin_of_mem_inferEdges inDiagram).ends_of_id named wordOther word same
      by_cases self : h.name = o.name
      · exact ⟨e, inDiagram, by rw [same, self], by rw [source, self], by rw [target, self]⟩
      · exact absurd ⟨self, e, inDiagram, same, source, target⟩ free
  · rintro ⟨e, inDiagram, made, -⟩
    exact (origin_of_mem_inferEdges inDiagram).key_of_id named other holder (named.fields h holder k inHolder) made

instance (g : Diagram) (source target mark : Text) : Decidable (g.HasEdge source target mark) :=
  inferInstanceAs (Decidable (∃ e ∈ g.edges, e.id = edgeId source target mark ∧ e.source = source ∧ e.target = target))

/-- Two models that refer to each other by two relations, through fields of one name. -/
def linkedSchema : Text :=
  txt "model A \x7b\n  id Int @id\n  bId Int\n" ++
    txt "  link B @relation(\"Owns\", fields: [bId], references: [id])\n\x7d\n\n" ++
    txt "model B \x7b\n  id Int @id\n  aId Int\n" ++
    txt "  link A @relation(\"Uses\", fields: [aId], references: [id])\n\x7d\n"

theorem keyEdge_shown_linkedSchema :
    ∃ h ∈ (Document.parse linkedSchema).models, ∃ o ∈ (Document.parse linkedSchema).models, ∃ k ∈ h.fields,
      k.hasForeignKey ∧ k.type = o.name ∧ (inverse? h k o).isNone ∧
        (Diagram.ofDocument (Document.parse linkedSchema)).HasEdge h.name o.name k.name := by
  obtain ⟨h, holder, o, other, k, inHolder, keyed, typed, none, single, free⟩ :
      ∃ h ∈ (Document.parse linkedSchema).models, ∃ o ∈ (Document.parse linkedSchema).models, ∃ k ∈ h.fields,
        k.hasForeignKey ∧ k.type = o.name ∧ (inverse? h k o).isNone ∧
          (∀ b ∈ inverse? h k o, b.hasForeignKey = false) ∧
            ¬(h.name ≠ o.name ∧
              (Diagram.ofDocument (Document.parse linkedSchema)).HasEdge o.name h.name k.name) := by
    decide +kernel
  have shown := keyEdge_shown_iff (Document.parse_isNamed linkedSchema) holder other inHolder keyed typed single
  exact ⟨h, holder, o, other, k, inHolder, keyed, typed, none, shown.1.mpr free⟩

/-- The key that comes second is lost, although no field answers it. -/
theorem keyEdge_lost_linkedSchema :
    (Document.parse linkedSchema).IsNamed ∧
      ∃ h ∈ (Document.parse linkedSchema).models, ∃ o ∈ (Document.parse linkedSchema).models, ∃ k ∈ h.fields,
        k.hasForeignKey ∧ k.type = o.name ∧ inverse? h k o = none ∧
          ¬(Diagram.ofDocument (Document.parse linkedSchema)).HasEdge h.name o.name k.name :=
  ⟨Document.parse_isNamed linkedSchema, by decide +kernel⟩

end SchemaDiagram

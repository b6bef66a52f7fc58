import SchemaDiagram.Proofs.ByteOrder
import SchemaDiagram.Proofs.EdgeOrigins

namespace SchemaDiagram

open Text

/-- An edge that shows a foreign key of its source. If its target is marked as a list, then a list there has the type of
the source and the same relation name. -/
def Edge.ShowsKey (d : Document) (e : Edge) : Prop :=
  ∃ h ∈ d.models, ∃ o ∈ d.models, h.name = e.source ∧ o.name = e.target ∧ ∃ k ∈ h.fields,
    k.type = e.target ∧ k.hasForeignKey ∧ e.id = edgeId e.source e.target k.name ∧ e.sourceIsList = k.isList ∧
      (e.targetIsList → ∃ b ∈ o.fields, b.isList ∧ b.type = e.source ∧ b.relationName = k.relationName)

/-- An edge that shows two lists that answer each other. -/
def Edge.ShowsLists (d : Document) (e : Edge) : Prop :=
  e.id = edgeId e.source e.target Cardinality.manyToMany.label ∧ bytes e.source ≤ bytes e.target ∧
    ∃ a ∈ d.models, ∃ b ∈ d.models, a.name = e.source ∧ b.name = e.target ∧ ∃ f ∈ a.fields, ∃ g ∈ b.fields,
      (f.isList ∧ f.type = e.target ∧ f.hasForeignKey = false) ∧
        (g.isList ∧ g.type = e.source ∧ g.hasForeignKey = false) ∧
        f.relationName = g.relationName ∧ (e.source = e.target → f.name ≠ g.name)

theorem Edge.Origin.kind {d : Document} {e : Edge} (origin : e.Origin d) : e.ShowsKey d ∨ e.ShowsLists d := by
  cases origin with
  | @key h o k back holder other inHolder typed keyed single =>
    refine Or.inl ⟨h, holder, o, other, rfl, rfl, k, inHolder, typed, keyed, rfl, rfl, fun isList => ?_⟩
    obtain ⟨b, same, list⟩ := Option.any_eq_true _ _ |>.mp isList
    obtain ⟨inOther, answer⟩ := single b same
    obtain ⟨backTyped, -, -, named⟩ := answers_iff.mp answer
    exact ⟨b, inOther, list, backTyped, named.symm⟩
  | @lists a b f g first second inFirst inSecond typed answer keyless list order =>
    obtain ⟨backTyped, -, apart, named⟩ := answers_iff.mp answer
    exact Or.inr ⟨rfl, bytes_le_bytes_iff.mpr order, a, first, b, second, rfl, rfl, f, inFirst, g, inSecond,
      ⟨list.1, typed, keyless.1⟩, ⟨list.2, backTyped, keyless.2⟩, named, fun self same => apart ⟨self, same.symm⟩⟩

theorem Edge.Origin.ends {d : Document} {e : Edge} (origin : e.Origin d) :
    (∃ m ∈ d.models, m.name = e.source) ∧ ∃ m ∈ d.models, m.name = e.target := by
  cases origin with
  | key holder other => exact ⟨⟨_, holder, rfl⟩, ⟨_, other, rfl⟩⟩
  | lists first second => exact ⟨⟨_, first, rfl⟩, ⟨_, second, rfl⟩⟩

theorem Edge.Origin.cardinality {d : Document} {e : Edge} (origin : e.Origin d) :
    e.cardinality = .ofLists e.sourceIsList e.targetIsList := by
  cases origin <;> rfl

/-- No edge of a diagram is made up: it joins two of the nodes under an id of its own, and it shows a foreign key or
two lists of the document. -/
theorem diagram_shows_document (d : Document) :
    ((Diagram.ofDocument d).edges.map Edge.id).Nodup ∧ ∀ e ∈ (Diagram.ofDocument d).edges,
      (e.source ∈ (Diagram.ofDocument d).nodes.map Node.id ∧ e.target ∈ (Diagram.ofDocument d).nodes.map Node.id) ∧
        e.cardinality = .ofLists e.sourceIsList e.targetIsList ∧ (e.ShowsKey d ∨ e.ShowsLists d) := by
  refine ⟨nodup_inferEdges d, fun e member => ?_⟩
  have origin := origin_of_mem_inferEdges member
  have node {m : Model} (isModel : m ∈ d.models) : m.name ∈ (Diagram.ofDocument d).nodes.map Node.id :=
    List.mem_map.mpr ⟨Node.ofModel m, List.mem_map_of_mem isModel, rfl⟩
  obtain ⟨⟨m, isSource, source⟩, ⟨o, isTarget, target⟩⟩ := origin.ends
  exact ⟨⟨source ▸ node isSource, target ▸ node isTarget⟩, origin.cardinality, origin.kind⟩

end SchemaDiagram

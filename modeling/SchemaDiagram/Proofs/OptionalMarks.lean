import Mathlib.Data.List.Basic
import SchemaDiagram.Proofs.EdgeOrigins

namespace SchemaDiagram

open Text

/-- The edge that a relational field gives rise to, if it refers to `o` and `back` is the field that answers it. -/
def endEdge? (m : Model) (f : Field) (o : Model) (back : Option Field) : Option Edge :=
  match f.hasForeignKey, back with
  | true, none => some (keyEdge m f o none)
  | true, some b => if b.hasForeignKey then none else some (keyEdge m f o (some b))
  | false, none => none
  | false, some b =>
    if b.hasForeignKey then some (keyEdge o b m (some f))
    else if f.isList && b.isList && !(o.name < m.name) then some (listEdge m o)
    else none

theorem fieldEdge?_eq (d : Document) (m : Model) (f : Field) :
    fieldEdge? d m f = f.relation.bind fun _ => (d.model? f.type).bind fun o => endEdge? m f o (inverse? m f o) := rfl

/-- A field without regard to whether it is optional. -/
def Field.asOptional (f : Field) : Field := { f with isOptional := true }

def Model.asOptional (m : Model) : Model := { m with fields := m.fields.map Field.asOptional }

def Document.asOptional (d : Document) : Document := { d with models := d.models.map Model.asOptional }

theorem Document.model?_asOptional (d : Document) (name : Text) :
    d.asOptional.model? name = (d.model? name).map Model.asOptional := List.find?_map ..

theorem inverse?_asOptional (source target : Model) (f : Field) :
    inverse? source.asOptional f.asOptional target.asOptional = (inverse? source f target).map Field.asOptional :=
  List.find?_map ..

theorem Model.identityName_asOptional (m : Model) : m.asOptional.identityName = m.identityName := by
  have marked : m.asOptional.fields.find? Field.isId = (m.fields.find? Field.isId).map Field.asOptional := List.find?_map ..
  have named : m.asOptional.field? (txt "id") = (m.field? (txt "id")).map Field.asOptional := List.find?_map ..
  rw [identityName, identityName, identity?, identity?, marked, named, ← Option.map_or, Option.map_map]
  rfl

theorem listEdge_asOptional (a b : Model) : listEdge a.asOptional b.asOptional = listEdge a b := by
  rw [listEdge, listEdge, a.identityName_asOptional, b.identityName_asOptional]
  rfl

theorem endEdge?_asOptional (m o : Model) (f : Field) (back : Option Field) :
    endEdge? m.asOptional f.asOptional o.asOptional (back.map Field.asOptional) = endEdge? m f o back := by
  cases keyed : f.hasForeignKey with
  | true =>
    have keyed' : f.asOptional.hasForeignKey = true := keyed
    cases back with
    | none => simp only [endEdge?, keyed, keyed', Option.map]; rfl
    | some b => simp only [endEdge?, keyed, keyed', Option.map]; rfl
  | false =>
    have keyed' : f.asOptional.hasForeignKey = false := keyed
    cases back with
    | none => simp only [endEdge?, keyed, keyed', Option.map]
    | some b =>
      simp only [endEdge?, keyed, keyed', Option.map, ← listEdge_asOptional m o]
      rfl

/-- The edge of a field does not show which fields are optional. -/
theorem fieldEdge?_asOptional (d : Document) (m : Model) (f : Field) :
    fieldEdge? d.asOptional m.asOptional f.asOptional = fieldEdge? d m f := by
  have target : d.asOptional.model? f.asOptional.type = (d.model? f.type).map Model.asOptional := d.model?_asOptional f.type
  rw [fieldEdge?_eq, fieldEdge?_eq, target]
  refine Option.bind_congr fun relation _ => ?_
  rw [Option.bind_map]
  refine Option.bind_congr fun o _ => ?_
  rw [Function.comp, inverse?_asOptional, endEdge?_asOptional]

theorem Model.edges_asOptional (d : Document) (m : Model) : m.asOptional.edges d.asOptional = m.edges d := by
  rw [Model.edges, Model.edges, Model.asOptional, List.filterMap_map]
  exact List.filterMap_congr fun f _ => fieldEdge?_asOptional d m f

end SchemaDiagram

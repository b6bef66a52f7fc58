import SchemaDiagram.Edit.Relate
import SchemaDiagram.Diagram.Json
import SchemaDiagram.Json.Read

namespace SchemaDiagram

open Json

def Connection.ofJson? (j : Json) : Option Connection := do
  let p ← parts? ["sourceEntity", "sourceField", "targetEntity", "targetField"] j
  return {
    sourceModel := ← p.required 0 asText?
    sourceField := ← p.required 1 asText?
    targetModel := ← p.required 2 asText?
    targetField := ← p.required 3 asText? }

def RelationMode.ofJson? : Json → Option RelationMode :=
  asConstant? (RelationMode.all.map fun mode => (mode.label, mode))

def JunctionOrder.ofJson? : Json → Option JunctionOrder :=
  asConstant? (JunctionOrder.all.map fun order => (order.label, order))

/-- Which sides may be null: the source and the target. -/
def nullableSides? (j : Json) : Option (Bool × Bool) := do
  let p ← parts? ["source", "target"] j
  return (← p.withDefault 0 false asBool?, ← p.withDefault 1 false asBool?)

def RelationRequest.ofJson? (j : Json) : Option RelationRequest := do
  let p ← parts? ["cardinality", "mode", "junctionNameOrder", "nullableSides"] j
  let sides ← p.withDefault 3 (false, false) nullableSides?
  return {
    cardinality := ← p.required 0 Cardinality.ofJson?
    mode := ← p.withDefault 1 .implicit RelationMode.ofJson?
    order := ← p.withDefault 2 .sourceFirst JunctionOrder.ofJson?
    nullableSource := sides.1
    nullableTarget := sides.2 }

def RelationRequest.toJson (r : RelationRequest) : Json :=
  record
    [("cardinality", text r.cardinality.label), ("mode", text r.mode.label),
     ("junctionNameOrder", text r.order.label),
     ("nullableSides",
      record [("source", Json.bool r.nullableSource), ("target", Json.bool r.nullableTarget)])]

/-- Writes a relation into a schema text, with the connection and the request given as JSON texts. -/
def addRelationJson (t connection request : Text) : Except Error Text := do
  let some c := (Json.read connection).bind Connection.ofJson? | throw .malformedJson
  let some r := (Json.read request).bind RelationRequest.ofJson? | throw .malformedJson
  addRelation t c r

end SchemaDiagram

import SchemaDiagram.Diagram.Basic
import SchemaDiagram.Json.Decode

namespace SchemaDiagram

open Json

/-- The members of a field in a diagram. -/
def FieldView.toJson (f : FieldView) : Json :=
  record
    [("name", text f.name), ("type", text f.type), ("isList", Json.bool f.isList),
     ("isOptional", Json.bool f.isOptional), ("isId", Json.bool f.isId), ("isUnique", Json.bool f.isUnique),
     ("relationName", f.relationName.map text)]

def Node.toJson (n : Node) : Json :=
  record [("id", text n.id), ("fields", Json.array (n.fields.map FieldView.toJson))]

def Edge.toJson (e : Edge) : Json :=
  record
    [("id", text e.id), ("source", text e.source), ("target", text e.target),
     ("sourceHandle", text e.sourceHandle), ("targetHandle", text e.targetHandle),
     ("cardinality", text e.cardinality.label), ("sourceField", text e.sourceField),
     ("targetField", text e.targetField), ("sourceIsList", Json.bool e.sourceIsList),
     ("targetIsList", Json.bool e.targetIsList)]

def Diagram.toJson (d : Diagram) : Json :=
  record
    [("nodes", Json.array (d.nodes.map Node.toJson)), ("edges", Json.array (d.edges.map Edge.toJson))]

def Cardinality.ofJson? : Json → Option Cardinality :=
  asConstant? (Cardinality.all.map fun c => (c.label, c))

def FieldView.ofJson? (j : Json) : Option FieldView := do
  let p ← parts? ["name", "type", "isList", "isOptional", "isId", "isUnique", "relationName"] j
  return {
    name := ← p.required 0 asText?
    type := ← p.required 1 asText?
    isList := ← p.required 2 asBool?
    isOptional := ← p.required 3 asBool?
    isId := ← p.required 4 asBool?
    isUnique := ← p.required 5 asBool?
    relationName := ← p.optional 6 asText? }

def Edge.ofJson? (j : Json) : Option Edge := do
  let p ← parts?
    ["id", "source", "target", "sourceHandle", "targetHandle", "cardinality", "sourceField", "targetField",
     "sourceIsList", "targetIsList"] j
  return {
    id := ← p.required 0 asText?
    source := ← p.required 1 asText?
    target := ← p.required 2 asText?
    sourceHandle := ← p.required 3 asText?
    targetHandle := ← p.required 4 asText?
    cardinality := ← p.required 5 Cardinality.ofJson?
    sourceField := ← p.required 6 asText?
    targetField := ← p.required 7 asText?
    sourceIsList := ← p.required 8 asBool?
    targetIsList := ← p.required 9 asBool? }

end SchemaDiagram

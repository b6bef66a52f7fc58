import SchemaDiagram.Diagram.Basic

namespace SchemaDiagram

open Text

/-- Whether `back`, a field of `target`, answers the field `f` of `source`: it is relational, has the type
of the source, is not `f` itself, and both agree on the name of the relation. -/
def answers (source : Model) (f : Field) (target : Model) (back : Field) : Bool :=
  back.type = source.name && back.relation.isSome &&
    !(source.name = target.name && back.name = f.name) && f.relationName = back.relationName

/-- The first field of the target that answers a field of the source. -/
def inverse? (source : Model) (f : Field) (target : Model) : Option Field :=
  target.fields.find? (answers source f target)

/-- The edge of a foreign key, from the model that holds it to the one it refers to. -/
def keyEdge (holder : Model) (key : Field) (other : Model) (back : Option Field) : Edge :=
  let column := ((key.relation.bind (·.fields)).bind (·.head?)).getD key.name
  let referenced := ((key.relation.bind (·.references)).bind (·.head?)).getD (txt "id")
  let backIsList := back.any (·.isList)
  { id := edgeId holder.name other.name key.name
    source := holder.name
    target := other.name
    sourceHandle := sourceHandle holder.name column
    targetHandle := targetHandle other.name referenced
    cardinality := .ofLists key.isList backIsList
    sourceField := fieldPath holder.name column
    targetField := fieldPath other.name referenced
    sourceIsList := key.isList
    targetIsList := backIsList }

def Model.identityName (m : Model) : Text := (m.identity?.map (·.name)).getD (txt "id")

/-- The edge of two lists that answer each other, from the name that comes first. -/
def listEdge (a b : Model) : Edge :=
  { id := edgeId a.name b.name Cardinality.manyToMany.label
    source := a.name
    target := b.name
    sourceHandle := sourceHandle a.name a.identityName
    targetHandle := targetHandle b.name b.identityName
    cardinality := .manyToMany
    sourceField := fieldPath a.name a.identityName
    targetField := fieldPath b.name b.identityName
    sourceIsList := true
    targetIsList := true }

/-- The edge that a field gives rise to. There is none if both sides carry a foreign key, or neither does
and not both are lists. Two lists give their edge at the model whose name comes first. -/
def fieldEdge? (d : Document) (m : Model) (f : Field) : Option Edge := do
  let _ ← f.relation
  let target ← d.model? f.type
  let back := inverse? m f target
  match f.hasForeignKey, back with
  | true, none => some (keyEdge m f target none)
  | true, some b => if b.hasForeignKey then none else some (keyEdge m f target (some b))
  | false, none => none
  | false, some b =>
    if b.hasForeignKey then some (keyEdge target b m (some f))
    else if f.isList && b.isList && !(target.name < m.name) then some (listEdge m target)
    else none

/-- The id that the same edge would have from its other end. -/
def Edge.reverseId (e : Edge) : Text :=
  edgeId e.target e.source (((edgeId e.source e.target []).isPrefixOf? e.id).getD [])

/-- Adds an edge unless there is one already, from either end. -/
def addEdge (edges : List Edge) (e : Edge) : List Edge :=
  if edges.any (fun known => known.id = e.id || known.id = e.reverseId) then edges else edges ++ [e]

/-- The edges that the fields of a document give rise to, in the order of the fields. -/
def inferEdges (d : Document) : List Edge :=
  (d.models.flatMap fun m => m.fields.filterMap (fieldEdge? d m)).foldl addEdge []

def Diagram.ofDocument (d : Document) : Diagram where
  nodes := d.models.map .ofModel
  edges := inferEdges d

end SchemaDiagram

import SchemaDiagram.Schema.Print

namespace SchemaDiagram

open Text

inductive Cardinality
  | oneToOne | oneToMany | manyToMany
  deriving DecidableEq

namespace Cardinality

def label : Cardinality → Text
  | .oneToOne => txt "1-1"
  | .oneToMany => txt "1-M"
  | .manyToMany => txt "M-M"

def all : List Cardinality := [.oneToOne, .oneToMany, .manyToMany]

/-- The cardinality of an edge by which of its ends are lists. -/
def ofLists : Bool → Bool → Cardinality
  | true, true => .manyToMany
  | false, false => .oneToOne
  | _, _ => .oneToMany

end Cardinality

/-- What a diagram shows of a field. -/
structure FieldView where
  name : Text
  type : Text
  isList : Bool
  isOptional : Bool
  isId : Bool
  isUnique : Bool
  relationName : Option Text
  deriving DecidableEq

/-- A model in a diagram, under its name. -/
structure Node where
  id : Text
  fields : List FieldView
  deriving DecidableEq

/-- A relation in a diagram. It leaves a field of the source and arrives at one of the target. -/
structure Edge where
  id : Text
  source : Text
  target : Text
  sourceHandle : Text
  targetHandle : Text
  cardinality : Cardinality
  sourceField : Text
  targetField : Text
  sourceIsList : Bool
  targetIsList : Bool
  deriving DecidableEq

structure Diagram where
  nodes : List Node := []
  edges : List Edge := []
  deriving DecidableEq

namespace Edge

/-- The model at the single end of a one-to-many edge. -/
def oneSide? (e : Edge) : Option Text :=
  if e.cardinality = .oneToMany then some (if e.sourceIsList then e.source else e.target) else none

/-- The model at the other end of a one-to-many edge. -/
def manySide? (e : Edge) : Option Text :=
  if e.cardinality = .oneToMany then some (if e.sourceIsList then e.target else e.source) else none

end Edge

def sourceHandle (model field : Text) : Text := joinWith (txt "-") [model, field, txt "source"]

def targetHandle (model field : Text) : Text := joinWith (txt "-") [model, field, txt "target"]

/-- A field of a model in one name. -/
def fieldPath (model field : Text) : Text := joinWith (txt ".") [model, field]

/-- The id of an edge: its ends, and what tells it apart from others between them. -/
def edgeId (source target mark : Text) : Text := joinWith (txt "-") [source, target, mark]

def FieldView.ofField (f : Field) : FieldView where
  name := f.name
  type := f.type
  isList := f.isList
  isOptional := f.isOptional
  isId := f.isId
  isUnique := f.isUnique
  relationName := f.relationName

def Node.ofModel (m : Model) : Node where
  id := m.name
  fields := m.fields.map .ofField

end SchemaDiagram

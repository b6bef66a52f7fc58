import SchemaDiagram.Diagram.Basic
import SchemaDiagram.Error

namespace SchemaDiagram

/-- A line drawn in a diagram from a field of one model to a field of another. -/
structure Connection where
  sourceModel : Text
  sourceField : Text
  targetModel : Text
  targetField : Text
  deriving DecidableEq

/-- How many-to-many relations are kept: by two lists, or by a model in between. -/
inductive RelationMode
  | implicit | explicit
  deriving DecidableEq

/-- Which of the two models leads the name of the model in between. -/
inductive JunctionOrder
  | sourceFirst | targetFirst
  deriving DecidableEq

structure RelationRequest where
  cardinality : Cardinality
  mode : RelationMode := .implicit
  order : JunctionOrder := .sourceFirst
  nullableSource : Bool := false
  nullableTarget : Bool := false
  deriving DecidableEq

def RelationMode.label : RelationMode → Text
  | .implicit => txt "implicit"
  | .explicit => txt "explicit"

def RelationMode.all : List RelationMode := [.implicit, .explicit]

def JunctionOrder.label : JunctionOrder → Text
  | .sourceFirst => txt "AonB"
  | .targetFirst => txt "BonA"

def JunctionOrder.all : List JunctionOrder := [.sourceFirst, .targetFirst]

/-- Reads a cardinality. A small `m` will do. -/
def Cardinality.parse (given : Text) : Except Error Cardinality :=
  if given = txt "1-m" then .ok .oneToMany
  else if given = txt "m-m" then .ok .manyToMany
  else
    match all.find? (·.label = given) with
    | some cardinality => .ok cardinality
    | none => .error (.unknownCardinality given)

def RelationMode.parse (given : Text) : Except Error RelationMode :=
  match all.find? (·.label = given) with
  | some mode => .ok mode
  | none => .error (.unknownMode given)

def JunctionOrder.parse (given : Text) : Except Error JunctionOrder :=
  match all.find? (·.label = given) with
  | some order => .ok order
  | none => .error (.unknownOrder given)

/-- Reads an endpoint `Model.field`. The first point separates, and neither side may be empty. -/
def parseEndpoint (endpoint : Text) : Except Error (Text × Text) :=
  match endpoint.takeWhile (· ≠ '.'), endpoint.dropWhile (· ≠ '.') with
  | c :: model, _ :: d :: field => .ok (c :: model, d :: field)
  | _, _ => .error (.invalidConnection endpoint)

def Connection.ofEndpoints (source target : Text) : Except Error Connection := do
  let (sourceModel, sourceField) ← parseEndpoint source
  let (targetModel, targetField) ← parseEndpoint target
  return { sourceModel, sourceField, targetModel, targetField }

end SchemaDiagram

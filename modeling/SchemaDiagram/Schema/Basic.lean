import SchemaDiagram.Text.Basic

namespace SchemaDiagram

open Text

structure Datasource where
  provider : Text
  url : Option Text
  deriving DecidableEq

structure Generator where
  provider : Text
  output : Option Text
  deriving DecidableEq

/-- What a field says about the relation it belongs to: the name of the relation, the columns that hold
the foreign key, and the columns they refer to. -/
structure Relation where
  name : Option Text := none
  fields : Option (List Text) := none
  references : Option (List Text) := none
  deriving DecidableEq

/-- A field of a model. It is relational exactly if it has a `relation`, which may say nothing. -/
structure Field where
  name : Text
  type : Text
  isList : Bool
  isOptional : Bool
  attributes : List Text
  relation : Option Relation
  deriving DecidableEq

structure Model where
  name : Text
  fields : List Field
  attributes : List Text
  deriving DecidableEq

structure Enumeration where
  name : Text
  values : List Text
  deriving DecidableEq

/-- What a schema declares. -/
structure Document where
  datasource : Option Datasource := none
  generator : Option Generator := none
  models : List Model := []
  enums : List Enumeration := []
  deriving DecidableEq

structure Summary where
  models : Nat
  enums : Nat
  fields : Nat
  relations : Nat
  deriving DecidableEq

namespace Field

def isId (f : Field) : Bool := f.attributes.any (occurs (txt "@id"))

def isUnique (f : Field) : Bool := f.attributes.any (occurs (txt "@unique"))

/-- A field carries a foreign key if its relation refers to some column. -/
def hasForeignKey (f : Field) : Bool :=
  (f.relation.bind (·.references)).any fun columns => !columns.isEmpty

def relationName (f : Field) : Option Text := f.relation.bind (·.name)

end Field

/-- A type with its list and optional marks. -/
def typeLabel (type : Text) (isList isOptional : Bool) : Text :=
  type ++ (if isList then txt "[]" else []) ++ (if isOptional then txt "?" else [])

def Field.label (f : Field) : Text := typeLabel f.type f.isList f.isOptional

namespace Model

def field? (m : Model) (name : Text) : Option Field := m.fields.find? (·.name = name)

/-- The first field marked as the identity, or else the one named `id`. -/
def identity? (m : Model) : Option Field := (m.fields.find? Field.isId).or (m.field? (txt "id"))

end Model

namespace Document

def model? (d : Document) (name : Text) : Option Model := d.models.find? (·.name = name)

def hasModel (d : Document) (name : Text) : Bool := (d.model? name).isSome

def summary (d : Document) : Summary where
  models := d.models.length
  enums := d.enums.length
  fields := (d.models.flatMap (·.fields)).length
  relations := ((d.models.flatMap (·.fields)).filter (·.relation.isSome)).length

end Document

/-- Keeps the first item of each name. -/
def keepFirst (name : α → Text) : List α → List α
  | [] => []
  | a :: rest => a :: (keepFirst name rest).filter (fun b => name b ≠ name a)

end SchemaDiagram

import SchemaDiagram.Edit.Body
import SchemaDiagram.Edit.Connection
import SchemaDiagram.Naming.Fields

namespace SchemaDiagram

/-- The field that refers to the record that `foreignKey` points at. -/
def keyFieldLine (name model mark foreignKey referenced : Text) : Text :=
  name ++ txt " " ++ model ++ mark ++ txt " @relation(fields: [" ++ foreignKey ++ txt "], references: [" ++
    referenced ++ txt "])"

/-- A list of the records of a model. -/
def listFieldLine (name model : Text) : Text := name ++ txt " " ++ model ++ txt "[]"

def junctionName (c : Connection) : JunctionOrder → Text
  | .sourceFirst => c.sourceModel ++ txt "On" ++ c.targetModel
  | .targetFirst => c.targetModel ++ txt "On" ++ c.sourceModel

/-- What a junction says of one of the two models it joins. -/
structure JunctionSide where
  model : Text
  foreignKey : Text
  relationField : Text
  keyType : Text
  identity : Text

namespace JunctionSide

def ofModel (d : Document) (model : Text) : JunctionSide :=
  let identity := (d.model? model).bind (·.identity?)
  let identityName := (identity.map (·.name)).getD (txt "id")
  { model
    foreignKey := foreignKeyName model identityName
    relationField := singularFieldName model
    keyType := (identity.map (·.type)).getD (txt "Int")
    identity := identityName }

/-- The same side under names that differ from those of the first. -/
def related (side : JunctionSide) : JunctionSide :=
  { side with
    foreignKey := txt "related" ++ capitalizeFirst side.foreignKey
    relationField := txt "related" ++ capitalizeFirst side.relationField }

def lines (side : JunctionSide) : List Text :=
  [side.foreignKey ++ txt " " ++ side.keyType,
   keyFieldLine side.relationField side.model [] side.foreignKey side.identity]

end JunctionSide

/-- The two sides of a junction. If their columns would have one name, the second side is renamed. -/
def junctionSides (d : Document) (c : Connection) (order : JunctionOrder) : JunctionSide × JunctionSide :=
  let (first, second) := match order with
    | .sourceFirst => (c.sourceModel, c.targetModel)
    | .targetFirst => (c.targetModel, c.sourceModel)
  let firstSide := JunctionSide.ofModel d first
  let secondSide := JunctionSide.ofModel d second
  (firstSide, if firstSide.foreignKey = secondSide.foreignKey then secondSide.related else secondSide)

/-- Adds the junction of a connection, unless there is a model of its name. -/
def addJunction (t : Text) (d : Document) (c : Connection) (order : JunctionOrder) : Text :=
  let name := junctionName c order
  if d.hasModel name then t
  else
    let (first, second) := junctionSides d c order
    let identity := txt "@@id([" ++ first.foreignKey ++ txt ", " ++ second.foreignKey ++ txt "])"
    appendModel t name (first.lines ++ second.lines) [identity]

/-- Relates two models through a junction that each of them lists. -/
def relateByJunction (t : Text) (d : Document) (c : Connection) (order : JunctionOrder) :
    Except Error Text := do
  let name := junctionName c order
  let list := listFieldName name
  let line := listFieldLine list name
  let withSource ← upsertField (addJunction t d c order) c.sourceModel list line
  upsertField withSource c.targetModel list line

end SchemaDiagram

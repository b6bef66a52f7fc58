import SchemaDiagram.Edit.Junction
import SchemaDiagram.Schema.Parse

namespace SchemaDiagram

/-- Where the foreign key of a relation is kept and what it refers to. -/
structure KeyPlacement where
  holder : Text
  foreignKey : Text
  referenced : Text
  referencedField : Text
  holderIsSource : Bool
  deriving DecidableEq

/-- The field that a foreign key refers to: the one asked for if it is a single scalar, or else the
identity. -/
def keyTarget (model : Option Model) (requested : Text) : Text :=
  match model with
  | none => requested
  | some m =>
    let asked := (m.field? requested).filter fun f => f.relation.isNone && !f.isList
    ((asked.or m.identity?).map (·.name)).getD protectedField

/-- The source holds the key if its field is one already. Otherwise the target does, in its own field if
that is one, or else in a new one. -/
def KeyPlacement.ofConnection (d : Document) (c : Connection) : KeyPlacement :=
  let source := d.model? c.sourceModel
  let target := d.model? c.targetModel
  if holdsForeignKey source c.sourceField then
    { holder := c.sourceModel
      foreignKey := c.sourceField
      referenced := c.targetModel
      referencedField := keyTarget target c.targetField
      holderIsSource := true }
  else
    let referenced := keyTarget source c.sourceField
    { holder := c.targetModel
      foreignKey :=
        if holdsForeignKey target c.targetField then c.targetField
        else foreignKeyName c.sourceModel referenced
      referenced := c.sourceModel
      referencedField := referenced
      holderIsSource := false }

/-- Makes sure that the column of the foreign key exists, and that it is optional if it has to be. -/
def ensureForeignKey (t : Text) (d : Document) (p : KeyPlacement) (keyType : Text)
    (nullable unique : Bool) : Except Error Text :=
  match (d.model? p.holder).bind (·.field? p.foreignKey) with
  | some f =>
    if nullable && !f.isOptional then
      replaceField t p.holder f.name ({ f with isOptional := true } : Field).render
    else .ok t
  | none =>
    .ok (insertField t p.holder
      (p.foreignKey ++ txt " " ++ keyType ++ (if nullable then txt "?" else []) ++
        (if unique then txt " @unique" else [])))

/-- Relates two models by a foreign key. If one record may be referred to by many, it lists them. -/
def relateByKey (t : Text) (d : Document) (c : Connection) (request : RelationRequest)
    (oneToMany : Bool) : Except Error Text := do
  let p := KeyPlacement.ofConnection d c
  let nullable := if p.holderIsSource then request.nullableSource else request.nullableTarget
  let column := (d.model? p.referenced).bind (·.field? p.referencedField)
  let keyType := (column.map (·.type)).getD (txt "Int")
  let withKey ← ensureForeignKey t d p keyType nullable !oneToMany
  let field := relationFieldName p.foreignKey p.referenced
  let line := keyFieldLine field p.referenced (if nullable then txt "?" else []) p.foreignKey
    p.referencedField
  let withField ← upsertField withKey p.holder field line
  if oneToMany then
    let list := listFieldName p.holder
    upsertField withField p.referenced list (listFieldLine list p.holder)
  else return withField

/-- Relates two models by a list in each of them. -/
def relateByLists (t : Text) (c : Connection) : Except Error Text := do
  let sourceList := listFieldName c.targetModel
  let withSource ← upsertField t c.sourceModel sourceList (listFieldLine sourceList c.targetModel)
  let targetList := listFieldName c.sourceModel
  upsertField withSource c.targetModel targetList (listFieldLine targetList c.sourceModel)

/-- Writes a relation between two models into a schema text. A text that lacks one of the models stays as
it is. -/
def addRelation (t : Text) (c : Connection) (request : RelationRequest) : Except Error Text :=
  let d := Document.parse t
  if d.hasModel c.sourceModel && d.hasModel c.targetModel then
    match request.cardinality, request.mode with
    | .oneToOne, _ => relateByKey t d c request false
    | .oneToMany, _ => relateByKey t d c request true
    | .manyToMany, .implicit => relateByLists t c
    | .manyToMany, .explicit => relateByJunction t d c request.order
  else .ok t

end SchemaDiagram

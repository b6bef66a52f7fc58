import SchemaDiagram.Naming.Words
import SchemaDiagram.Schema.Basic

namespace SchemaDiagram

/-- The plural of an English word by its ending alone. -/
def pluralize (word : Text) : Text :=
  match (txt "y").isSuffixOf? word with
  | some stem => stem ++ txt "ies"
  | none =>
    if ["s", "x", "z", "ch", "sh"].any (fun ending => (txt ending).isSuffixOf word) then word ++ txt "es"
    else word ++ txt "s"

/-- The field that refers to one record of a model. -/
def singularFieldName (model : Text) : Text := lowerCamel model

/-- The field that refers to many records of a model. -/
def listFieldName (model : Text) : Text := pluralize (singularFieldName model)

/-- The column that refers to a field of a model. -/
def foreignKeyName (model field : Text) : Text := singularFieldName model ++ upperCamel field

def stripIdSuffix? (name : Text) : Option Text :=
  (((txt "Id").isSuffixOf? name).or ((txt "ID").isSuffixOf? name)).or ((txt "_id").isSuffixOf? name)

/-- The field beside a foreign key: the name of the column without its suffix, or else after the model it
refers to. -/
def relationFieldName (foreignKey model : Text) : Text :=
  match stripIdSuffix? foreignKey with
  | some (c :: stem) => c :: stem
  | _ => singularFieldName model

/-- Whether a field of a model is taken for a foreign key: it exists, has a suffix for ids, and is not the
identity. -/
def holdsForeignKey (model : Option Model) (field : Text) : Bool :=
  field ≠ txt "id" && (stripIdSuffix? field).any (fun stem => !stem.isEmpty) &&
    model.any fun m => (m.field? field).isSome

end SchemaDiagram

import SchemaDiagram.Schema.Basic
import SchemaDiagram.Json.Decode

namespace SchemaDiagram

open Json

def Datasource.toJson (d : Datasource) : Json :=
  record [("provider", text d.provider), ("url", d.url.map text)]

def Generator.toJson (g : Generator) : Json :=
  record [("provider", text g.provider), ("output", g.output.map text)]

def Relation.toJson (r : Relation) : Json :=
  record [("name", r.name.map text), ("fields", r.fields.map texts), ("references", r.references.map texts)]

def Field.toJson (f : Field) : Json :=
  record
    [("name", text f.name), ("type", text f.type), ("isList", Json.bool f.isList),
     ("isOptional", Json.bool f.isOptional), ("attributes", texts f.attributes),
     ("relation", f.relation.map Relation.toJson)]

def Model.toJson (m : Model) : Json :=
  record
    [("name", text m.name), ("fields", Json.array (m.fields.map Field.toJson)),
     ("attributes", texts m.attributes)]

def Enumeration.toJson (e : Enumeration) : Json :=
  record [("name", text e.name), ("values", texts e.values)]

def Document.toJson (d : Document) : Json :=
  record
    [("datasource", ofOption Datasource.toJson d.datasource),
     ("generator", ofOption Generator.toJson d.generator),
     ("models", Json.array (d.models.map Model.toJson)),
     ("enums", Json.array (d.enums.map Enumeration.toJson))]

def Datasource.ofJson? (j : Json) : Option Datasource := do
  let p ← parts? ["provider", "url"] j
  return { provider := ← p.required 0 asText?, url := ← p.optional 1 asText? }

def Generator.ofJson? (j : Json) : Option Generator := do
  let p ← parts? ["provider", "output"] j
  return { provider := ← p.required 0 asText?, output := ← p.optional 1 asText? }

def Relation.ofJson? (j : Json) : Option Relation := do
  let p ← parts? ["name", "fields", "references"] j
  return {
    name := ← p.optional 0 asText?
    fields := ← p.optional 1 (asList? asText?)
    references := ← p.optional 2 (asList? asText?) }

def Field.ofJson? (j : Json) : Option Field := do
  let p ← parts? ["name", "type", "isList", "isOptional", "attributes", "relation"] j
  return {
    name := ← p.required 0 asText?
    type := ← p.required 1 asText?
    isList := ← p.required 2 asBool?
    isOptional := ← p.required 3 asBool?
    attributes := ← p.withDefault 4 [] (asList? asText?)
    relation := ← p.optional 5 Relation.ofJson? }

def Model.ofJson? (j : Json) : Option Model := do
  let p ← parts? ["name", "fields", "attributes"] j
  return {
    name := ← p.required 0 asText?
    fields := ← p.required 1 (asList? Field.ofJson?)
    attributes := ← p.withDefault 2 [] (asList? asText?) }

def Enumeration.ofJson? (j : Json) : Option Enumeration := do
  let p ← parts? ["name", "values"] j
  return { name := ← p.required 0 asText?, values := ← p.required 1 (asList? asText?) }

def Document.ofJson? (j : Json) : Option Document := do
  let p ← parts? ["datasource", "generator", "models", "enums"] j
  return {
    datasource := ← p.nullable 0 Datasource.ofJson?
    generator := ← p.nullable 1 Generator.ofJson?
    models := ← p.required 2 (asList? Model.ofJson?)
    enums := ← p.required 3 (asList? Enumeration.ofJson?) }

end SchemaDiagram

import SchemaDiagram.Diagram.Json
import SchemaDiagram.Json.Read
import SchemaDiagram.Layout.Arrange
import SchemaDiagram.Layout.Columns

namespace SchemaDiagram

open Json

def Position.ofJson? (j : Json) : Option Position := do
  let p ← parts? ["x", "y"] j
  return { x := ← p.required 0 asFloat?, y := ← p.required 1 asFloat? }

/-- Positions by id. -/
def SavedPositions.ofJson? : Json → Option SavedPositions
  | .object members => members.mapM fun (key, value) => do return (← key, ← Position.ofJson? value)
  | _ => none

/-- How deep the members of a node may be nested inside of its list. -/
def memberDepth : Nat := 126

/-- A node and its place are the members of one object, and every member has to be readable. -/
def PlacedNode.ofJson? : Json → Option PlacedNode
  | .object members => do
    let placing := ["position", "width", "height"].map txt
    let others := members.filter fun (key, _) => key.any fun key => !placing.contains key
    if !members.all (·.1.isSome) || !others.all (·.2.isReadable memberDepth) then none
    let place ← parts? ["position", "width", "height"] (.object members)
    let shape ← parts? ["id", "fields"] (.object members)
    return {
      node :=
        { id := ← shape.required 0 asText?, fields := ← shape.required 1 (asList? FieldView.ofJson?) }
      position := ← place.required 0 Position.ofJson?
      size := { width := ← place.required 1 asFloat?, height := ← place.required 2 asFloat? } }
  | _ => none

/-- Reads saved positions. A blank text saves none. -/
def SavedPositions.read (t : Text) : Option SavedPositions :=
  if (Text.trim t).isEmpty then some [] else (Json.read t).bind ofJson?

/-- Places the nodes of a diagram as usual. -/
def layoutNodes (saved : SavedPositions) (nodes : List Node) : List PlacedNode :=
  ({} : LayoutConfig).arrange saved nodes

end SchemaDiagram

import SchemaDiagram.Layout.Metrics

namespace SchemaDiagram

structure Position where
  x : Float
  y : Float

structure PlacedNode where
  node : Node
  position : Position
  size : Size

/-- Positions that are kept for some nodes. A later entry of an id stands for the earlier ones. -/
abbrev SavedPositions := List (Text × Position)

def SavedPositions.position? (saved : SavedPositions) (id : Text) : Option Position :=
  (saved.reverse.find? (·.1 = id)).map (·.2)

structure LayoutConfig where
  metrics : TextMetrics := {}
  originX : Float := 50
  originY : Float := 50
  gapX : Float := 80

namespace LayoutConfig

variable [CharacterGrid]

/-- Puts the nodes without a saved position side by side from `x` on. -/
def arrangeFrom (config : LayoutConfig) (saved : SavedPositions) (x : Float) : List Node → List PlacedNode
  | [] => []
  | n :: later =>
    let size := config.metrics.nodeSize n
    match saved.position? n.id with
    | some position => { node := n, position, size } :: arrangeFrom config saved x later
    | none =>
      { node := n, position := ⟨x, config.originY⟩, size } ::
        arrangeFrom config saved (x + (size.width + config.gapX)) later

/-- Places the nodes of a diagram. -/
def arrange (config : LayoutConfig) (saved : SavedPositions) (nodes : List Node) : List PlacedNode :=
  config.arrangeFrom saved config.originX nodes

end LayoutConfig

end SchemaDiagram

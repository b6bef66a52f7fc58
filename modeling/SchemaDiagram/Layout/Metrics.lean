import SchemaDiagram.Diagram.Basic

namespace SchemaDiagram

/-- A grid of characters, on which a text takes some columns. A layout takes the grid as it is given. -/
class CharacterGrid where
  columns : Text → Nat

/-- The sizes from which the size of a node is estimated. The badge is a mark in front of a key. -/
structure TextMetrics where
  charWidth : Float := 8
  lineHeight : Float := 24
  paddingX : Float := 12
  paddingY : Float := 8
  headerPadding : Float := 6
  badgeWidth : Float := 20
  minNodeWidth : Float := 180
  minNodeHeight : Float := 60

/-- The larger of two numbers, and the first of two equal ones. Of a number and no number it is the
number. -/
def larger (a b : Float) : Float :=
  if a < b then b else if a.isNaN then b else a

structure Size where
  width : Float
  height : Float

namespace TextMetrics

variable [CharacterGrid]

def textWidth (m : TextMetrics) (t : Text) : Float := Float.ofNat (CharacterGrid.columns t) * m.charWidth

def fieldWidth (m : TextMetrics) (f : FieldView) : Float :=
  let badge := if f.isId || f.isUnique then m.badgeWidth else 0
  badge + m.textWidth f.name + m.textWidth (typeLabel f.type f.isList f.isOptional) + m.charWidth * 2

/-- The size of a node: a header, and below it a line for each field. -/
def nodeSize (m : TextMetrics) (n : Node) : Size :=
  let fieldsWidth := (n.fields.map m.fieldWidth).foldl larger 0
  let contentWidth := larger (m.textWidth n.id) fieldsWidth + m.paddingX * 2
  let headerHeight := m.lineHeight + m.headerPadding * 2
  let bodyHeight :=
    if n.fields.isEmpty then 0 else Float.ofNat n.fields.length * m.lineHeight + m.paddingY * 2
  { width := larger contentWidth m.minNodeWidth
    height := larger (headerHeight + bodyHeight) m.minNodeHeight }

end TextMetrics

end SchemaDiagram

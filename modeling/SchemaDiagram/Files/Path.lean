import SchemaDiagram.Text.Basic

namespace SchemaDiagram

/-- A part of a path: its root, the present directory, the one above, or a name. -/
inductive PathPart
  | root | here | up | name (part : Text)
  deriving DecidableEq

/-- What stands between the slashes of a path. -/
def pathPieces (path : Text) : List Text := path.splitOn '/'

def PathPart.ofPiece (piece : Text) : Option PathPart :=
  if piece = [] ∨ piece = txt "." then none
  else if piece = txt ".." then some .up
  else some (.name piece)

/-- The parts of a path. Repeated slashes and points count for nothing, but for a point in front. -/
def pathParts (path : Text) : List PathPart :=
  let inner := (pathPieces path).filterMap PathPart.ofPiece
  if path.head? = some '/' then .root :: inner
  else if (pathPieces path).head? = some (txt ".") then .here :: inner
  else inner

/-- A path that is nothing but the name of a file. -/
def isPlainFileName (path : Text) : Bool := pathParts path = [.name path]

/-- The path of a file in a directory. The empty path is the directory where paths start. -/
def joinPath (directory name : Text) : Text :=
  directory ++ (if directory = [] ∨ directory.getLast? = some '/' then [] else txt "/") ++ name

end SchemaDiagram

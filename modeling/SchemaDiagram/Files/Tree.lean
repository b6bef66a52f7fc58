import SchemaDiagram.Files.Path
import SchemaDiagram.Text.Utf8

namespace SchemaDiagram

open Text

/-- Why a file cannot be read or written. -/
inductive FileError
  | notFound | alreadyExists | notDirectory | isDirectory | nameTooLong | nulInName | notText
  | other (message : Text)
  deriving DecidableEq

def FileError.message : FileError → Text
  | .notFound => txt "No such file or directory (os error 2)"
  | .alreadyExists => txt "File exists (os error 17)"
  | .notDirectory => txt "Not a directory (os error 20)"
  | .isDirectory => txt "Is a directory (os error 21)"
  | .nameTooLong => txt "File name too long (os error 36)"
  | .nulInName => txt "file name contained an unexpected NUL byte"
  | .notText => txt "stream did not contain valid UTF-8"
  | .other message => message

/-- What a file holds: a text, or bytes that are none, shown with replacement characters. -/
inductive FileContent
  | text (content : Text)
  | bytes (shown : Text)
  deriving DecidableEq

def replacementChar : Char := '\uFFFD'

def FileContent.ofBytes (content : List UInt8) : FileContent :=
  let chars := Utf8.decode content
  let shown := chars.map (·.getD replacementChar)
  if chars.all (·.isSome) then .text shown else .bytes shown

/-- What can be at a place. A device reads as empty and gathers what is written to it. -/
inductive TreeEntry
  | file (content : FileContent)
  | directory
  | device (written : Text)
  deriving DecidableEq

/-- A place: the names that lead to it from the top of the tree. -/
abbrev Place := List Text

/-- Files and directories, and the directory where paths start that do not start at the top. -/
structure FileTree where
  entries : List (Place × TreeEntry) := []
  working : Place := []
  deriving DecidableEq

/-- A path as it is followed: the place where it starts, and its pieces. -/
structure Route where
  start : Place
  pieces : List Text
  deriving DecidableEq

namespace FileTree

/-- What is at a place. The top is a directory. -/
def entry? (tree : FileTree) (place : Place) : Option TreeEntry :=
  if place = [] then some .directory else (tree.entries.find? (·.1 = place)).map (·.2)

def isDirectory (tree : FileTree) (place : Place) : Bool := tree.entry? place = some .directory

/-- Puts an entry at a place, instead of what was there. -/
def put (tree : FileTree) (place : Place) (entry : TreeEntry) : FileTree :=
  let entries :=
    if tree.entries.any (·.1 = place) then
      tree.entries.map fun item => if item.1 = place then (place, entry) else item
    else tree.entries ++ [(place, entry)]
  { tree with entries }

/-- Puts a directory at a place, with those that lead to it. -/
def plantDirectory (tree : FileTree) (place : Place) : FileTree :=
  let leading := (List.range place.length).map fun n => place.take (n + 1)
  leading.foldl (fun tree directory => tree.put directory .directory) tree

/-- Puts an entry at a place, with the directories that lead to it. -/
def plant (tree : FileTree) (place : Place) (entry : TreeEntry) : FileTree :=
  (tree.plantDirectory place.dropLast).put place entry

/-- The entries below the working directory, at the places where they are seen from there. -/
def belowWorking (tree : FileTree) : List (Place × TreeEntry) :=
  let below := tree.entries.filter fun item => tree.working.isPrefixOf item.1 && item.1 ≠ tree.working
  below.map fun (place, entry) => (place.drop tree.working.length, entry)

def longestName : Nat := 255

def longestPath : Nat := 4095

/-- Goes from a place to another by a piece of a path. The top is above itself. -/
def step (tree : FileTree) (place : Place) (piece : Text) : Except FileError Place :=
  if !tree.isDirectory place then .error .notDirectory
  else if piece = [] ∨ piece = txt "." then .ok place
  else if piece = txt ".." then .ok place.dropLast
  else if longestName < byteSize piece then .error .nameTooLong
  else if (tree.entry? (place ++ [piece])).isSome then .ok (place ++ [piece])
  else .error .notFound

def walk (tree : FileTree) (route : Route) : Except FileError Place :=
  route.pieces.foldlM tree.step route.start

/-- How a path is followed. Some paths are refused before anything is looked up. -/
def route (tree : FileTree) (path : Text) : Except FileError Route :=
  if path.contains '\x00' then .error .nulInName
  else if path = [] then .error .notFound
  else if longestPath < byteSize path then .error .nameTooLong
  else .ok ⟨if path.head? = some '/' then [] else tree.working, pathPieces path⟩

def read (tree : FileTree) (path : Text) : Except FileError Text := do
  let place ← tree.walk (← tree.route path)
  match tree.entry? place with
  | some (.file (.text content)) => return content
  | some (.file (.bytes _)) => throw .notText
  | some (.device _) => return []
  | some .directory => throw .isDirectory
  | none => throw .notFound

/-- A piece that can be the name of a new entry. -/
def isEntryName (piece : Text) : Bool := piece ≠ txt "." && piece ≠ txt ".."

/-- A route without the slashes at its end. -/
def dropSlashes (route : Route) : Route :=
  { route with pieces := (route.pieces.reverse.dropWhile (· = [])).reverse }

/-- The directory where the last piece of a route is looked up. -/
def parentDirectory (tree : FileTree) (route : Route) : Except FileError Place := do
  let directory ← tree.walk { route with pieces := route.pieces.dropLast }
  if tree.isDirectory directory then return directory else throw .notDirectory

/-- What is at a place once a text is written there. -/
def TreeEntry.written (content : Text) : Option TreeEntry → TreeEntry
  | some (.device before) => .device (before ++ content)
  | _ => .file (.text content)

/-- Writes a file into a directory that exists. -/
def write (tree : FileTree) (path : Text) (content : Text) : Except FileError FileTree := do
  let route ← tree.route path
  let named := dropSlashes route
  let directory ← tree.parentDirectory named
  match named.pieces.getLast? with
  | none => throw .isDirectory
  | some name =>
    if named ≠ route || !isEntryName name then throw .isDirectory
    if longestName < byteSize name then throw .nameTooLong
    let place := directory ++ [name]
    if tree.isDirectory place then throw .isDirectory
    return tree.put place (TreeEntry.written content (tree.entry? place))

/-- Makes a directory in one that exists. -/
def createDirectory (tree : FileTree) (route : Route) : Except FileError FileTree := do
  let named := dropSlashes route
  let directory ← tree.parentDirectory named
  match named.pieces.getLast? with
  | none => throw .alreadyExists
  | some name =>
    if !isEntryName name then throw .alreadyExists
    if longestName < byteSize name then throw .nameTooLong
    let place := directory ++ [name]
    if (tree.entry? place).isSome then throw .alreadyExists
    return tree.put place .directory

/-- Whether a route leads to a directory. -/
def leadsToDirectory (tree : FileTree) (route : Route) : Bool :=
  match tree.walk route with
  | .ok place => tree.isDirectory place
  | .error _ => false

/-- Makes a directory unless it is there. -/
def ensureDirectory (tree : FileTree) (route : Route) : Except FileError FileTree :=
  match tree.createDirectory route with
  | .ok made => .ok made
  | .error e => if tree.leadsToDirectory route then .ok tree else .error e

/-- Makes the directory of the first route. Where its parent is missing, the directories of the other
routes are made before, each one above the one in front of it. What has been made stays when a later one
fails. -/
def createDirectories (tree : FileTree) : List Route → Except FileError Unit × FileTree
  | [] => (.ok (), tree)
  | route :: above =>
    let ensure (tree : FileTree) : Except FileError Unit × FileTree :=
      match tree.ensureDirectory route with
      | .ok made => (.ok (), made)
      | .error e => (.error e, tree)
    match tree.createDirectory route with
    | .error .notFound =>
      match createDirectories tree above with
      | (.ok (), grown) => ensure grown
      | failed => failed
    | _ => ensure tree

/-- A route and those to the directories above it, the longest first. Points count for nothing above, so
that the directory above `a/.` is the one above `a`. -/
def lineage (route : Route) : List Route :=
  let names := (route.pieces.filter fun piece => piece ≠ [] && piece ≠ txt ".").dropLast
  route :: (List.range names.length).map fun n => { route with pieces := names.take (names.length - n) }

/-- Makes the directory of a path and those above it that are missing. -/
def createPath (tree : FileTree) (path : Text) : Except FileError Unit × FileTree :=
  if path = [] then (.ok (), tree)
  else
    match tree.route path with
    | .ok route => tree.createDirectories (lineage route)
    | .error e => (.error e, tree)

end FileTree

end SchemaDiagram

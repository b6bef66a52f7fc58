import SchemaDiagram.Files.Tree
import SchemaDiagram.Proofs.Spans

namespace SchemaDiagram

open Text

theorem bind_eq_ok {ε α β : Type} {x : Except ε α} {f : α → Except ε β} {b : β} :
    (x >>= f) = .ok b ↔ ∃ a, x = .ok a ∧ f a = .ok b := by
  constructor
  · intro found
    cases x with
    | error e => cases found
    | ok a => exact ⟨a, rfl, found⟩
  · rintro ⟨a, rfl, found⟩
    exact found

theorem slash_not_mem_pieces {path piece : Text} (member : piece ∈ pathPieces path) : '/' ∉ piece := by
  intro slash
  have pieces := flatten_splitOnP (· == '/') path
  have inFlatten : '/' ∈ (path.splitOnP (· == '/')).flatten := List.mem_flatten.mpr ⟨piece, member, slash⟩
  rw [pieces] at inFlatten
  exact absurd (List.mem_filter.mp inFlatten).2 (by decide)

/-- A plain name stays in the directory that it is joined to. -/
theorem slash_not_mem_of_plain {name : Text} (plain : isPlainFileName name) : '/' ∉ name := by
  have parts : pathParts name = [.name name] := of_decide_eq_true plain
  have member : PathPart.name name ∈ (pathPieces name).filterMap PathPart.ofPiece := by
    have inParts : PathPart.name name ∈ pathParts name := by rw [parts]; exact List.mem_singleton_self _
    rw [pathParts] at inParts
    split at inParts
    · exact (List.mem_cons.mp inParts).resolve_left PathPart.noConfusion
    split at inParts
    · exact (List.mem_cons.mp inParts).resolve_left PathPart.noConfusion
    · exact inParts
  obtain ⟨piece, inPieces, read⟩ := List.mem_filterMap.mp member
  have same : piece = name := by
    rw [PathPart.ofPiece] at read
    split at read
    · cases read
    split at read
    · cases read
    · exact PathPart.name.inj (Option.some.inj read)
  exact same ▸ slash_not_mem_pieces inPieces

theorem pathPieces_append_name (front : Text) {name : Text} (inName : '/' ∉ name) :
    pathPieces (front ++ '/' :: name) = pathPieces front ++ [name] := by
  have split : pathPieces (front ++ '/' :: name) = pathPieces front ++ pathPieces name :=
    List.splitOn_append_cons_self front name
  rw [split, pathPieces, pathPieces, List.splitOn_eq_singleton inName]

theorem pathPieces_joinPath {name : Text} (inName : '/' ∉ name) (directory : Text) :
    (pathPieces (joinPath directory name)).getLast? = some name := by
  have alone : pathPieces name = [name] := List.splitOn_eq_singleton inName
  have behind (front : Text) : (pathPieces (front ++ '/' :: name)).getLast? = some name := by
    rw [pathPieces_append_name front inName, List.getLast?_concat]
  rw [joinPath]
  split
  · rename_i ends
    rcases ends with rfl | slash
    · rw [List.append_nil, List.nil_append, alone]
      rfl
    · obtain ⟨front, rfl⟩ := List.getLast?_eq_some_iff.mp slash
      rw [List.append_nil, List.append_assoc]
      exact behind front
  · rw [List.append_assoc]
    exact behind directory

namespace FileTree

/-- Putting an entry changes what is at one place. -/
theorem entry?_put (tree : FileTree) {place : Place} (below : place ≠ []) (entry : TreeEntry) (p : Place) :
    FileTree.entry? (tree.put place entry) p = if p = place then some entry else tree.entry? p := by
  by_cases top : p = []
  · rw [FileTree.entry?, FileTree.entry?, if_pos top, if_pos top, if_neg fun same => below (same.symm.trans top)]
  rw [FileTree.entry?, FileTree.entry?, if_neg top, if_neg top, put]
  by_cases known : tree.entries.any (·.1 = place)
  · have keys (item : Place × TreeEntry) : (if item.1 = place then (place, entry) else item).1 = item.1 := by
      split
      · exact Eq.symm ‹_›
      · rfl
    have found : ((fun item : Place × TreeEntry => decide (item.1 = p)) ∘
        fun item => if item.1 = place then (place, entry) else item) = fun item => decide (item.1 = p) := by
      funext item
      simp only [Function.comp_apply, keys]
    rw [if_pos known, List.find?_map, found, Option.map_map]
    by_cases here : p = place
    · obtain ⟨item, inTree, atPlace⟩ := List.any_eq_true.mp known
      have some : (tree.entries.find? (·.1 = place)).isSome := List.find?_isSome.mpr ⟨item, inTree, atPlace⟩
      obtain ⟨first, atFirst⟩ := Option.isSome_iff_exists.mp some
      have same : first.1 = place := by simpa using List.find?_some atFirst
      rw [here, if_pos rfl, atFirst, Option.map_some, Function.comp_apply, if_pos same]
    · rw [if_neg here]
      refine Option.map_congr fun item inTree => ?_
      have same : item.1 = p := by simpa using List.find?_some inTree
      rw [Function.comp_apply, if_neg fun atPlace => here (same.symm.trans atPlace)]
  · rw [if_neg known, List.find?_append]
    by_cases here : p = place
    · have unknown : tree.entries.find? (·.1 = p) = none := by
        rw [here, List.find?_eq_none]
        intro item inTree atPlace
        exact known (List.any_eq_true.mpr ⟨item, inTree, atPlace⟩)
      rw [unknown, Option.none_or, List.find?_singleton, if_pos (by simp [here]), if_pos here]
      rfl
    · rw [if_neg here, List.find?_singleton, if_neg (by simpa using Ne.symm here), Option.or_none]

/-- A tree in which another one can be found again: its directories are directories still, and nothing has gone. -/
structure Keeps (tree grown : FileTree) : Prop where
  working : grown.working = tree.working
  directories : ∀ p, tree.isDirectory p → grown.isDirectory p
  present : ∀ p, (tree.entry? p).isSome → (grown.entry? p).isSome

theorem Keeps.refl (tree : FileTree) : tree.Keeps tree := ⟨rfl, fun _ => id, fun _ => id⟩

theorem Keeps.trans {tree grown last : FileTree} (first : tree.Keeps grown) (second : grown.Keeps last) :
    tree.Keeps last where
  working := second.working.trans first.working
  directories p here := second.directories p (first.directories p here)
  present p here := second.present p (first.present p here)

/-- What is put at a place where no directory was leaves everything else to be found. -/
theorem keeps_put {tree : FileTree} {place : Place} (below : place ≠ []) (before : tree.isDirectory place = false)
    (entry : TreeEntry) : tree.Keeps (tree.put place entry) where
  working := rfl
  directories p here := by
    have elsewhere : p ≠ place := by
      rintro rfl
      exact Bool.false_ne_true (before.symm.trans here)
    rw [isDirectory, entry?_put tree below, if_neg elsewhere]
    exact here
  present p here := by
    rw [entry?_put tree below]
    split
    · rfl
    · exact here

/-- Nothing is looked up but in a directory. -/
theorem isDirectory_of_step {tree : FileTree} {place next : Place} {piece : Text}
    (stepped : tree.step place piece = .ok next) : tree.isDirectory place := by
  rw [FileTree.step] at stepped
  split at stepped
  · cases stepped
  · rename_i directory
    rwa [Bool.not_eq_true', Bool.not_eq_false] at directory

section

variable {tree grown : FileTree} (keeps : tree.Keeps grown)

include keeps

theorem Keeps.step {place next : Place} {piece : Text} (stepped : tree.step place piece = .ok next) :
    grown.step place piece = .ok next := by
  have inside := isDirectory_of_step stepped
  rw [FileTree.step, inside, Bool.not_true, if_neg Bool.false_ne_true] at stepped
  rw [FileTree.step, keeps.directories place inside, Bool.not_true, if_neg Bool.false_ne_true]
  by_cases here : piece = [] ∨ piece = txt "."
  · rwa [if_pos here] at stepped ⊢
  rw [if_neg here] at stepped ⊢
  by_cases up : piece = txt ".."
  · rwa [if_pos up] at stepped ⊢
  rw [if_neg up] at stepped ⊢
  by_cases long : longestName < byteSize piece
  · rw [if_pos long] at stepped
    cases stepped
  rw [if_neg long] at stepped ⊢
  by_cases known : (tree.entry? (place ++ [piece])).isSome
  · rw [if_pos (keeps.present _ known)]
    rwa [if_pos known] at stepped
  · rw [if_neg known] at stepped
    cases stepped

theorem Keeps.walk {route : Route} {place : Place} (walked : tree.walk route = .ok place) :
    grown.walk route = .ok place := by
  obtain ⟨start, pieces⟩ := route
  change pieces.foldlM tree.step start = .ok place at walked
  change pieces.foldlM grown.step start = .ok place
  induction pieces generalizing start with
  | nil => exact walked
  | cons piece pieces ih =>
    rw [List.foldlM_cons] at walked ⊢
    obtain ⟨next, stepped, later⟩ := bind_eq_ok.mp walked
    exact bind_eq_ok.mpr ⟨next, keeps.step stepped, ih next later⟩

end

theorem Keeps.route {tree grown : FileTree} (keeps : tree.Keeps grown) (path : Text) :
    grown.route path = tree.route path := by
  rw [FileTree.route, FileTree.route, keeps.working]

/-- The place that a path leads to. -/
def placeOf (tree : FileTree) (path : Text) : Except FileError Place := do tree.walk (← tree.route path)

theorem Keeps.placeOf {tree grown : FileTree} (keeps : tree.Keeps grown) {path : Text} {place : Place}
    (found : tree.placeOf path = .ok place) : grown.placeOf path = .ok place := by
  obtain ⟨route, routed, walked⟩ := bind_eq_ok.mp found
  exact bind_eq_ok.mpr ⟨route, (keeps.route path).trans routed, keeps.walk walked⟩

theorem pieces_of_route {tree : FileTree} {path : Text} {route : Route} (routed : tree.route path = .ok route) :
    route.pieces = pathPieces path := by
  rw [FileTree.route] at routed
  split at routed
  · cases routed
  split at routed
  · cases routed
  split at routed
  · cases routed
  · rw [← Except.ok.inj routed]

theorem parentDirectory_eq_ok {tree : FileTree} {route : Route} {directory : Place}
    (found : tree.parentDirectory route = .ok directory) :
    tree.walk { route with pieces := route.pieces.dropLast } = .ok directory ∧ tree.isDirectory directory := by
  obtain ⟨place, walked, checked⟩ := bind_eq_ok.mp found
  split at checked
  · rename_i isDirectory
    cases checked
    exact ⟨walked, isDirectory⟩
  · cases checked

/-- Where no slashes stand at the end of a route, its last piece is a name. -/
theorem last_ne_nil {route : Route} {name : Text} (whole : dropSlashes route = route)
    (last : route.pieces.getLast? = some name) : name ≠ [] := by
  rintro rfl
  obtain ⟨front, pieces⟩ := List.getLast?_eq_some_iff.mp last
  have kept : (route.pieces.reverse.dropWhile (· = [])).reverse = route.pieces := congrArg Route.pieces whole
  have self := List.reverse_eq_iff.mp kept
  rw [pieces, List.reverse_append, List.reverse_singleton, List.singleton_append, List.dropWhile_eq_self_iff] at self
  exact self (Nat.zero_lt_succ _) rfl

/-- A step to an entry by its name. -/
theorem step_eq_ok {tree : FileTree} {directory : Place} {name : Text} (inside : tree.isDirectory directory)
    (nonempty : name ≠ []) (entryName : isEntryName name) (short : ¬ longestName < byteSize name)
    (present : (tree.entry? (directory ++ [name])).isSome) : tree.step directory name = .ok (directory ++ [name]) := by
  simp only [isEntryName, Bool.and_eq_true, decide_eq_true_eq] at entryName
  rw [step, inside, Bool.not_true, if_neg Bool.false_ne_true, if_neg (not_or.mpr ⟨nonempty, entryName.1⟩),
    if_neg entryName.2, if_neg short, if_pos present]

theorem walk_eq_ok_of_last {tree : FileTree} {route : Route} {directory place : Place} {name : Text}
    (last : route.pieces.getLast? = some name)
    (walked : tree.walk { route with pieces := route.pieces.dropLast } = .ok directory)
    (stepped : tree.step directory name = .ok place) : tree.walk route = .ok place := by
  obtain ⟨front, split⟩ := List.getLast?_eq_some_iff.mp last
  rw [walk, split, List.dropLast_concat] at walked
  rw [walk, split, List.foldlM_append]
  exact bind_eq_ok.mpr ⟨directory, walked, bind_eq_ok.mpr ⟨place, stepped, rfl⟩⟩

/-- A text that is written lands at a place with the last piece of its path for a name, where the path leads from
then on. -/
theorem write_eq_ok {tree after : FileTree} {path content : Text} (written : tree.write path content = .ok after) :
    ∃ directory name, (pathPieces path).getLast? = some name ∧ tree.Keeps after ∧
      after.placeOf path = .ok (directory ++ [name]) ∧
      after = tree.put (directory ++ [name]) (TreeEntry.written content (tree.entry? (directory ++ [name]))) := by
  obtain ⟨route, routed, inParent⟩ := bind_eq_ok.mp written
  obtain ⟨directory, parent, inDirectory⟩ := bind_eq_ok.mp inParent
  dsimp only at inDirectory
  cases last : (dropSlashes route).pieces.getLast? with
  | none =>
    rw [last] at inDirectory
    cases inDirectory
  | some name =>
    rw [last] at inDirectory
    dsimp only at inDirectory
    split at inDirectory
    · cases inDirectory
    rename_i proper
    split at inDirectory
    · cases inDirectory
    rename_i short
    split at inDirectory
    · cases inDirectory
    rename_i noDirectory
    obtain rfl := Except.ok.inj inDirectory
    simp only [Bool.or_eq_true, decide_eq_true_eq, Bool.not_eq_true', not_or, Decidable.not_not,
      Bool.not_eq_false] at proper
    obtain ⟨whole, entryName⟩ := proper
    rw [whole] at last parent
    obtain ⟨walked, inside⟩ := parentDirectory_eq_ok parent
    have below : directory ++ [name] ≠ [] := List.append_ne_nil_of_right_ne_nil _ (List.cons_ne_nil _ _)
    have keeps := keeps_put below (Bool.eq_false_iff.mpr noDirectory)
      (TreeEntry.written content (tree.entry? (directory ++ [name])))
    have stepped := step_eq_ok (keeps.directories directory inside) (last_ne_nil whole last) entryName short
      (by rw [entry?_put tree below, if_pos rfl]; rfl)
    have found := walk_eq_ok_of_last last (keeps.walk walked) stepped
    exact ⟨directory, name, pieces_of_route routed ▸ last, keeps, bind_eq_ok.mpr ⟨route, routed, found⟩, rfl⟩

end FileTree

end SchemaDiagram

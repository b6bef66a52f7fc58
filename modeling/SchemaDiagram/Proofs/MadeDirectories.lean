import Mathlib.Data.List.DropRight
import SchemaDiagram.Proofs.WrittenPlaces

namespace SchemaDiagram

open Text

namespace FileTree

/-- Places that the first pieces of a path lead to: the directories above it, and its own. -/
def LeadsThrough (tree : FileTree) (path : Text) (place : Place) : Prop :=
  ∃ route n, tree.route path = .ok route ∧ tree.walk { route with pieces := route.pieces.take n } = .ok place

theorem Keeps.leadsThrough {tree grown : FileTree} (keeps : tree.Keeps grown) {path : Text} {place : Place}
    (leads : tree.LeadsThrough path place) : grown.LeadsThrough path place := by
  obtain ⟨route, n, routed, walked⟩ := leads
  exact ⟨route, n, (keeps.route path).trans routed, keeps.walk walked⟩

theorem dropSlashes_dropSlashes (route : Route) : dropSlashes (dropSlashes route) = dropSlashes route :=
  congrArg (Route.mk route.start) (List.rdropWhile_idempotent _ _)

theorem dropSlashes_isPrefix (route : Route) : (dropSlashes route).pieces <+: route.pieces :=
  List.rdropWhile_prefix _ _

/-- A directory that is made was missing, and its route leads to it from then on. -/
theorem createDirectory_eq_ok {tree after : FileTree} {route : Route} (made : tree.createDirectory route = .ok after) :
    ∃ place, place ≠ [] ∧ tree.entry? place = none ∧ after = tree.put place .directory ∧ tree.Keeps after ∧
      after.walk (dropSlashes route) = .ok place := by
  obtain ⟨directory, parent, inDirectory⟩ := bind_eq_ok.mp made
  cases last : (dropSlashes route).pieces.getLast? with
  | none =>
    rw [last] at inDirectory
    cases inDirectory
  | some name =>
    rw [last] at inDirectory
    dsimp only at inDirectory
    split at inDirectory
    · cases inDirectory
    rename_i entryName
    split at inDirectory
    · cases inDirectory
    rename_i short
    split at inDirectory
    · cases inDirectory
    rename_i missing
    obtain rfl := Except.ok.inj inDirectory
    rw [Bool.not_eq_true', Bool.not_eq_false] at entryName
    rw [Option.not_isSome_iff_eq_none] at missing
    obtain ⟨walked, inside⟩ := parentDirectory_eq_ok parent
    have below : directory ++ [name] ≠ [] := List.append_ne_nil_of_right_ne_nil _ (List.cons_ne_nil _ _)
    have noDirectory : tree.isDirectory (directory ++ [name]) = false := by rw [isDirectory, missing]; rfl
    have keeps := keeps_put below noDirectory TreeEntry.directory
    have nonempty : name ≠ [] := last_ne_nil (dropSlashes_dropSlashes route) last
    have stepped := step_eq_ok (keeps.directories directory inside) nonempty entryName short
      (by rw [entry?_put tree below, if_pos rfl]; rfl)
    exact ⟨directory ++ [name], below, missing, rfl, keeps, walk_eq_ok_of_last last (keeps.walk walked) stepped⟩

/-- Nothing has changed but that directories are there which were missing, and some of the routes lead to them. -/
structure Builds (routes : List Route) (tree after : FileTree) : Prop where
  keeps : tree.Keeps after
  built : ∀ place, after.entry? place ≠ tree.entry? place → tree.entry? place = none ∧
    after.entry? place = some .directory ∧ ∃ route ∈ routes, after.walk (dropSlashes route) = .ok place

namespace Builds

theorem refl (routes : List Route) (tree : FileTree) : Builds routes tree tree :=
  ⟨Keeps.refl tree, fun _ changed => absurd rfl changed⟩

theorem mono {routes more : List Route} (among : routes ⊆ more) {tree after : FileTree}
    (builds : Builds routes tree after) : Builds more tree after := by
  refine ⟨builds.keeps, fun place changed => ?_⟩
  obtain ⟨missing, directory, route, member, walked⟩ := builds.built place changed
  exact ⟨missing, directory, route, among member, walked⟩

theorem trans {routes : List Route} {tree mid after : FileTree} (first : Builds routes tree mid)
    (second : Builds routes mid after) : Builds routes tree after := by
  refine ⟨first.keeps.trans second.keeps, fun place changed => ?_⟩
  by_cases early : mid.entry? place = tree.entry? place
  · rw [← early] at changed ⊢
    exact second.built place changed
  · obtain ⟨missing, directory, route, member, walked⟩ := first.built place early
    have kept : after.entry? place = some .directory := by
      by_contra other
      have none := (second.built place fun same => other (same.trans directory)).1
      cases directory.symm.trans none
    exact ⟨missing, kept, route, member, second.keeps.walk walked⟩

end Builds

theorem ensureDirectory_eq_ok {tree after : FileTree} {route : Route}
    (ensured : tree.ensureDirectory route = .ok after) : Builds [route] tree after := by
  rw [ensureDirectory] at ensured
  split at ensured
  · rename_i made
    obtain rfl := Except.ok.inj ensured
    obtain ⟨place, below, missing, rfl, keeps, walked⟩ := createDirectory_eq_ok made
    refine ⟨keeps, fun p changed => ?_⟩
    rw [entry?_put tree below] at changed ⊢
    split at changed
    · rename_i here
      rw [here, if_pos rfl]
      exact ⟨missing, rfl, route, List.mem_singleton_self _, walked⟩
    · exact absurd rfl changed
  · split at ensured
    · obtain rfl := Except.ok.inj ensured
      exact Builds.refl _ _
    · cases ensured

/-- Whether or not all directories of the routes could be made. -/
theorem builds_createDirectories (routes : List Route) (tree : FileTree) :
    Builds routes tree (tree.createDirectories routes).2 := by
  induction routes generalizing tree with
  | nil => exact Builds.refl _ _
  | cons route above ih =>
    have ensured {start made : FileTree} (there : start.ensureDirectory route = .ok made) :
        Builds (route :: above) start made :=
      (ensureDirectory_eq_ok there).mono (List.cons_subset_cons _ (List.nil_subset _))
    have later := (ih tree).mono (List.subset_cons_self route above)
    rw [createDirectories]
    split
    · split
      · rename_i grown raised
        rw [raised] at later
        refine later.trans ?_
        dsimp only
        split
        · exact ensured ‹_›
        · exact Builds.refl _ _
      · exact later
    · dsimp only
      split
      · exact ensured ‹_›
      · exact Builds.refl _ _

/-- A piece of a path that names something. -/
def isVisible (piece : Text) : Bool := piece ≠ [] && piece ≠ txt "."

theorem step_of_not_visible {tree : FileTree} {place : Place} (inside : tree.isDirectory place) {piece : Text}
    (hidden : isVisible piece = false) : tree.step place piece = .ok place := by
  have here : piece = [] ∨ piece = txt "." := by
    simpa [isVisible, imp_iff_not_or] using hidden
  rw [step, inside, Bool.not_true, if_neg Bool.false_ne_true, if_pos here]

/-- Pieces that name nothing can be left out of a walk. -/
theorem exists_walk_take {tree : FileTree} {start place : Place} {pieces : List Text} {k : Nat}
    (walked : tree.walk ⟨start, (pieces.filter isVisible).take k⟩ = .ok place) :
    ∃ n, tree.walk ⟨start, pieces.take n⟩ = .ok place := by
  induction pieces generalizing start k with
  | nil => exact ⟨k, walked⟩
  | cons piece pieces ih =>
    by_cases visible : isVisible piece
    · rw [List.filter_cons_of_pos visible] at walked
      cases k with
      | zero => exact ⟨0, walked⟩
      | succ k =>
        obtain ⟨next, stepped, later⟩ := bind_eq_ok.mp walked
        obtain ⟨n, found⟩ := ih later
        exact ⟨n + 1, bind_eq_ok.mpr ⟨next, stepped, found⟩⟩
    · rw [List.filter_cons_of_neg visible] at walked
      obtain ⟨n, found⟩ := ih walked
      cases named : pieces.take n with
      | nil =>
        rw [named] at found
        exact ⟨0, found⟩
      | cons first rest =>
        rw [named] at found
        obtain ⟨next, stepped, -⟩ := bind_eq_ok.mp found
        have passed := step_of_not_visible (isDirectory_of_step stepped) (Bool.eq_false_iff.mpr visible)
        refine ⟨n + 1, ?_⟩
        rw [List.take_succ_cons, named]
        exact bind_eq_ok.mpr ⟨start, passed, found⟩

theorem mem_lineage {route above : Route} (member : above ∈ lineage route) : above.start = route.start ∧
    (above.pieces <+: route.pieces ∨ above.pieces <+: route.pieces.filter isVisible) := by
  rcases List.mem_cons.mp member with rfl | shorter
  · exact ⟨rfl, Or.inl (List.prefix_refl _)⟩
  · obtain ⟨n, -, rfl⟩ := List.mem_map.mp shorter
    exact ⟨rfl, Or.inr ((List.take_prefix _ _).trans (List.dropLast_prefix _))⟩

theorem leadsThrough_of_lineage {tree : FileTree} {path : Text} {route above : Route} {place : Place}
    (routed : tree.route path = .ok route) (member : above ∈ lineage route)
    (walked : tree.walk (dropSlashes above) = .ok place) : tree.LeadsThrough path place := by
  obtain ⟨start, whole | visible⟩ := mem_lineage member
  · refine ⟨route, (dropSlashes above).pieces.length, routed, ?_⟩
    rw [← List.prefix_iff_eq_take.mp ((dropSlashes_isPrefix above).trans whole), ← start]
    exact walked
  · have walkedVisible : tree.walk ⟨route.start, (route.pieces.filter isVisible).take
        (dropSlashes above).pieces.length⟩ = .ok place := by
      rw [← List.prefix_iff_eq_take.mp ((dropSlashes_isPrefix above).trans visible), ← start]
      exact walked
    obtain ⟨n, found⟩ := exists_walk_take walkedVisible
    exact ⟨route, n, routed, found⟩

/-- Making the directory of a path makes directories that the path leads through, and changes nothing else, also where
it fails. -/
theorem createPath_changes (tree : FileTree) (path : Text) :
    tree.Keeps (tree.createPath path).2 ∧ ∀ place, FileTree.entry? (tree.createPath path).2 place ≠ tree.entry? place →
      tree.entry? place = none ∧ FileTree.entry? (tree.createPath path).2 place = some .directory ∧
        (tree.createPath path).2.LeadsThrough path place := by
  rw [createPath]
  split
  · exact ⟨Keeps.refl tree, fun _ changed => absurd rfl changed⟩
  split
  · rename_i route routed
    have builds := builds_createDirectories (lineage route) tree
    refine ⟨builds.keeps, fun place changed => ?_⟩
    obtain ⟨missing, directory, above, member, walked⟩ := builds.built place changed
    exact ⟨missing, directory, leadsThrough_of_lineage ((builds.keeps.route path).trans routed) member walked⟩
  · exact ⟨Keeps.refl tree, fun _ changed => absurd rfl changed⟩

end FileTree

end SchemaDiagram

import SchemaDiagram.Proofs.AcceptedValues
import SchemaDiagram.Proofs.MadeDirectories
import SchemaDiagram.Proofs.SplitCommand

namespace SchemaDiagram

open Text

/-- A name that an entry of a directory can have, and that leads to no other place. -/
def IsSafeName (name : Text) : Prop := name ≠ [] ∧ '/' ∉ name ∧ name ≠ txt "." ∧ name ≠ txt ".."

theorem isPlainFileName_iff {name : Text} : isPlainFileName name ↔ IsSafeName name := by
  constructor
  · intro plain
    refine ⟨?_, slash_not_mem_of_plain plain, ?_, ?_⟩
    all_goals
      rintro rfl
      exact absurd plain (by decide)
  · rintro ⟨nonempty, inside, notHere, notUp⟩
    have alone : pathPieces name = [name] := List.splitOn_eq_singleton inside
    have noRoot : name.head? ≠ some '/' := fun root => inside (List.mem_of_head? root)
    have read : PathPart.ofPiece name = some (.name name) := by
      rw [PathPart.ofPiece, if_neg (not_or.mpr ⟨nonempty, notHere⟩), if_neg notUp]
    refine decide_eq_true ?_
    rw [pathParts, alone, if_neg noRoot, List.head?_singleton, if_neg fun same => notHere (Option.some.inj same),
      List.filterMap_cons_some read, List.filterMap_nil]

theorem checkNames_ok_iff_safe {files : List SchemaFile} :
    checkNames files = .ok () ↔ ∀ f ∈ files, IsSafeName f.name := by
  simp only [checkNames_eq_ok_iff, isPlainFileName_iff]

/-- The first of the names that are not safe is refused. -/
theorem checkNames_eq_error_iff {files : List SchemaFile} {e : Error} :
    checkNames files = .error e ↔ ∃ front f back, files = front ++ f :: back ∧
      (∀ g ∈ front, IsSafeName g.name) ∧ ¬ IsSafeName f.name ∧ e = .unsafeFileName f.name := by
  have found (f : SchemaFile) : files.find? (fun f => !isPlainFileName f.name) = some f ↔
      ∃ front back, files = front ++ f :: back ∧ (∀ g ∈ front, IsSafeName g.name) ∧ ¬ IsSafeName f.name := by
    simp only [List.find?_eq_some_iff_append, ← isPlainFileName_iff, Bool.not_not, Bool.not_eq_true',
      Bool.not_eq_true]
    tauto
  rw [checkNames]
  constructor
  · intro refused
    split at refused
    · rename_i f first
      obtain ⟨front, back, split, safe, unsafeName⟩ := (found f).mp first
      exact ⟨front, f, back, split, safe, unsafeName, (Except.error.inj refused).symm⟩
    · cases refused
  · rintro ⟨front, f, back, split, safe, unsafeName, rfl⟩
    rw [(found f).mpr ⟨front, back, split, safe, unsafeName⟩]

namespace FileTree

theorem step_of_safe {tree : FileTree} {place next : Place} {name : Text} (safe : IsSafeName name)
    (stepped : tree.step place name = .ok next) : next = place ++ [name] := by
  obtain ⟨nonempty, -, notHere, notUp⟩ := safe
  rw [step, isDirectory_of_step stepped, Bool.not_true, if_neg Bool.false_ne_true,
    if_neg (not_or.mpr ⟨nonempty, notHere⟩), if_neg notUp] at stepped
  split at stepped
  · cases stepped
  split at stepped
  · exact (Except.ok.inj stepped).symm
  · cases stepped

/-- The front of a path that can be followed can be followed too. -/
theorem route_of_append {tree : FileTree} {path rest : Text} {route : Route} (given : path ≠ [])
    (routed : tree.route (path ++ rest) = .ok route) :
    tree.route path = .ok { route with pieces := pathPieces path } := by
  rw [FileTree.route] at routed
  split at routed
  · cases routed
  rename_i plain
  split at routed
  · cases routed
  split at routed
  · cases routed
  rename_i short
  obtain rfl := Except.ok.inj routed
  have plainFront : ¬ path.contains '\x00' := fun bad =>
    plain (List.contains_iff_mem.mpr (List.mem_append_left rest (List.contains_iff_mem.mp bad)))
  have shortFront : ¬ longestPath < byteSize path := by
    rw [byteSize_append] at short
    omega
  rw [FileTree.route, if_neg plainFront, if_neg given, if_neg shortFront, List.head?_append_of_ne_nil _ given]

theorem walk_front {tree : FileTree} {start top : Place} {front : List Text} {name : Text} (safe : IsSafeName name)
    (walked : tree.walk ⟨start, front ++ [name]⟩ = .ok (top ++ [name])) :
    tree.walk ⟨start, front⟩ = .ok top ∧ tree.isDirectory top := by
  rw [walk, List.foldlM_append] at walked
  obtain ⟨parent, toParent, toEnd⟩ := bind_eq_ok.mp walked
  obtain ⟨next, stepped, same⟩ := bind_eq_ok.mp toEnd
  obtain rfl := Except.ok.inj same
  obtain rfl := List.append_cancel_right (step_of_safe safe stepped)
  exact ⟨toParent, isDirectory_of_step stepped⟩

/-- The path of a file in a directory goes on from where that of the directory leads to. -/
theorem placeOf_directory {tree : FileTree} {directory name : Text} {top : Place} (given : directory ≠ [])
    (safe : IsSafeName name) (found : tree.placeOf (joinPath directory name) = .ok (top ++ [name])) :
    tree.placeOf directory = .ok top := by
  obtain ⟨⟨start, pieces⟩, routed, walked⟩ := bind_eq_ok.mp found
  obtain rfl : pieces = _ := pieces_of_route routed
  rw [joinPath, List.append_assoc] at routed walked
  refine bind_eq_ok.mpr ⟨_, route_of_append given routed, ?_⟩
  split at walked
  · rename_i ends
    obtain ⟨front, rfl⟩ := List.getLast?_eq_some_iff.mp (ends.resolve_left given)
    rw [List.append_assoc, List.nil_append, List.singleton_append, pathPieces_append_name front safe.2.1] at walked
    obtain ⟨toTop, inside⟩ := walk_front safe walked
    -- The slash at the end of the path leads to the directory itself.
    rw [pathPieces_append_name front List.not_mem_nil, walk, List.foldlM_append]
    exact bind_eq_ok.mpr ⟨top, toTop, bind_eq_ok.mpr ⟨top, step_of_not_visible inside (by decide), rfl⟩⟩
  · exact (walk_front safe (pathPieces_append_name directory safe.2.1 ▸ walked)).1

/-- A tree that differs from another one in nothing but directories that were missing, which a path leads through, and
entries with some names in the directory where the path ends. -/
structure Confined (directory : Text) (names : List Text) (tree after : FileTree) : Prop where
  keeps : tree.Keeps after
  changed : ∀ place, after.entry? place ≠ tree.entry? place →
    (tree.entry? place = none ∧ after.entry? place = some .directory ∧ after.LeadsThrough directory place) ∨
      ∃ top, ∃ name ∈ names, after.placeOf directory = .ok top ∧ place = top ++ [name]

namespace Confined

variable {directory : Text} {names : List Text} {tree mid after : FileTree}

theorem refl (directory : Text) (names : List Text) (tree : FileTree) : Confined directory names tree tree :=
  ⟨Keeps.refl tree, fun _ changed => absurd rfl changed⟩

theorem mono {more : List Text} (among : names ⊆ more) (confined : Confined directory names tree after) :
    Confined directory more tree after := by
  refine ⟨confined.keeps, fun place changed => (confined.changed place changed).imp_right ?_⟩
  rintro ⟨top, name, member, found, rfl⟩
  exact ⟨top, name, among member, found, rfl⟩

theorem trans (first : Confined directory names tree mid) (second : Confined directory names mid after) :
    Confined directory names tree after := by
  refine ⟨first.keeps.trans second.keeps, fun place changed => ?_⟩
  by_cases late : after.entry? place = mid.entry? place
  · rw [late] at changed ⊢
    refine (first.changed place changed).imp ?_ ?_
    · rintro ⟨missing, made, leads⟩
      exact ⟨missing, made, second.keeps.leadsThrough leads⟩
    · rintro ⟨top, name, member, found, rfl⟩
      exact ⟨top, name, member, second.keeps.placeOf found, rfl⟩
  · rcases second.changed place late with ⟨missing, made, leads⟩ | inside
    · -- What is missing in between was so before, as nothing goes.
      have before : tree.entry? place = none := by
        by_contra known
        have present := first.keeps.present place (Option.isSome_iff_ne_none.mpr known)
        rw [missing] at present
        cases present
      exact Or.inl ⟨before, made, leads⟩
    · exact Or.inr inside

end Confined

theorem confined_createPath (tree : FileTree) (directory : Text) (names : List Text) :
    Confined directory names tree (tree.createPath directory).2 := by
  obtain ⟨keeps, built⟩ := createPath_changes tree directory
  exact ⟨keeps, fun place changed => Or.inl (built place changed)⟩

theorem confined_write {tree after : FileTree} {directory name content : Text} (given : directory ≠ [])
    (safe : IsSafeName name) (written : tree.write (joinPath directory name) content = .ok after) :
    Confined directory [name] tree after := by
  obtain ⟨parent, last, atEnd, keeps, found, rfl⟩ := write_eq_ok written
  obtain rfl : name = last := Option.some.inj ((pathPieces_joinPath safe.2.1 directory).symm.trans atEnd)
  have below : parent ++ [name] ≠ [] := List.append_ne_nil_of_right_ne_nil _ (List.cons_ne_nil _ _)
  refine ⟨keeps, fun place changed => Or.inr ?_⟩
  refine ⟨parent, name, List.mem_singleton_self name, placeOf_directory given safe found, ?_⟩
  by_contra elsewhere
  rw [entry?_put tree below, if_neg elsewhere] at changed
  exact changed rfl

end FileTree

open FileTree

/-- Also where one of the files cannot be written. -/
theorem confined_writeFiles {directory : Text} (given : directory ≠ []) {files : List SchemaFile}
    (safe : ∀ f ∈ files, IsSafeName f.name) (tree : FileTree) :
    Confined directory (files.map SchemaFile.name) tree
      ((writeFiles FileTree.access directory files).run.run tree).2 := by
  induction files generalizing tree with
  | nil => exact Confined.refl _ _ tree
  | cons f later ih =>
    have later := ih fun g inLater => safe g (List.mem_cons_of_mem f inLater)
    rw [writeFiles, run_bind, run_writeOutput]
    cases written : tree.write (joinPath directory f.name) f.content with
    | error e => exact Confined.refl _ _ tree
    | ok mid =>
      have first := confined_write given (safe f List.mem_cons_self) written
      exact (first.mono (List.cons_subset_cons _ (List.nil_subset _))).trans
        ((later mid).mono (List.subset_cons_self _ _))

/-- Nothing is written before the names have been looked at. -/
theorem run_runSplit (input directory : Text) (tree : FileTree) :
    (runSplit FileTree.access input directory).run.run tree =
      match tree.read input with
      | .error e => (.error (.unreadable input e), tree)
      | .ok text =>
        match checkNames (splitFiles text) with
        | .error e => (.error (.refused e), tree)
        | .ok () =>
          match tree.createPath directory with
          | (.error e, made) => (.error (.notCreated directory e), made)
          | (.ok (), made) => (writeFiles FileTree.access directory (splitFiles text)).run.run made := by
  rw [runSplit, run_bind, run_readSchema]
  cases tree.read input with
  | error e => rfl
  | ok text =>
    dsimp only [Except.mapError]
    cases checkNames (splitFiles text) with
    | error e => rfl
    | ok =>
      have answer : FileTree.access.createPath directory tree = tree.createPath directory := rfl
      dsimp only
      rw [run_bind, run_lift, answer]
      rcases tree.createPath directory with ⟨_ | _, made⟩ <;> rfl

theorem confined_runSplit {input directory text : Text} (given : directory ≠ []) {tree : FileTree}
    (read : tree.read input = .ok text) :
    Confined directory ((splitFiles text).map SchemaFile.name) tree
      ((runSplit FileTree.access input directory).run.run tree).2 := by
  rw [run_runSplit, read]
  dsimp only
  cases checked : checkNames (splitFiles text) with
  | error e => exact Confined.refl _ _ tree
  | ok =>
    have made := confined_createPath tree directory ((splitFiles text).map SchemaFile.name)
    have written := confined_writeFiles given (checkNames_ok_iff_safe.mp checked) (tree.createPath directory).2
    dsimp only
    split
    · rename_i failed
      rwa [failed] at made
    · rename_i mid created
      rw [created] at made written
      exact made.trans written

theorem runTask_split (input directory : Text) (output : Option Text) (tree : FileTree) :
    ((runTask FileTree.access output (.split input directory)).run.run tree) =
      ((runSplit FileTree.access input directory).run.run tree).map (·.map fun _ => []) id := by
  rw [runTask, run_bind]
  rcases (runSplit FileTree.access input directory).run.run tree with ⟨_ | _, mid⟩ <;> rfl

/-- The names that are accepted are those of entries of a directory. A schema is split into files of such names in the
directory that was asked for, and nothing else changes but that directories on the way to it are made. Where a name is
refused, nothing changes at all. -/
theorem split_stays_in_directory {arguments : List Text} {input directory : Text} {output : Option Text}
    {tree after : FileTree} {outcome : Outcome}
    (asked : Invocation.ofArguments arguments = some (.run (.split input directory) output))
    (ran : (runCommand FileTree.access arguments).run tree = (outcome, after)) :
    (∀ files, checkNames files = .ok () ↔ ∀ f ∈ files, IsSafeName f.name) ∧
      (∀ files e, checkNames files = .error e ↔ ∃ front f back, files = front ++ f :: back ∧
        (∀ g ∈ front, IsSafeName g.name) ∧ ¬ IsSafeName f.name ∧ e = .unsafeFileName f.name) ∧
      match tree.read input with
      | .error _ => outcome.exitCode = 1 ∧ after = tree
      | .ok text =>
        Confined directory ((splitFiles text).map SchemaFile.name) tree after ∧
          ((∃ f ∈ splitFiles text, ¬ IsSafeName f.name) → outcome.exitCode = 1 ∧ after = tree) := by
  refine ⟨fun files => checkNames_ok_iff_safe, fun files e => checkNames_eq_error_iff, ?_⟩
  rw [run_runCommand asked, runTask_split] at ran
  have exits : Outcome.ofResult (((runSplit FileTree.access input directory).run.run tree).1.map fun _ => []) =
    outcome := congrArg Prod.fst ran
  have leaves : ((runSplit FileTree.access input directory).run.run tree).2 = after := congrArg Prod.snd ran
  cases read : tree.read input with
  | error e =>
    rw [run_runSplit, read] at exits leaves
    exact ⟨exits ▸ rfl, leaves.symm⟩
  | ok text =>
    refine ⟨leaves ▸ confined_runSplit (directory_ne_nil asked) read, ?_⟩
    rintro ⟨f, inFiles, unsafeName⟩
    cases checked : checkNames (splitFiles text) with
    | ok => exact absurd (checkNames_ok_iff_safe.mp checked f inFiles) unsafeName
    | error e =>
      obtain ⟨-, g, -, -, -, -, rfl⟩ := checkNames_eq_error_iff.mp checked
      rw [run_runSplit, read] at exits leaves
      dsimp only at exits leaves
      rw [checked] at exits leaves
      exact ⟨exits ▸ rfl, leaves.symm⟩

/-- The second file would lie above the directory. -/
def escapingText : Text :=
  txt "model A {
}
// === ../../other.prisma ===
model B {
}
"

theorem split_stays_in_directory_escapingText :
    ((runCommand FileTree.access splitArguments).run (treeWith escapingText)).1.exitCode = 1 ∧
      ((runCommand FileTree.access splitArguments).run (treeWith escapingText)).2 = treeWith escapingText := by
  have asked : Invocation.ofArguments splitArguments =
      some (.run (.split (txt "in.prisma") (txt "out")) none) := by decide +kernel
  have read : (treeWith escapingText).read (txt "in.prisma") = .ok escapingText := by decide +kernel
  have ran := Prod.eta ((runCommand FileTree.access splitArguments).run (treeWith escapingText))
  have stays := (split_stays_in_directory asked ran.symm).2.2
  rw [read] at stays
  refine stays.2 ⟨⟨txt "../../other.prisma", txt "model B {
}
"⟩, by decide +kernel, ?_⟩
  rintro ⟨-, inside, -⟩
  exact inside (by decide)

end SchemaDiagram

import SchemaDiagram.Proofs.TaskRuns

namespace SchemaDiagram

open Text

theorem checkNames_eq_ok_iff {files : List SchemaFile} :
    checkNames files = .ok () ↔ ∀ f ∈ files, isPlainFileName f.name := by
  rw [checkNames]
  constructor
  · intro checked f inFiles
    split at checked
    · cases checked
    · rename_i none
      simpa using List.find?_eq_none.mp none f inFiles
  · intro plain
    have none : files.find? (fun f => !isPlainFileName f.name) = none :=
      List.find?_eq_none.mpr fun f inFiles => by simp [plain f inFiles]
    rw [none]

/-- The last of the files with a name. -/
def lastNamed? (name : Text) (files : List SchemaFile) : Option SchemaFile :=
  (files.filter (·.name = name)).getLast?

theorem lastNamed?_cons (name : Text) (f : SchemaFile) (later : List SchemaFile) :
    lastNamed? name (f :: later) = (lastNamed? name later).or (if f.name = name then some f else none) := by
  by_cases named : f.name = name
  · have filtered : (f :: later).filter (·.name = name) = f :: later.filter (·.name = name) :=
      List.filter_cons_of_pos (decide_eq_true named)
    rw [lastNamed?, filtered, List.getLast?_cons, if_pos named, lastNamed?]
    cases (later.filter (·.name = name)).getLast? <;> rfl
  · have filtered : (f :: later).filter (·.name = name) = later.filter (·.name = name) :=
      List.filter_cons_of_neg (by simpa using named)
    rw [lastNamed?, filtered, if_neg named, Option.or_none, lastNamed?]

theorem lastNamed?_eq_none_iff {name : Text} {files : List SchemaFile} :
    lastNamed? name files = none ↔ name ∉ files.map SchemaFile.name := by
  simp [lastNamed?]

theorem mem_of_lastNamed? {name : Text} {files : List SchemaFile} {last : SchemaFile}
    (found : lastNamed? name files = some last) : last ∈ files ∧ last.name = name := by
  have member := List.mem_filter.mp (List.mem_of_getLast? found)
  exact ⟨member.1, of_decide_eq_true member.2⟩

def TreeEntry.isDevice : TreeEntry → Bool
  | .device _ => true
  | _ => false

namespace FileTree

/-- Writes files into a directory, one after another. -/
def writeAll (directory : Text) : List SchemaFile → FileTree → Except FileError FileTree
  | [], tree => .ok tree
  | f :: later, tree => do writeAll directory later (← tree.write (joinPath directory f.name) f.content)

/-- A path leads to a file with a text, or to a device, whatever it was given. -/
def Took (tree : FileTree) (path content : Text) : Prop :=
  ∃ place, tree.placeOf path = .ok place ∧
    (tree.entry? place = some (.file (.text content)) ∨ ∃ gathered, tree.entry? place = some (.device gathered))

/-- Whether a path leads to a device. -/
def leadsToDevice (tree : FileTree) (path : Text) : Bool :=
  match tree.placeOf path with
  | .ok place => (tree.entry? place).any TreeEntry.isDevice
  | .error _ => false

theorem Took.read {tree : FileTree} {path content : Text} (took : tree.Took path content) :
    tree.read path = .ok (if tree.leadsToDevice path then [] else content) := by
  obtain ⟨place, found, entry⟩ := took
  obtain ⟨route, routed, walked⟩ := bind_eq_ok.mp found
  have leads : tree.leadsToDevice path = (tree.entry? place).any TreeEntry.isDevice := by rw [leadsToDevice, found]
  rw [leads]
  rcases entry with file | ⟨gathered, device⟩
  · rw [file]
    exact bind_eq_ok.mpr ⟨route, routed, bind_eq_ok.mpr ⟨place, walked, by rw [file]; rfl⟩⟩
  · rw [device]
    exact bind_eq_ok.mpr ⟨route, routed, bind_eq_ok.mpr ⟨place, walked, by rw [device]; rfl⟩⟩

theorem written_file_or_device (content : Text) (before : Option TreeEntry) :
    TreeEntry.written content before = .file (.text content) ∨
      ∃ gathered, TreeEntry.written content before = .device gathered := by
  rw [TreeEntry.written.eq_def]
  split
  · exact Or.inr ⟨_, rfl⟩
  · exact Or.inl rfl

/-- Writing a file into a directory, where its name is the last piece of its path, changes the entry of a place of
that name, and the path leads there. -/
theorem write_joinPath {tree after : FileTree} {directory name content : Text} (plain : '/' ∉ name)
    (written : tree.write (joinPath directory name) content = .ok after) :
    tree.Keeps after ∧ ∃ place, place.getLast? = some name ∧ after.placeOf (joinPath directory name) = .ok place ∧
      ((after.entry? place = some (.file (.text content)) ∨
        ∃ gathered, after.entry? place = some (.device gathered)) ∧
      ∀ p, p ≠ place → after.entry? p = tree.entry? p) := by
  obtain ⟨parent, last, atEnd, keeps, found, rfl⟩ := write_eq_ok written
  obtain rfl : name = last := Option.some.inj ((pathPieces_joinPath plain directory).symm.trans atEnd)
  have below : parent ++ [name] ≠ [] := List.append_ne_nil_of_right_ne_nil _ (List.cons_ne_nil _ _)
  refine ⟨keeps, parent ++ [name], List.getLast?_concat, found, ?_, ?_⟩
  · rw [entry?_put tree below, if_pos rfl]
    exact (written_file_or_device content _).imp (congrArg some) fun ⟨gathered, device⟩ => ⟨gathered, congrArg some device⟩
  · intro p other
    rw [entry?_put tree below, if_neg other]

/-- A run of writes keeps what lies at places of other names, and a path to one of the files took the last content
of its name. -/
theorem writeAll_eq_ok {directory : Text} {files : List SchemaFile} (plain : ∀ f ∈ files, '/' ∉ f.name)
    {tree after : FileTree} (written : writeAll directory files tree = .ok after) :
    tree.Keeps after ∧
      (∀ place name, place.getLast? = some name → name ∉ files.map SchemaFile.name →
        after.entry? place = tree.entry? place) ∧
      ∀ name last, lastNamed? name files = some last → after.Took (joinPath directory name) last.content := by
  induction files generalizing tree with
  | nil =>
    obtain rfl := Except.ok.inj written
    refine ⟨Keeps.refl _, fun _ _ _ _ => rfl, ?_⟩
    intro name last found
    cases found
  | cons f later ih =>
    obtain ⟨mid, first, rest⟩ := bind_eq_ok.mp written
    obtain ⟨keeps, place, atEnd, found, entry, others⟩ := write_joinPath (plain f List.mem_cons_self) first
    obtain ⟨keepsLater, othersLater, tookLater⟩ := ih (fun g inLater => plain g (List.mem_cons_of_mem _ inLater)) rest
    refine ⟨keeps.trans keepsLater, ?_, ?_⟩
    · intro p name named notThere
      rw [List.map_cons, List.mem_cons, not_or] at notThere
      have elsewhere : p ≠ place := by
        rintro rfl
        exact notThere.1 (Option.some.inj (named.symm.trans atEnd))
      exact (othersLater p name named notThere.2).trans (others p elsewhere)
    · intro name last lastFound
      rw [lastNamed?_cons] at lastFound
      -- A later file of the same name writes over this one.
      cases another : lastNamed? name later with
      | some other =>
        rw [another, Option.some_or] at lastFound
        exact Option.some.inj lastFound ▸ tookLater name other another
      | none =>
        rw [another, Option.none_or] at lastFound
        split at lastFound
        · rename_i named
          obtain rfl := Option.some.inj lastFound
          subst named
          have kept := othersLater place f.name atEnd (lastNamed?_eq_none_iff.mp another)
          exact ⟨place, keepsLater.placeOf found, kept ▸ entry⟩
        · cases lastFound

theorem read_of_writeAll {directory : Text} {files : List SchemaFile} (plain : ∀ f ∈ files, '/' ∉ f.name)
    {tree after : FileTree} (written : writeAll directory files tree = .ok after) {f : SchemaFile} (member : f ∈ files) :
    ∃ last, lastNamed? f.name files = some last ∧ after.read (joinPath directory f.name) =
      .ok (if after.leadsToDevice (joinPath directory f.name) then [] else last.content) := by
  have known : lastNamed? f.name files ≠ none := fun none =>
    lastNamed?_eq_none_iff.mp none (List.mem_map_of_mem member)
  obtain ⟨last, found⟩ := Option.ne_none_iff_exists'.mp known
  exact ⟨last, found, ((writeAll_eq_ok plain written).2.2 f.name last found).read⟩

/-- Every file is there just where files of one name are the same, and those on devices empty. -/
theorem read_writeAll_iff {directory : Text} {files : List SchemaFile} (plain : ∀ f ∈ files, '/' ∉ f.name)
    {tree after : FileTree} (written : writeAll directory files tree = .ok after) :
    (∀ f ∈ files, after.read (joinPath directory f.name) = .ok f.content) ↔
      ∀ f ∈ files, if after.leadsToDevice (joinPath directory f.name) then f.content = []
        else ∀ g ∈ files, g.name = f.name → g.content = f.content := by
  constructor
  · intro kept f inFiles
    obtain ⟨last, -, readLast⟩ := read_of_writeAll plain written inFiles
    have same := Except.ok.inj (readLast.symm.trans (kept f inFiles))
    split
    · rename_i device
      rw [if_pos device] at same
      exact same.symm
    · intro g sibling named
      have other := kept g sibling
      rw [named] at other
      exact Except.ok.inj (other.symm.trans (kept f inFiles))
  · intro agree f inFiles
    obtain ⟨last, found, readLast⟩ := read_of_writeAll plain written inFiles
    have agreed := agree f inFiles
    rw [readLast]
    split
    · rename_i device
      rw [if_pos device] at agreed
      rw [agreed]
    · rename_i noDevice
      rw [if_neg noDevice] at agreed
      obtain ⟨sibling, named⟩ := mem_of_lastNamed? found
      rw [agreed last sibling named]

end FileTree

theorem returns_writeFiles_iff {directory : Text} {files : List SchemaFile} {tree after : FileTree} :
    Returns (writeFiles FileTree.access directory files) tree () after ↔
      FileTree.writeAll directory files tree = .ok after := by
  induction files generalizing tree with
  | nil =>
    rw [writeFiles, returns_pure_iff, FileTree.writeAll, Except.ok.injEq, and_iff_right rfl]
  | cons f later ih =>
    rw [writeFiles, returns_bind_iff, FileTree.writeAll, bind_eq_ok]
    constructor
    · rintro ⟨⟨⟩, mid, first, rest⟩
      exact ⟨mid, returns_writeOutput_iff.mp first, ih.mp rest⟩
    · rintro ⟨mid, first, rest⟩
      exact ⟨(), mid, returns_writeOutput_iff.mpr first, ih.mpr rest⟩

theorem returns_runSplit_iff {input directory : Text} {tree after : FileTree} :
    Returns (runSplit FileTree.access input directory) tree () after ↔
      ∃ text made, tree.read input = .ok text ∧ checkNames (splitFiles text) = .ok () ∧
        tree.createPath directory = (.ok (), made) ∧
        FileTree.writeAll directory (splitFiles text) made = .ok after := by
  rw [runSplit, returns_bind_iff]
  simp only [returns_readSchema_iff]
  constructor
  · rintro ⟨text, _, ⟨read, rfl⟩, rest⟩
    cases checked : checkNames (splitFiles text) with
    | error e =>
      rw [checked] at rest
      exact absurd rest not_returns_throw
    | ok =>
      rw [checked] at rest
      obtain ⟨answer, made, creating, writing⟩ := returns_bind_iff.mp rest
      have created : tree.createPath directory = (answer, made) := returns_lift_iff.mp creating
      cases answer with
      | error e => exact absurd writing not_returns_throw
      | ok => exact ⟨text, made, read, checked, created, returns_writeFiles_iff.mp writing⟩
  · rintro ⟨text, made, read, checked, created, written⟩
    refine ⟨text, tree, ⟨read, rfl⟩, ?_⟩
    rw [checked]
    exact returns_bind_iff.mpr ⟨.ok (), made, returns_lift_iff.mpr created, returns_writeFiles_iff.mpr written⟩

/-- Where splitting a schema exits with zero, each path in the directory reads as the last file of its name, or as empty
if it leads to a device. So no file is lost just where files of one name are the same, and those on devices empty. -/
theorem split_keeps_files_iff {arguments : List Text} {input directory : Text} {output : Option Text}
    {tree after : FileTree} {outcome : Outcome}
    (asked : Invocation.ofArguments arguments = some (.run (.split input directory) output))
    (ran : (runCommand FileTree.access arguments).run tree = (outcome, after)) (exits : outcome.exitCode = 0) :
    ∃ text, tree.read input = .ok text ∧
      (∀ f ∈ splitFiles text, ∃ last, lastNamed? f.name (splitFiles text) = some last ∧
        after.read (joinPath directory f.name) =
          .ok (if after.leadsToDevice (joinPath directory f.name) then [] else last.content)) ∧
      ((∀ f ∈ splitFiles text, after.read (joinPath directory f.name) = .ok f.content) ↔
        ∀ f ∈ splitFiles text, if after.leadsToDevice (joinPath directory f.name) then f.content = []
          else ∀ g ∈ splitFiles text, g.name = f.name → g.content = f.content) := by
  have zero : ((runCommand FileTree.access arguments).run tree).1.exitCode = 0 := by rwa [ran]
  obtain ⟨printed, returned⟩ := (exitCode_eq_zero_iff asked).mp zero
  rw [ran] at returned
  obtain ⟨⟨⟩, mid, splitting, done⟩ := returns_bind_iff.mp returned
  obtain ⟨-, rfl⟩ := returns_pure_iff.mp done
  obtain ⟨text, made, read, checked, -, written⟩ := returns_runSplit_iff.mp splitting
  have plain := checkNames_eq_ok_iff.mp checked
  have inside : ∀ f ∈ splitFiles text, '/' ∉ f.name := fun f inFiles => slash_not_mem_of_plain (plain f inFiles)
  exact ⟨text, read, fun _ => FileTree.read_of_writeAll inside written, FileTree.read_writeAll_iff inside written⟩

/-- A tree with a schema in its working directory. -/
def treeWith (schema : Text) : FileTree := { entries := [([txt "in.prisma"], .file (.text schema))] }

def splitArguments : List Text := [txt "split", txt "in.prisma", txt "--out", txt "out"]

def blogText : Text := txt "// === post.prisma ===\nmodel Post \x7b\n\x7d\n// === user.prisma ===\nmodel User \x7b\n\x7d\n"

theorem split_keeps_files_blogText :
    ∃ text, (treeWith blogText).read (txt "in.prisma") = .ok text ∧ ∀ f ∈ splitFiles text,
      ((runCommand FileTree.access splitArguments).run (treeWith blogText)).2.read (joinPath (txt "out") f.name) =
        .ok f.content := by
  have asked : Invocation.ofArguments splitArguments =
      some (.run (.split (txt "in.prisma") (txt "out")) none) := by decide +kernel
  have exits : ((runCommand FileTree.access splitArguments).run (treeWith blogText)).1.exitCode = 0 := by
    decide +kernel
  obtain ⟨text, read, -, kept⟩ := split_keeps_files_iff asked (Prod.eta _).symm exits
  have same : text = blogText := Except.ok.inj (read.symm.trans (by decide +kernel))
  subst same
  exact ⟨blogText, read, kept.mpr (by decide +kernel)⟩

/-- The text in front of the separator belongs to the file that the separator names again. -/
def clashingText : Text := txt "model A \x7b\n\x7d\n// === schema.prisma ===\nmodel B \x7b\n\x7d\n"

theorem split_loses_file_clashingText :
    (treeWith clashingText).read (txt "in.prisma") = .ok clashingText ∧
      ((runCommand FileTree.access splitArguments).run (treeWith clashingText)).1.exitCode = 0 ∧
      ⟨txt "schema.prisma", txt "model A \x7b\n\x7d\n"⟩ ∈ splitFiles clashingText ∧
      ((runCommand FileTree.access splitArguments).run (treeWith clashingText)).2.read
        (joinPath (txt "out") (txt "schema.prisma")) = .ok (txt "model B \x7b\n\x7d\n") := by
  decide +kernel

end SchemaDiagram

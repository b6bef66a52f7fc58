import SchemaDiagram.Proofs.DocumentUnion
import SchemaDiagram.Proofs.MergedFiles
import SchemaDiagram.Proofs.OutlineJoin

namespace SchemaDiagram

open Text

/-- A file that is read in a merged text as it is read alone: it holds no separator, leaves no block comment and no
declaration open, and shows nothing behind its last closing brace. -/
structure SchemaFile.IsMergeable (f : SchemaFile) : Prop extends f.IsSeparable where
  terminated : scanEnd .code true f.content ≠ .blockComment
  closed : ∀ d ∈ outline f.content, d.close.isSome
  ends : EndsBlock (mask f.content)

instance (f : SchemaFile) : Decidable f.IsMergeable :=
  decidable_of_iff (f.IsSeparable ∧ scanEnd .code true f.content ≠ .blockComment ∧
      (∀ d ∈ outline f.content, d.close.isSome) ∧ EndsBlock (mask f.content))
    ⟨fun ⟨apart, terminated, closed, ends⟩ => ⟨apart, terminated, closed, ends⟩,
      fun mergeable => ⟨mergeable.toIsSeparable, mergeable.terminated, mergeable.closed, mergeable.ends⟩⟩

/-- Whether the file has a declaration of a model. -/
def SchemaFile.declares (f : SchemaFile) (model : Text) : Bool := (findModel model f.content).isSome

/-- The line that opens a file in a merged text. -/
def SchemaFile.headline (f : SchemaFile) : Text := separatorLine f.name ++ ['\n']

theorem endsBlock_mask_append_blanks {gap : Text} (blank : ∀ c ∈ gap, isBlank c) {t : Text} :
    EndsBlock (mask (t ++ gap)) ↔ EndsBlock (mask t) := by
  obtain ⟨back, masked, white, -⟩ := mask_append_blanks blank t
  rw [masked, endsBlock_append_blanks white]

section

variable {f : SchemaFile} (mergeable : f.IsMergeable)

include mergeable

theorem SchemaFile.IsMergeable.headline : IsSelfContained f.headline ∧ outline f.headline = [] := by
  have inLine : '\n' ∉ txt " === " ++ f.name ++ txt " ===" := by
    simpa [txt] using mergeable.named.oneLine
  have whole : f.headline = txt "//" ++ (txt " === " ++ f.name ++ txt " ===") ++ ['\n'] := by
    simp [SchemaFile.headline, separatorLine, txt]
  rw [whole]
  exact lineComment_isSelfContained inLine

/-- What is written of a file is read as the file. -/
theorem SchemaFile.IsMergeable.written_read :
    IsSelfContained f.written ∧ outline f.written = outline f.content ∧
      sections f.written = sections f.content := by
  obtain ⟨back, content, newlines⟩ := dropEndWhile_split isNewlineChar f.content
  obtain ⟨kept, atKept⟩ : ∃ kept, kept = dropEndWhile isNewlineChar f.content := ⟨_, rfl⟩
  rw [← atKept] at content
  have blank : ∀ c ∈ back, isBlank c := fun c member => isBlank_of_isNewlineChar (newlines c member)
  obtain ⟨-, terminated, closed, ends⟩ := mergeable
  rw [content] at terminated closed ends
  have closedKept := (closed_append_blanks blank).mp closed
  obtain ⟨gap, written, white, tidy⟩ : ∃ gap, f.written = kept ++ gap ∧ (∀ c ∈ gap, isBlank c) ∧ Tidy (kept ++ gap) := by
    rw [SchemaFile.written, ← atKept]
    by_cases empty : kept = []
    · exact ⟨[], by simp [empty], List.forall_mem_nil _, by simpa [empty] using tidy_nil⟩
    · exact ⟨['\n'], by simp [empty], by decide, tidy_append_newline (mt (scanEnd_append_blanks_iff blank kept).mpr terminated)⟩
  obtain ⟨sameOutline, sameSections⟩ := read_append_blanks white closedKept
  obtain ⟨contentOutline, contentSections⟩ := read_append_blanks blank closedKept
  rw [written, content, contentOutline, contentSections]
  have endsKept := (endsBlock_mask_append_blanks blank).mp ends
  exact ⟨⟨tidy, (closed_append_blanks white).mpr closedKept, (endsBlock_mask_append_blanks white).mpr endsKept⟩,
    sameOutline, sameSections⟩

theorem SchemaFile.IsMergeable.sections_render (rest : Text) :
    sections (f.render ++ rest) = sections f.content ++ sections rest := by
  obtain ⟨front, nothing⟩ := mergeable.headline
  obtain ⟨contained, -, same⟩ := mergeable.written_read
  have noSection : sections f.headline = [] := by rw [sections, nothing, List.map_nil]
  rw [f.render_eq, List.append_assoc]
  exact (front.sections_append _).trans (by rw [noSection, List.nil_append, contained.sections_append, same])

theorem SchemaFile.IsMergeable.outline_render (rest : Text) :
    outline (f.render ++ rest) =
      (outline f.content ++ (outline rest).map (·.shift (byteSize f.written))).map (·.shift (byteSize f.headline)) := by
  obtain ⟨front, nothing⟩ := mergeable.headline
  obtain ⟨contained, same, -⟩ := mergeable.written_read
  rw [f.render_eq, List.append_assoc]
  exact (front.outline_append _).trans (by rw [nothing, List.nil_append, contained.outline_append, same])

theorem SchemaFile.IsMergeable.findModel_render (model rest : Text) :
    findModel model (f.render ++ rest) =
      ((findModel model f.content).or ((findModel model rest).map (·.shift (byteSize f.written)))).map
        (·.shift (byteSize f.headline)) := by
  rw [findModel, findDeclaration, mergeable.outline_render, List.find?_map, List.find?_append, List.find?_map]
  rfl

theorem SchemaFile.IsMergeable.start_lt {model : Text} {d : Declaration}
    (found : findModel model f.content = some d) : d.start < byteSize f.written := by
  obtain ⟨-, same, -⟩ := mergeable.written_read
  have member : d ∈ outline f.written := same ▸ List.mem_of_find?_eq_some found
  have lies := Declaration.liesIn member
  exact (lies.start_le_brace.trans_lt lies.brace_lt_stop).trans_le lies.stop_le_size

end

theorem sections_files {files : List SchemaFile} (mergeable : ∀ f ∈ files, f.IsMergeable) :
    sections (files.flatMap SchemaFile.render) = (files.map fun f => sections f.content).flatten := by
  induction files with
  | nil => rfl
  | cons f files ih =>
    obtain ⟨here, rest⟩ := List.forall_mem_cons.mp mergeable
    rw [List.flatMap_cons, here.sections_render, ih rest]
    rfl

theorem fileAt_of_lt {stop offset : Nat} (before : stop < offset) (current : Option Text) (ls : List Text) :
    fileAt stop offset current ls = current := by
  cases ls with
  | nil => rfl
  | cons line later => exact if_pos before

theorem fileAt_shift (n stop offset : Nat) (current : Option Text) (ls : List Text) :
    fileAt (n + stop) (n + offset) current ls = fileAt stop offset current ls := by
  induction ls generalizing offset current with
  | nil => rfl
  | cons line later ih =>
    rw [fileAt, fileAt, Nat.add_assoc, ih]
    simp only [Nat.add_lt_add_iff_left]

/-- Lines without a separator leave the file what it is. -/
theorem fileAt_append {ls : List Text} (plain : ∀ line ∈ ls, separatorName line = none) (stop offset : Nat)
    (current : Option Text) (later : List Text) :
    fileAt stop offset current (ls ++ later) =
      if stop < offset + byteSize ls.flatten then current
      else fileAt stop (offset + byteSize ls.flatten) current later := by
  induction ls generalizing offset with
  | nil =>
    rw [List.nil_append, List.flatten_nil, byteSize_nil, Nat.add_zero]
    split
    · exact fileAt_of_lt ‹_› current later
    · rfl
  | cons line ls ih =>
    obtain ⟨here, rest⟩ := List.forall_mem_cons.mp plain
    rw [List.cons_append, fileAt, here, Option.none_or, ih rest, List.flatten_cons, byteSize_append, ← Nat.add_assoc]
    by_cases before : stop < offset
    · rw [if_pos before, if_pos (by omega)]
    · rw [if_neg before]

/-- Within a file of a merged text its own name is the last one announced. -/
theorem SchemaFile.IsMergeable.fileAt_render {f : SchemaFile} (mergeable : f.IsMergeable) (n : Nat)
    (current : Option Text) (rest : Text) :
    fileAt (byteSize f.headline + n) 0 current (lines (f.render ++ rest)) =
      if n < byteSize f.written then some f.name
      else fileAt n (byteSize f.written) (some f.name) (lines rest) := by
  have separator : separatorName f.headline = some f.name := mergeable.toIsSeparable.separator
  have lined : lines (f.render ++ rest) = f.headline :: (lines f.written ++ lines rest) :=
    mergeable.toIsSeparable.lines_render rest
  have gathered := fileAt_append (fun _ => mergeable.toIsSeparable.written) n 0 (some f.name) (lines rest)
  rw [flatten_lines, Nat.zero_add] at gathered
  rw [lined, fileAt, if_neg (Nat.not_lt_zero _), separator, Option.some_or, Nat.zero_add, ← Nat.add_zero (byteSize f.headline),
    Nat.add_assoc, Nat.zero_add, fileAt_shift, gathered]

/-- Where a model is found in rendered files, the name announced last is that of the first file that declares it. -/
theorem fileAt_files {files : List SchemaFile} (mergeable : ∀ f ∈ files, f.IsMergeable) (model : Text)
    (current : Option Text) :
    (findModel model (files.flatMap SchemaFile.render)).map
        (fun d => fileAt d.start 0 current (lines (files.flatMap SchemaFile.render))) =
      (files.find? (·.declares model)).map fun f => some f.name := by
  induction files generalizing current with
  | nil => rfl
  | cons f files ih =>
    obtain ⟨here, rest⟩ := List.forall_mem_cons.mp mergeable
    rw [List.flatMap_cons, here.findModel_render]
    cases found : findModel model f.content with
    | some d =>
      have declared : f.declares model = true := by rw [SchemaFile.declares, found, Option.isSome_some]
      have first : (f :: files).find? (·.declares model) = some f := List.find?_cons_of_pos declared
      have inside := here.start_lt found
      rw [first]
      simp only [Option.some_or, Option.map_some, Declaration.shift, here.fileAt_render, if_pos inside]
    | none =>
      have undeclared : ¬ f.declares model = true := by
        rw [SchemaFile.declares, found, Option.isSome_none]
        exact Bool.false_ne_true
      have later : (f :: files).find? (·.declares model) = files.find? (·.declares model) :=
        List.find?_cons_of_neg undeclared
      rw [later, ← ih rest (some f.name), Option.none_or, Option.map_map, Option.map_map]
      refine Option.map_congr fun d _ => ?_
      simp only [Function.comp_apply, Declaration.shift, here.fileAt_render]
      rw [if_neg (by omega)]
      exact fileAt_shift (byteSize f.written) d.start 0 (some f.name) _

/-- Reading a merged schema is reading its files: it says what the files say one behind the other, and the file of a
model is the first one that declares it. -/
theorem parse_mergeFiles {files : List SchemaFile} (several : files.length ≠ 1)
    (mergeable : ∀ f ∈ files, f.IsMergeable) :
    Document.parse (mergeFiles files) = Document.union (files.map fun f => Document.parse f.content) ∧
      ∀ model, fileOfModel (mergeFiles files) model = (files.find? (·.declares model)).map (·.name) := by
  rw [mergeFiles_eq several]
  constructor
  · rw [Document.parse_eq_ofSections, sections_files mergeable, Document.ofSections_flatten, List.map_map]
    exact congrArg Document.union (List.map_congr_left fun f _ => (Document.parse_eq_ofSections f.content).symm)
  · intro model
    have named := congrArg (Option.map (·.getD defaultFileName)) (fileAt_files mergeable model none)
    rw [Option.map_map, Option.map_map] at named
    exact named

/-- Files with braces, headers and marks of separators in strings and comments, which declare one model twice. -/
def blogFiles : List SchemaFile :=
  [⟨txt "user.prisma", txt "model User \x7b\n  id Int @id // === \x7d ===\n  bio String @default(\"\x7b\")\n\x7d\r\n\r\n"⟩,
    ⟨txt "=== notes", txt "// model Ghost \x7b\n/* \x7d */"⟩,
    ⟨txt "post.prisma", txt "enum Role \x7b\n  A\n\x7d\nmodel User \x7b \x7d\nmodel Post \x7b\n  id Int @id\n\x7d"⟩]

theorem parse_mergeFiles_blogFiles :
    (blogFiles.length ≠ 1 ∧ ∀ f ∈ blogFiles, f.IsMergeable) ∧
      (Document.parse (mergeFiles blogFiles)).models.map (fun m => (m.name, m.fields.map (·.name))) =
        [(txt "User", [txt "id", txt "bio"]), (txt "Post", [txt "id"])] ∧
      fileOfModel (mergeFiles blogFiles) (txt "User") = some (txt "user.prisma") ∧
      fileOfModel (mergeFiles blogFiles) (txt "Post") = some (txt "post.prisma") ∧
      fileOfModel (mergeFiles blogFiles) (txt "Ghost") = none := by
  have several : blogFiles.length ≠ 1 := by decide
  have mergeable : ∀ f ∈ blogFiles, f.IsMergeable := by decide +kernel
  obtain ⟨parsed, files⟩ := parse_mergeFiles several mergeable
  refine ⟨⟨several, mergeable⟩, ?_, ?_, ?_, ?_⟩
  · rw [parsed]
    decide +kernel
  · rw [files]
    decide +kernel
  · rw [files]
    decide +kernel
  · rw [files]
    decide +kernel

end SchemaDiagram

import SchemaDiagram.Proofs.SeparatorNames

namespace SchemaDiagram

open Text

/-- A file as it comes back from a merged text. -/
def SchemaFile.settled (f : SchemaFile) : SchemaFile := { f with content := f.written }

/-- A file none of whose lines could be taken for a separator, under a name that a separator can announce. -/
structure SchemaFile.IsSeparable (f : SchemaFile) : Prop where
  named : IsSeparatorName f.name
  plain : ∀ line ∈ lines f.content, separatorName line = none

instance (f : SchemaFile) : Decidable f.IsSeparable :=
  decidable_of_iff (IsSeparatorName f.name ∧ ∀ line ∈ lines f.content, separatorName line = none)
    ⟨fun ⟨named, plain⟩ => ⟨named, plain⟩, fun apart => ⟨apart.named, apart.plain⟩⟩

section

variable {f : SchemaFile} (apart : f.IsSeparable)

include apart

theorem SchemaFile.IsSeparable.separator : separatorName (separatorLine f.name ++ ['\n']) = some f.name :=
  separatorName_separatorLine apart.named (by decide)

theorem SchemaFile.IsSeparable.written {line : Text} (member : line ∈ lines f.written) :
    separatorName line = none := by
  obtain ⟨original, inContent, same⟩ := SchemaFile.mem_lines_written member
  rw [separatorName_congr same]
  exact apart.plain original inContent

/-- A file opens with its separator line, and its own lines follow. -/
theorem SchemaFile.IsSeparable.lines_render (later : Text) :
    lines (f.render ++ later) = (separatorLine f.name ++ ['\n']) :: (lines f.written ++ lines later) := by
  have inLine : '\n' ∉ separatorLine f.name := by
    simpa [separatorLine, txt] using apart.named.oneLine
  rw [f.render_eq, List.append_assoc, List.append_assoc, List.singleton_append, lines_append_newline inLine,
    lines_append f.written_lines]

end

/-- Lines without a separator are gathered. -/
theorem splitLines_append {ls : List Text} (plain : ∀ line ∈ ls, separatorName line = none) (name : Option Text)
    (content : Text) (later : List Text) :
    splitLines name content (ls ++ later) = splitLines name (content ++ ls.flatten) later := by
  induction ls generalizing content with
  | nil => rw [List.nil_append, List.flatten_nil, List.append_nil]
  | cons line ls ih =>
    obtain ⟨here, rest⟩ := List.forall_mem_cons.mp plain
    rw [List.cons_append, splitLines, here]
    exact (ih rest (content ++ line)).trans (by rw [List.flatten_cons, List.append_assoc])

theorem splitLines_render {f : SchemaFile} (apart : f.IsSeparable) (name : Option Text) (content later : Text) :
    splitLines name content (lines (f.render ++ later)) =
      closeFile name content ++ splitLines (some f.name) f.written (lines later) := by
  rw [apart.lines_render, splitLines, apart.separator]
  have gathered := splitLines_append (fun _ => apart.written) (some f.name) [] (lines later)
  rw [flatten_lines, List.nil_append] at gathered
  exact congrArg (closeFile name content ++ ·) gathered

/-- Whatever was being read, a run over rendered files closes it and then gives those files. -/
theorem splitLines_files {files : List SchemaFile} (apart : ∀ f ∈ files, f.IsSeparable) (name : Option Text)
    (content : Text) :
    splitLines name content (lines (files.flatMap SchemaFile.render)) =
      closeFile name content ++ files.map SchemaFile.settled := by
  induction files generalizing name content with
  | nil => exact (List.append_nil _).symm
  | cons f files ih =>
    obtain ⟨here, rest⟩ := List.forall_mem_cons.mp apart
    rw [List.flatMap_cons, splitLines_render here, ih rest]
    rfl

theorem mergeFiles_eq {files : List SchemaFile} (several : files.length ≠ 1) :
    mergeFiles files = files.flatMap SchemaFile.render := by
  match files with
  | [] => rfl
  | [_] => exact absurd rfl several
  | _ :: _ :: _ => rfl

/-- Splitting undoes merging: the files come back under their names, in their order, each with its content but
for the newlines at its end, of which there is one. -/
theorem splitFiles_mergeFiles {files : List SchemaFile} (several : files.length ≠ 1)
    (apart : ∀ f ∈ files, f.IsSeparable) : splitFiles (mergeFiles files) = files.map SchemaFile.settled := by
  rw [mergeFiles_eq several]
  exact splitLines_files apart none []

/-- Files whose names have marks like those of a separator. -/
def markedFiles : List SchemaFile :=
  [⟨txt "a === b ===", txt "model A \x7b\r\n\x7d\r\n\r\n"⟩, ⟨txt "===", txt "\n"⟩, ⟨txt "// c", txt "// === d"⟩]

theorem splitFiles_mergeFiles_markedFiles :
    (markedFiles.length ≠ 1 ∧ ∀ f ∈ markedFiles, f.IsSeparable) ∧ splitFiles (mergeFiles markedFiles) =
      [⟨txt "a === b ===", txt "model A \x7b\r\n\x7d\n"⟩, ⟨txt "===", []⟩, ⟨txt "// c", txt "// === d\n"⟩] := by
  have apart : ∀ f ∈ markedFiles, f.IsSeparable := by decide
  exact ⟨⟨by decide, apart⟩, (splitFiles_mergeFiles (by decide) apart).trans (by decide)⟩

end SchemaDiagram

import SchemaDiagram.Proofs.MergedSchema

namespace SchemaDiagram

open Text

/-- The lines of a text that belong to a named file: its separator, and those up to the next one. -/
structure Segment where
  separator : Text
  name : Text
  rows : List Text
  announced : separatorName separator = some name
  plain : ∀ row ∈ rows, separatorName row = none

namespace Segment

def lines (s : Segment) : List Text := s.separator :: s.rows

def text (s : Segment) : Text := s.lines.flatten

def file (s : Segment) : SchemaFile := ⟨s.name, s.rows.flatten⟩

end Segment

/-- Some lines, cut in front of each separator. -/
structure Segmentation (ls : List Text) where
  leading : List Text
  segments : List Segment
  plain : ∀ row ∈ leading, separatorName row = none
  whole : leading ++ segments.flatMap Segment.lines = ls

namespace Segmentation

def ofLines : (ls : List Text) → Segmentation ls
  | [] => ⟨[], [], List.forall_mem_nil _, rfl⟩
  | line :: later =>
    let rest := ofLines later
    match announced : separatorName line with
    | some name =>
      ⟨[], ⟨line, name, rest.leading, announced, rest.plain⟩ :: rest.segments, List.forall_mem_nil _,
        congrArg (line :: ·) rest.whole⟩
    | none =>
      ⟨line :: rest.leading, rest.segments, List.forall_mem_cons.mpr ⟨announced, rest.plain⟩,
        congrArg (line :: ·) rest.whole⟩

/-- What stands in front of the first separator. -/
def front {ls : List Text} (s : Segmentation ls) : Text := s.leading.flatten

/-- The file that the byte at an offset belongs to: that of its segment, or the default file in front of them. -/
inductive Owns {ls : List Text} (s : Segmentation ls) (n : Nat) : Text → Prop
  | front : n < byteSize s.front → s.Owns n defaultFileName
  | segment {earlier later : List Segment} {here : Segment} : s.segments = earlier ++ here :: later →
      byteSize (s.front ++ earlier.flatMap Segment.text) ≤ n →
      n < byteSize (s.front ++ earlier.flatMap Segment.text ++ here.text) → s.Owns n here.name

end Segmentation

/-- A text, cut in front of each separator line. -/
def segmentation (t : Text) : Segmentation (lines t) := .ofLines (lines t)

/-- A segment ends the file in front of it, and gives its own. -/
theorem splitLines_segments (segments : List Segment) (name : Option Text) (content : Text) :
    splitLines name content (segments.flatMap Segment.lines) = closeFile name content ++ segments.map Segment.file := by
  induction segments generalizing name content with
  | nil => exact (List.append_nil _).symm
  | cons s later ih =>
    have opened : splitLines name content (s.separator :: (s.rows ++ later.flatMap Segment.lines)) =
        closeFile name content ++ splitLines (some s.name) [] (s.rows ++ later.flatMap Segment.lines) := by
      rw [splitLines, s.announced]
    rw [List.flatMap_cons, Segment.lines, List.cons_append, opened, splitLines_append s.plain, List.nil_append, ih]
    rfl

/-- Among segments, the name announced last is that of the segment that an offset lies in. -/
theorem fileAt_segments {segments : List Segment} {stop offset : Nat} (current : Option Text) (reached : offset ≤ stop)
    (inside : stop < offset + byteSize (segments.flatMap Segment.text)) :
    ∃ earlier here later, segments = earlier ++ here :: later ∧
      offset + byteSize (earlier.flatMap Segment.text) ≤ stop ∧
      stop < offset + byteSize (earlier.flatMap Segment.text ++ here.text) ∧
      fileAt stop offset current (segments.flatMap Segment.lines) = some here.name := by
  induction segments generalizing offset current with
  | nil => exact absurd inside (Nat.not_lt.mpr reached)
  | cons s later ih =>
    have size : byteSize s.text = byteSize s.separator + byteSize s.rows.flatten := by
      rw [Segment.text, Segment.lines, List.flatten_cons, byteSize_append]
    have opened : fileAt stop offset current ((s :: later).flatMap Segment.lines) =
        if stop < offset + byteSize s.text then some s.name
        else fileAt stop (offset + byteSize s.text) (some s.name) (later.flatMap Segment.lines) := by
      rw [List.flatMap_cons, Segment.lines, List.cons_append, fileAt, if_neg (Nat.not_lt.mpr reached), s.announced,
        Option.some_or, fileAt_append s.plain, size, Nat.add_assoc]
    by_cases here : stop < offset + byteSize s.text
    · exact ⟨[], s, later, rfl, reached, here, opened.trans (if_pos here)⟩
    · rw [List.flatMap_cons, byteSize_append, ← Nat.add_assoc] at inside
      obtain ⟨earlier, found, behind, split, atLeast, below, named⟩ := ih (some s.name) (Nat.not_lt.mp here) inside
      have front : offset + byteSize ((s :: earlier).flatMap Segment.text) =
          offset + byteSize s.text + byteSize (earlier.flatMap Segment.text) := by
        rw [List.flatMap_cons, byteSize_append, Nat.add_assoc]
      rw [byteSize_append] at below
      refine ⟨s :: earlier, found, behind, congrArg (s :: ·) split, by omega, ?_, ?_⟩
      · rw [byteSize_append]
        omega
      · rw [opened, if_neg here, named]

/-- Lines with others behind them end with a newline. -/
theorem ends_of_lines_eq_append {t : Text} {front back : List Text} (split : lines t = front ++ back)
    (some : front ≠ []) (more : back ≠ []) : ∃ v, front.flatten = v ++ ['\n'] := by
  induction t generalizing front with
  | nil => exact absurd (List.append_eq_nil_iff.mp split.symm).1 some
  | cons c t ih =>
    obtain ⟨line, later, rfl⟩ := List.exists_cons_of_ne_nil some
    rw [lines] at split
    split at split
    · rename_i newline
      obtain ⟨rfl, rest⟩ := List.cons_eq_cons.mp split
      by_cases alone : later = []
      · exact ⟨[], by rw [alone, newline]; rfl⟩
      · obtain ⟨v, ends⟩ := ih rest alone
        exact ⟨[c] ++ v, by rw [List.flatten_cons, ends, List.append_assoc]⟩
    · split at split
      · obtain ⟨-, rest⟩ := List.cons_eq_cons.mp split
        exact absurd (List.append_eq_nil_iff.mp rest.symm).2 more
      · rename_i first rest found
        obtain ⟨rfl, rfl⟩ := List.cons_eq_cons.mp split
        obtain ⟨v, ends⟩ := ih (show lines t = (first :: later) ++ back from found) (List.cons_ne_nil _ _)
        exact ⟨c :: v, by rw [List.flatten_cons] at ends ⊢; rw [List.cons_append, ends]; rfl⟩

/-- Newlines stay where they are, whatever is blanked. -/
theorem hasAt_newline_mask {t : Text} {n : Nat} (newline : HasAt t n '\n') : HasAt (mask t) n '\n' := by
  obtain ⟨role, earlier, later, split, atNewline⟩ := newline.hasRole
  refine ⟨earlier.flatMap (showOnly (· = .code)), later.flatMap (showOnly (· = .code)), ?_, ?_⟩
  · rw [mask, split, List.flatMap_append, List.flatMap_cons, showOnly_newline]
    rfl
  · rw [byteSize_showOnly, atNewline]

/-- The line where a declaration begins shows something: a keyword, with no newline in front of it. -/
theorem exists_visible_of_outline {t : Text} {d : Declaration} (member : d ∈ outline t) :
    ∃ n c, d.start ≤ n ∧ HasAt t n c ∧ isBlank c = false ∧ ∀ k, d.start ≤ k → k < n → ¬HasAt t k '\n' := by
  obtain ⟨earlier, h, later, split, rfl⟩ := mem_declarationsFrom member
  have inHeaders : h ∈ headers (mask t) := by rw [split]; simp
  obtain ⟨before, line, whole, read, -⟩ := mem_headersFrom inHeaders
  obtain ⟨lead, rest, rfl, ⟨indent, gap, blanks, rfl, inIndent, -⟩, atStart, -⟩ := Header.read?_eq_some_iff.mp read
  rw [Nat.zero_add] at atStart
  obtain ⟨c, more, letters, visible⟩ : ∃ c more, h.keyword.name = c :: more ∧ isBlank c = false := by
    cases h.keyword <;> exact ⟨_, _, rfl, by decide⟩
  have noSpace : c ≠ ' ' := by
    rintro rfl
    cases visible
  have here : mask t = (before ++ indent) ++ c :: (more ++ gap ++ h.name ++ blanks ++ '{' :: rest) := by
    rw [whole, letters]
    simp
  refine ⟨byteSize (before ++ indent), c, ?_, hasAt_of_mask noSpace ⟨_, _, here, rfl⟩, visible, ?_⟩
  · rw [byteSize_append]
    exact atStart ▸ Nat.le_add_right _ _
  · intro k behind inFront newline
    obtain ⟨u, v, other, rfl⟩ := hasAt_newline_mask newline
    have start : byteSize before ≤ byteSize u := atStart ▸ behind
    rw [here, List.append_assoc] at other
    obtain ⟨part, rfl, inPart⟩ : ∃ part, u = before ++ part ∧
        indent ++ c :: (more ++ gap ++ h.name ++ blanks ++ '{' :: rest) = part ++ '\n' :: v := by
      rcases List.append_eq_append_iff.mp other with ⟨part, atU, rest'⟩ | ⟨part, atBefore, rest'⟩
      · exact ⟨part, atU, rest'⟩
      · rw [atBefore, byteSize_append] at start
        obtain rfl := eq_nil_of_byteSize (t := part) (by omega)
        exact ⟨[], by rw [atBefore, List.append_nil, List.append_nil], rest'.symm⟩
    rw [byteSize_append, byteSize_append] at inFront
    rcases List.append_eq_append_iff.mp inPart with ⟨tail, atPart, -⟩ | ⟨tail, atIndent, rest'⟩
    · rw [atPart, byteSize_append] at inFront
      omega
    · rcases tail with _ | ⟨e, tail⟩
      · rw [atIndent, List.append_nil] at inFront
        omega
      · obtain ⟨rfl, -⟩ := List.cons_eq_cons.mp rest'
        exact absurd (inIndent '\n' (by rw [atIndent]; simp)) (by decide)

theorem closeFile_none (content : Text) :
    closeFile none content = if ∀ c ∈ content, isBlank c then [] else [⟨defaultFileName, content⟩] := by
  simp only [closeFile, List.isEmpty_iff, trim_eq_nil_iff]

theorem Document.model?_parse (t model : Text) :
    (Document.parse t).model? model = (findModel model t).map fun d => Model.ofBody d.name (d.body (strip t)) := by
  have same : (fun d : Declaration => decide (decide (d.keyword = .model) = true ∧
      ((fun m : Model => decide (m.name = model)) ∘ fun d => Model.ofBody d.name (d.body (strip t))) d = true)) =
      fun d => decide (d.keyword = .model) && decide (d.name = model) := by
    funext d
    simp [Model.ofBody]
  rw [Document.model?, Document.parse, outline_strip, Document.ofDeclarations, find?_keepFirst, List.find?_map,
    List.find?_filter, same]
  rfl

section

variable {t : Text} (s : Segmentation (lines t))

theorem Segmentation.front_append : s.front ++ s.segments.flatMap Segment.text = t := by
  have whole := congrArg List.flatten s.whole
  rw [flatten_lines, List.flatten_append, List.flatMap, List.flatten_flatten, List.map_map] at whole
  exact whole

/-- The files of a text are what stands in front of its separators, unless that is blank, and its segments. -/
theorem splitFiles_eq : splitFiles t = closeFile none s.front ++ s.segments.map Segment.file := by
  have split := splitLines_append s.plain none [] (s.segments.flatMap Segment.lines)
  rw [s.whole, List.nil_append, splitLines_segments] at split
  exact split

theorem filterMap_separatorName : (lines t).filterMap separatorName = s.segments.map Segment.name := by
  have segment (here : Segment) : here.lines.filterMap separatorName = [here.name] := by
    rw [Segment.lines, List.filterMap_cons_some here.announced, List.filterMap_eq_nil_iff.mpr here.plain]
  have whole := congrArg (List.filterMap separatorName) s.whole
  rw [List.filterMap_append, List.filterMap_eq_nil_iff.mpr s.plain, List.nil_append, List.filterMap_flatMap] at whole
  simp only [segment] at whole
  rw [← whole, List.map_eq_flatMap]

theorem filter_plain_lines :
    ((lines t).filter fun line => separatorName line = none).flatten =
      s.front ++ (s.segments.map Segment.file).flatMap SchemaFile.content := by
  have rows {ls : List Text} (plain : ∀ line ∈ ls, separatorName line = none) :
      ls.filter (fun line => separatorName line = none) = ls :=
    List.filter_eq_self.mpr fun line member => decide_eq_true (plain line member)
  have segment (here : Segment) : here.lines.filter (fun line => separatorName line = none) = here.rows := by
    rw [Segment.lines, List.filter_cons_of_neg (by simp [here.announced]), rows here.plain]
  have whole := congrArg (List.filter fun line => separatorName line = none) s.whole
  rw [List.filter_append, rows s.plain, List.filter_flatMap] at whole
  simp only [segment] at whole
  rw [← whole, List.flatten_append, List.flatMap, List.flatten_flatten, List.map_map, List.flatMap, List.map_map]
  rfl

/-- In front of the first separator a declaration only begins where something is shown. -/
theorem Segmentation.front_visible {d : Declaration} (member : d ∈ outline t) (inside : d.start < byteSize s.front) :
    ¬∀ c ∈ s.front, isBlank c := by
  intro blank
  obtain ⟨n, c, behind, ⟨u, v, whole, rfl⟩, visible, noNewline⟩ := exists_visible_of_outline member
  rw [← s.front_append] at whole
  have outside : byteSize s.front ≤ byteSize u := by
    rcases List.append_eq_append_iff.mp whole with ⟨part, rfl, -⟩ | ⟨part, atFront, rest⟩
    · rw [byteSize_append]
      exact Nat.le_add_right _ _
    · rcases part with _ | ⟨e, part⟩
      · rw [atFront, List.append_nil]
      · obtain ⟨rfl, -⟩ := List.cons_eq_cons.mp rest
        have white := blank c (by rw [atFront]; simp)
        rw [visible] at white
        cases white
  have some : s.leading ≠ [] := by
    intro none
    rw [Segmentation.front, none] at inside
    exact Nat.not_lt_zero _ inside
  have more : s.segments.flatMap Segment.lines ≠ [] := by
    intro none
    have alone := congrArg List.flatten s.whole
    rw [none, List.append_nil, flatten_lines] at alone
    have all : s.front = u ++ c :: v := alone.trans (s.front_append.symm.trans whole)
    rw [all, byteSize_append, byteSize_cons] at outside
    have positive := c.utf8Size_pos
    omega
  obtain ⟨w, ends⟩ := ends_of_lines_eq_append s.whole.symm some more
  have last : s.front = w ++ ['\n'] := ends
  have one : byteSize ['\n'] = 1 := rfl
  rw [last, byteSize_append, one] at inside outside
  refine noNewline (byteSize w) (by omega) (by omega) ⟨w, s.segments.flatMap Segment.text, ?_, rfl⟩
  have cut := s.front_append
  rw [last, List.append_assoc] at cut
  exact cut.symm

/-- The file of a model is the one that the start of its first declaration belongs to, and splitting gives it. -/
theorem fileOfModel_of_found {model : Text} {d : Declaration} (found : findModel model t = some d) :
    ∃ name, fileOfModel t model = some name ∧ s.Owns d.start name ∧ name ∈ (splitFiles t).map SchemaFile.name := by
  have member : d ∈ outline t := List.mem_of_find?_eq_some found
  have lies := Declaration.liesIn member
  have within : d.start < byteSize t := (lies.start_le_brace.trans_lt lies.brace_lt_stop).trans_le lies.stop_le_size
  have passed := fileAt_append s.plain d.start 0 none (s.segments.flatMap Segment.lines)
  have front : byteSize s.leading.flatten = byteSize s.front := rfl
  rw [s.whole, Nat.zero_add, front] at passed
  by_cases inside : d.start < byteSize s.front
  · rw [if_pos inside] at passed
    refine ⟨defaultFileName, by rw [fileOfModel, found, Option.map_some, passed]; rfl, .front inside, ?_⟩
    rw [splitFiles_eq s, closeFile_none, if_neg (s.front_visible member inside)]
    exact List.mem_cons_self
  · have below : d.start < byteSize s.front + byteSize (s.segments.flatMap Segment.text) := by
      rwa [← byteSize_append, s.front_append]
    obtain ⟨earlier, here, later, split, atLeast, inHere, named⟩ := fileAt_segments none (Nat.not_lt.mp inside) below
    rw [if_neg inside, named] at passed
    refine ⟨here.name, by rw [fileOfModel, found, Option.map_some, passed]; rfl, .segment split ?_ ?_, ?_⟩
    · rw [byteSize_append]
      exact atLeast
    · rw [List.append_assoc, byteSize_append]
      exact inHere
    · rw [splitFiles_eq s, List.map_append, split]
      simp [Segment.file]

end

/-- Splitting a text loses nothing but its separator lines and blank text in front of them, and gives the files their
names in order. A model has a file just if it is read, and that is the file of the segment where its first declaration
begins. -/
theorem splitFiles_partition (t : Text) :
    (splitFiles t).map SchemaFile.name =
        (if ∀ c ∈ (segmentation t).front, isBlank c then [] else [defaultFileName]) ++
          (lines t).filterMap separatorName ∧
      (if ∀ c ∈ (segmentation t).front, isBlank c then (segmentation t).front else []) ++
          (splitFiles t).flatMap SchemaFile.content =
        ((lines t).filter fun line => separatorName line = none).flatten ∧
      ∀ model, (fileOfModel t model = none ↔ (Document.parse t).hasModel model = false) ∧
        ∀ name, fileOfModel t model = some name → ∃ d, findModel model t = some d ∧
          (segmentation t).Owns d.start name ∧ name ∈ (splitFiles t).map SchemaFile.name := by
  have files := splitFiles_eq (segmentation t)
  rw [closeFile_none] at files
  refine ⟨?_, ?_, fun model => ⟨?_, fun name file => ?_⟩⟩
  · rw [files, filterMap_separatorName (segmentation t), List.map_append, List.map_map]
    congr 1
    split <;> rfl
  · rw [files, filter_plain_lines (segmentation t)]
    split
    · rw [List.nil_append]
    · rfl
  · rw [Document.hasModel, Document.model?_parse, fileOfModel, Option.map_eq_none_iff, Option.isSome_map,
      Option.isSome_eq_false_iff, Option.isNone_iff_eq_none]
  · cases found : findModel model t with
    | none =>
      rw [fileOfModel, found] at file
      cases file
    | some d =>
      obtain ⟨name', same, owns, member⟩ := fileOfModel_of_found (segmentation t) found
      obtain rfl := Option.some.inj (same.symm.trans file)
      exact ⟨d, rfl, owns, member⟩

/-- A separator counts in a block comment too. -/
example : fileOfModel (txt "/*\n// === a.prisma ===\n*/ model A \x7b\n\x7d\n") (txt "A") = some (txt "a.prisma") := by
  decide +kernel

end SchemaDiagram

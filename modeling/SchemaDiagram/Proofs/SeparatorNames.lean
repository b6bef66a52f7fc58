import SchemaDiagram.Files.Basic
import SchemaDiagram.Proofs.BodyLines

namespace SchemaDiagram

open Text

/-- A name that a separator line can announce. -/
structure IsSeparatorName (name : Text) : Prop where
  nonempty : name ≠ []
  oneLine : '\n' ∉ name
  begins : name.head?.any isPad = false
  ends : name.getLast?.any isPad = false

instance (name : Text) : Decidable (IsSeparatorName name) :=
  decidable_of_iff (name ≠ [] ∧ '\n' ∉ name ∧ name.head?.any isPad = false ∧ name.getLast?.any isPad = false)
    ⟨fun ⟨nonempty, oneLine, begins, ends⟩ => ⟨nonempty, oneLine, begins, ends⟩,
      fun named => ⟨named.nonempty, named.oneLine, named.begins, named.ends⟩⟩

theorem IsSeparatorName.stops {name : Text} (named : IsSeparatorName name) :
    Stops isPad name ∧ Stops isPad name.reverse := by
  constructor
  · intro c head
    simpa only [head, Option.any_some] using named.begins
  · intro c last
    rw [List.head?_reverse] at last
    simpa only [last, Option.any_some] using named.ends

/-- White space around a line is no part of what it announces. -/
theorem separatorName_congr {line line' : Text} (same : trim line = trim line') :
    separatorName line = separatorName line' := by
  rw [separatorName, separatorName, same]

/-- A separator line announces its name, also where the name has marks like those around it. -/
theorem separatorName_separatorLine {name : Text} (named : IsSeparatorName name) {ending : Text}
    (blank : ∀ c ∈ ending, isBlank c) : separatorName (separatorLine name ++ ending) = some name := by
  obtain ⟨begins, ends⟩ := named.stops
  have pad : ∀ c ∈ txt " ", isPad c := by decide
  have line : separatorLine name = txt "//" ++ (txt " " ++ (txt "===" ++ (txt " " ++ name ++ txt " " ++ txt "==="))) := by
    simp only [separatorLine, List.append_assoc]
    rfl
  have trimmed : trim (separatorLine name ++ ending) = separatorLine name := by
    have alone : trim (separatorLine name) = separatorLine name := by
      refine trim_eq_self (by rw [line]; exact stops_cons (by decide)) ?_
      rw [separatorLine]
      exact stops_reverse_append (by decide) (stops_cons (by decide))
    exact (trim_append (List.forall_mem_nil _) (separatorLine name) blank).trans alone
  have marked := isPrefixOf?_eq_some_iff.mpr line
  have padded : (txt " " ++ (txt "===" ++ (txt " " ++ name ++ txt " " ++ txt "==="))).dropWhile isPad =
      txt "===" ++ (txt " " ++ name ++ txt " " ++ txt "===") :=
    dropWhile_append_stops pad (stops_cons (by decide))
  have opened : (txt "===").isPrefixOf? (txt "===" ++ (txt " " ++ name ++ txt " " ++ txt "===")) =
      some (txt " " ++ name ++ txt " " ++ txt "===") := isPrefixOf?_eq_some_iff.mpr rfl
  have inner : (txt "===").isSuffixOf? (txt " " ++ name ++ txt " " ++ txt "===") = some (txt " " ++ name ++ txt " ") :=
    isSuffixOf?_eq_some_iff.mpr rfl
  have oneLine : (txt " " ++ name ++ txt " ").contains '\n' = false := by
    rw [← Bool.not_eq_true, List.contains_iff_mem]
    simpa [txt] using named.oneLine
  have bare : dropEndWhile isPad ((txt " " ++ name ++ txt " ").dropWhile isPad) = name := by
    obtain ⟨c, rest, rfl⟩ := List.exists_cons_of_ne_nil named.nonempty
    have visible : Stops isPad (c :: rest ++ txt " ") := stops_cons (begins c rfl)
    rw [List.append_assoc, dropWhile_append_stops pad visible, dropEndWhile_append_of_forall _ pad,
      dropEndWhile_eq_self ends]
  simp only [separatorName, trimmed, marked, padded, opened, inner, oneLine, bare, Option.bind_eq_bind,
    Option.bind_some, Bool.false_eq_true, if_false]
  cases name with
  | nil => exact absurd rfl named.nonempty
  | cons c rest => rfl

theorem lines_append {u : Text} (whole : u = [] ∨ ∃ v, u = v ++ ['\n']) (t : Text) :
    lines (u ++ t) = lines u ++ lines t := by
  rcases whole with rfl | ⟨v, rfl⟩
  · rfl
  rw [List.append_assoc, List.singleton_append]
  induction v with
  | nil => rfl
  | cons c v ih =>
    rw [List.cons_append, List.cons_append, lines, lines, ih]
    split
    · rfl
    · cases first : lines (v ++ ['\n']) with
      | nil =>
        have empty := flatten_lines (v ++ ['\n'])
        rw [first] at empty
        simp at empty
      | cons line later => rfl

/-- What is written of the content of a file: one newline ends it, unless it is empty. -/
def SchemaFile.written (f : SchemaFile) : Text :=
  let kept := dropEndWhile isNewlineChar f.content
  if kept = [] then [] else kept ++ ['\n']

theorem SchemaFile.render_eq (f : SchemaFile) : f.render = separatorLine f.name ++ ['\n'] ++ f.written := by
  simp only [render, written, List.isEmpty_iff]
  rfl

theorem SchemaFile.written_lines (f : SchemaFile) : f.written = [] ∨ ∃ v, f.written = v ++ ['\n'] := by
  rw [written]
  split
  · exact Or.inl rfl
  · exact Or.inr ⟨_, rfl⟩

theorem isBlank_of_isNewlineChar {c : Char} (newline : isNewlineChar c) : isBlank c := by
  simp only [isNewlineChar, Bool.or_eq_true, decide_eq_true_eq] at newline
  rcases newline with rfl | rfl <;> decide

/-- A text is split before its last line, which may be empty. -/
theorem exists_last_line (t : Text) :
    ∃ front row, t = front ++ row ∧ (front = [] ∨ ∃ v, front = v ++ ['\n']) ∧ '\n' ∉ row := by
  obtain ⟨row, whole, inRow⟩ := dropEndWhile_split (· ≠ '\n') t
  refine ⟨dropEndWhile (· ≠ '\n') t, row, whole, ?_, fun newline => by simpa using inRow '\n' newline⟩
  rcases List.eq_nil_or_concat (dropEndWhile (· ≠ '\n') t) with empty | ⟨v, c, concat⟩
  · exact Or.inl empty
  · have last := stops_dropEndWhile (· ≠ '\n') t c (by rw [concat]; simp)
    obtain rfl : c = '\n' := by simpa using last
    exact Or.inr ⟨v, by rw [concat, List.concat_eq_append]⟩

/-- A row with newlines behind it begins with a line that is the row but for white space. -/
theorem exists_line_of_row {row back : Text} (visible : row ≠ []) (oneLine : '\n' ∉ row)
    (newlines : ∀ c ∈ back, isNewlineChar c) : ∃ line ∈ lines (row ++ back), trim line = trim row := by
  have blanks {u : Text} (inside : ∀ c ∈ u, isNewlineChar c) : trim (row ++ u) = trim row :=
    trim_append (List.forall_mem_nil _) row fun c member => isBlank_of_isNewlineChar (inside c member)
  by_cases newline : '\n' ∈ back
  · obtain ⟨u, v, rfl, before⟩ := List.eq_append_cons_of_mem newline
    have inRow : '\n' ∉ row ++ u := by simp [oneLine, before]
    refine ⟨row ++ u ++ ['\n'], ?_, ?_⟩
    · rw [← List.append_assoc, lines_append_newline inRow]
      exact List.mem_cons_self
    · rw [List.append_assoc, blanks fun c member => ?_]
      rcases List.mem_append.mp member with inside | inside
      · exact newlines c (List.mem_append_left _ inside)
      · rw [List.mem_singleton.mp inside]
        decide
  · rcases lines_oneLine (t := row ++ back) (by simp [oneLine, newline]) with none | one
    · have empty := flatten_lines (row ++ back)
      rw [none] at empty
      exact absurd (List.append_eq_nil_iff.mp empty.symm).1 visible
    · exact ⟨row ++ back, by rw [one]; exact List.mem_singleton_self _, blanks newlines⟩

/-- What is written has lines of the content only, up to the white space around them. -/
theorem SchemaFile.mem_lines_written {f : SchemaFile} {line : Text} (member : line ∈ lines f.written) :
    ∃ line' ∈ lines f.content, trim line = trim line' := by
  obtain ⟨back, content, newlines⟩ := dropEndWhile_split isNewlineChar f.content
  have stops := stops_dropEndWhile isNewlineChar f.content
  rw [SchemaFile.written] at member
  obtain ⟨kept, atKept⟩ : ∃ kept, kept = dropEndWhile isNewlineChar f.content := ⟨_, rfl⟩
  rw [← atKept] at member content stops
  obtain ⟨front, row, rfl, whole, oneLine⟩ := exists_last_line kept
  split at member
  · cases member
  rename_i nonempty
  rw [List.append_assoc, lines_append whole, lines_append_newline oneLine] at member
  rw [content, List.append_assoc, lines_append whole]
  rcases List.mem_append.mp member with earlier | last
  · exact ⟨line, List.mem_append_left _ earlier, rfl⟩
  obtain rfl : line = row ++ ['\n'] := by simpa [lines] using last
  have visible : row ≠ [] := by
    rintro rfl
    rcases whole with empty | ⟨v, ended⟩
    · exact nonempty (by rw [empty]; rfl)
    · have last := stops '\n' (by rw [ended]; simp)
      exact absurd last (by decide)
  obtain ⟨line', inBack, same⟩ := exists_line_of_row visible oneLine newlines
  have blank : ∀ c ∈ ['\n'], isBlank c := by decide
  exact ⟨line', List.mem_append_right _ inBack, (trim_append (List.forall_mem_nil _) row blank).trans same.symm⟩

end SchemaDiagram

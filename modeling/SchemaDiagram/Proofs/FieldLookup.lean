import SchemaDiagram.Proofs.ReplacedField

namespace SchemaDiagram

open Text

/-- A line that a field is read from declares it, also when nothing ends the line. -/
theorem declares_of_parseField {raw : Text} {f : Field} (read : parseField (trim raw) = some f) :
    declares f.name raw := by
  obtain ⟨word, typed, ⟨gap, rest, whole, -⟩, -⟩ := parseField_form read
  refine (declares_iff word).mpr ⟨?_, fun alone => ?_⟩
  · rw [← firstWord?_trim]
    exact firstWord?_of_lineField? (lineField?_of_parseField read).1
  · rw [trim, alone, trimEnd, dropEndWhile_eq_self word.ends] at whole
    have none : gap ++ (f.type ++ rest) = [] := List.self_eq_append_right.mp whole
    exact typed.ends.1 (List.append_eq_nil_iff.mp (List.append_eq_nil_iff.mp none).2).1

/-- Each field of a model is declared on a line of its body. -/
theorem exists_declaring_line {name body : Text} {f : Field} (member : f ∈ (Model.ofBody name body).fields) :
    IsWord f.name ∧ ∃ raw, (lines body).find? (declares f.name) = some raw := by
  obtain ⟨line, shown, read⟩ := List.mem_filterMap.mp (mem_keepFirst member)
  obtain ⟨raw, inBody, rfl⟩ := List.mem_map.mp (List.mem_filter.mp shown).1
  refine ⟨(parseField_form read).1, Option.isSome_iff_exists.mp ?_⟩
  exact List.find?_isSome.mpr ⟨raw, inBody, declares_of_parseField read⟩

/-- Each field that is read from a closed model has its place in the text. -/
theorem exists_fieldPlace_of_parse {t model : Text} {d : Declaration} {m : Model} {f : Field}
    (found : findModel model t = some d) (closed : d.close.isSome) (parsed : (Document.parse t).model? model = some m)
    (member : f ∈ m.fields) :
    IsWord f.name ∧ ∃ front body back, BodyAt t d front body back ∧
      ∃ above line returns below rest, FieldPlace t model f.name front body back above line returns below rest := by
  obtain ⟨front, body, back, at'⟩ := Declaration.bodyAt (List.mem_of_find?_eq_some found) closed
  rw [(at'.parse_exchange found at'.scanned at'.block).1] at parsed
  cases parsed
  obtain ⟨word, raw, declared⟩ := exists_declaring_line member
  obtain ⟨above, line, returns, below, rest, place, -⟩ := at'.exists_fieldPlace found word declared
  exact ⟨word, front, body, back, at', above, line, returns, below, rest, place⟩

/-- The range of a line between two offsets of a text: the first line of the blanked text there that begins with a word,
without its line end. -/
structure IsFirstLine (t word : Text) (first close start stop : Nat) : Prop where
  inOrder : first ≤ start ∧ start ≤ stop ∧ stop ≤ close
  inLine : '\n' ∉ slice start stop t
  atWord : ∃ earlier line later, lines (slice first close (mask t)) = earlier ++ line :: later ∧
    (∀ l ∈ earlier, firstWord? l ≠ some word) ∧ firstWord? line = some word ∧
      start = first + byteSize earlier.flatten ∧ stop = start + byteSize (dropEndWhile isLineEnd line)

theorem isFirstLine_of_found {t model field : Text} (word : IsWord field) {first close start stop : Nat}
    (body : modelBody? t model = some (first, close)) (found : fieldLine? t model field = some (start, stop))
    (inOrder : first ≤ start ∧ start ≤ stop ∧ stop ≤ close) (inLine : '\n' ∉ slice start stop t) :
    IsFirstLine t field first close start stop := by
  obtain ⟨_, _, sameBody, looked⟩ := fieldLine?_eq_some found
  cases body.symm.trans sameBody
  obtain ⟨earlier, line, later, split, others, declared, atStart, atStop⟩ := fieldLineFrom_eq_some looked
  refine ⟨inOrder, inLine, earlier, line, later, split, fun l member alike => others l member ?_,
    ((declares_iff word).mp declared).1, atStart, atStop⟩
  -- a line in front of another one ends, so that its first word decides
  obtain ⟨front, back, rfl⟩ := List.append_of_mem member
  have before : lines (slice first close (mask t)) = front ++ l :: (back ++ line :: later) := by simp [split]
  obtain ⟨r, rfl⟩ := ends_of_lines before (by simp)
  exact (declares_newline_iff word).mpr alike

section

variable {t model field : Text} {d : Declaration} {front body back above line below rest : List (Char × Role)}
  {returns : Text}

theorem FieldPlace.isFirstLine (place : FieldPlace t model field front body back above line returns below rest)
    (at' : BodyAt t d front body back) (found : findModel model t = some d) (word : IsWord field) :
    IsFirstLine t field (byteSize (written front) + 1) (byteSize (written front) + 1 + byteSize (written body))
      (byteSize (written (front ++ ('{', .code) :: above)))
      (byteSize (written (front ++ ('{', .code) :: above)) + byteSize (written line)) := by
  have atStart : byteSize (written (front ++ ('{', .code) :: above)) =
      byteSize (written front) + 1 + byteSize (written above) := by
    rw [written_append, byteSize_append, Nat.add_assoc]
    rfl
  have size : byteSize (written body) =
      byteSize (written above) + (byteSize (written line) + (byteSize returns + byteSize (written below))) := by
    simp [place.lineAt.split]
  refine isFirstLine_of_found word (at'.modelBody?_eq found) place.found ⟨by omega, by omega, by omega⟩ ?_
  rw [place.cuts.2.1]
  exact fun member => place.lineAt.inLine (by simp [member])

end

/-- Each field that is read from a closed model is found again by its name, on the first line of the body that begins
with it. So a field that the model has is never declared once more. -/
theorem fieldLine?_of_parse {t model : Text} {d : Declaration} {close : Nat} {m : Model} {f : Field}
    (found : findModel model t = some d) (closed : d.close = some close)
    (parsed : (Document.parse t).model? model = some m) (member : f ∈ m.fields) :
    hasField t model f.name ∧ (∀ line, upsertField t model f.name line = replaceField t model f.name line) ∧
      ∃ start stop, fieldLine? t model f.name = some (start, stop) ∧
        IsFirstLine t f.name (d.brace + 1) close start stop := by
  obtain ⟨word, front, body, back, at', above, line, returns, below, rest, place⟩ :=
    exists_fieldPlace_of_parse found (by simp [closed]) parsed member
  have has : hasField t model f.name := by simp [hasField, place.found]
  refine ⟨has, fun line => ?_, _, _, place.found, ?_⟩
  · by_cases same : f.name = protectedField
    · rw [upsertField, if_pos same, replaceField, if_pos same]
    · rw [upsertField, if_neg same, if_pos has]
  cases closed.symm.trans at'.close
  rw [at'.brace]
  exact place.isFirstLine at' found word

def hiddenFieldSchema : Text :=
  txt "model A \x7b b String @default(\"é Int\") // é Int\n  /* key */ é /* of */ Int?\r\n  éa Int \x7d\nmodel A \x7b\n\x7d\n"

theorem fieldLine?_of_parse_hiddenFieldSchema :
    ∃ d close m f, findModel (txt "A") hiddenFieldSchema = some d ∧ d.close = some close ∧
      (Document.parse hiddenFieldSchema).model? (txt "A") = some m ∧ f ∈ m.fields ∧ f.name = txt "é" ∧
      hasField hiddenFieldSchema (txt "A") f.name ∧
      (∀ line, upsertField hiddenFieldSchema (txt "A") f.name line = replaceField hiddenFieldSchema (txt "A") f.name line) ∧
      ∃ start stop, fieldLine? hiddenFieldSchema (txt "A") f.name = some (start, stop) ∧
        IsFirstLine hiddenFieldSchema f.name (d.brace + 1) close start stop := by
  have found : findModel (txt "A") hiddenFieldSchema = some ⟨.model, txt "A", 0, 8, some 88, 88⟩ := by decide +kernel
  have parsed : (Document.parse hiddenFieldSchema).model? (txt "A") =
      some ⟨txt "A", [⟨txt "b", txt "String", false, false, [txt "@default(\"é Int\")"], none⟩,
        ⟨txt "é", txt "Int", false, true, [], none⟩, ⟨txt "éa", txt "Int", false, false, [], none⟩], []⟩ := by
    decide +kernel
  exact ⟨_, _, _, ⟨txt "é", txt "Int", false, true, [], none⟩, found, rfl, parsed, by simp, rfl,
    fieldLine?_of_parse found rfl parsed (by simp)⟩

end SchemaDiagram

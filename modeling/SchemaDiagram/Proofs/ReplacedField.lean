import SchemaDiagram.Proofs.InsertedField
import SchemaDiagram.Proofs.KeptComment

namespace SchemaDiagram

open Text

/-- A model with its field of some name exchanged. -/
def Model.setField (m : Model) (f : Field) : Model :=
  { m with fields := m.fields.map fun b => if b.name = f.name then f else b }

/-- The line that declares a field, as it is scanned and without its line end. -/
def declaringLine (t model field : Text) : List (Char × Role) :=
  match fieldLine? t model field with
  | none => []
  | some (start, stop) => scanSlice start stop t

/-- What is read behind the code of a field's line once that code is exchanged. -/
def keptText (t model field : Text) : Text := stripped (keptPart (declaringLine t model field))

/-- Whether the line of a field begins outside of comments and closes the braces that it opens. -/
def isLoneLine (t model field : Text) : Bool :=
  match fieldLine? t model field with
  | none => false
  | some (start, _) =>
    (scanSlice 0 start t).getLast? ≠ some ('\n', .comment) &&
      (masked (codePart (declaringLine t model field))).count '{' =
        (masked (codePart (declaringLine t model field))).count '}'

theorem occurs_iff {part t : Text} : occurs part t = true ↔ part <:+: t := by
  induction t with
  | nil => simp [occurs]
  | cons c t ih => rw [occurs, Bool.or_eq_true, ih, List.isPrefixOf_iff_prefix, List.infix_cons_iff]

theorem IsPlainLine.trimEnd {line : Text} (plain : IsPlainLine line) : IsPlainLine (trimEnd line) := by
  have part : Text.trimEnd line <+: line := dropEndWhile_isPrefix isBlank line
  exact ⟨fun member => plain.inLine (part.subset member), fun member => plain.noQuote (part.subset member),
    ⟨fun member => plain.noBrace.1 (part.subset member), fun member => plain.noBrace.2 (part.subset member)⟩,
    fun sign => plain.noLine (sign.trans part.isInfix), fun sign => plain.noBlock (sign.trans part.isInfix)⟩

theorem indent_blank {t : Text} : ∀ c ∈ indent t, isBlank c ∧ c ≠ '\n' := by
  intro c member
  have pad := List.mem_takeWhile_imp member
  refine ⟨isBlank_of_isPad pad, ?_⟩
  rintro rfl
  cases pad

/-- All of a line without braces is put in place of the old one, but for the white space at its end. -/
theorem trimEnd_bare {line : Text} (noBrace : '}' ∉ line) :
    trimEnd (dropEndWhile (· = '}') (trimEnd line)) = trimEnd line := by
  have stops : Stops (fun c => decide (c = '}')) (trimEnd line).reverse :=
    stops_reverse_of_forall fun c member => by
      simpa using fun (same : c = '}') => noBrace ((dropEndWhile_isPrefix isBlank line).subset (same ▸ member))
  rw [dropEndWhile_eq_self stops]
  exact dropEndWhile_eq_self (stops_dropEndWhile isBlank line)

section

variable {t model field : Text} {d : Declaration} {front body back : List (Char × Role)}

/-- The line that declares a field, with the carriage returns and the text behind it. -/
structure FieldPlace (t model field : Text) (front body back above line : List (Char × Role)) (returns : Text)
    (below rest : List (Char × Role)) : Prop where
  lineAt : LineAt field body above (line ++ asCode returns) below
  tail : LineRest returns below back rest
  scanned : scan t = (front ++ ('{', .code) :: above) ++ (line ++ rest)
  found : fieldLine? t model field = some (byteSize (written (front ++ ('{', .code) :: above)),
    byteSize (written (front ++ ('{', .code) :: above)) + byteSize (written line))

theorem BodyAt.exists_fieldPlace (at' : BodyAt t d front body back) (found : findModel model t = some d)
    (word : IsWord field) {raw : Text} (declared : (lines (stripped body)).find? (declares field) = some raw) :
    ∃ above line returns below rest, FieldPlace t model field front body back above line returns below rest ∧
      raw = stripped (line ++ asCode returns) ++ (if below = [] then [] else ['\n']) := by
  have inBody := (scanFrom_behind (ScanState.fits_code t) at'.scanned (by decide) (by decide) (by decide)
    (by decide)).1
  obtain ⟨above, line, below, at'', atRaw⟩ :=
    exists_declared_line word rfl (ScanState.fits_code _) inBody.symm declared
  obtain ⟨line, returns, rfl, shown, only⟩ := exists_line_end at''.inLine
  have inMask := at'.slice_shown (· = .code)
  change slice _ _ (mask t) = masked body at inMask
  refine ⟨above, line, returns, below, _, ⟨at'', ⟨rfl, only, at''.ends⟩, ?_, ?_⟩, atRaw⟩
  · rw [at'.scanned, at''.split]
    simp
  · have size : byteSize (written (front ++ ('{', .code) :: above)) =
        byteSize (written front) + 1 + byteSize (written above) := by
      rw [written_append, byteSize_append, Nat.add_assoc]
      rfl
    have sizeLine : byteSize (dropEndWhile isLineEnd (masked (line ++ asCode returns))) = byteSize (written line) := by
      rw [← shown, byteSize_masked]
    rw [fieldLine?, at'.modelBody?_eq found]
    change fieldLineFrom field _ (lines (slice _ _ (mask t))) = _
    rw [inMask, at''.found, size, sizeLine]

variable {above line below rest : List (Char × Role)} {returns : Text}
  (place : FieldPlace t model field front body back above line returns below rest)

include place

theorem FieldPlace.declaringLine_eq : declaringLine t model field = line := by
  rw [declaringLine, place.found]
  exact scanSlice_eq place.scanned

theorem FieldPlace.whole : t = written (front ++ ('{', .code) :: above) ++ written line ++ written rest := by
  conv => lhs; rw [← written_scanFrom .code true t, show scanFrom .code true t = scan t from rfl, place.scanned]
  simp

/-- The text is cut at the ends of the line. -/
theorem FieldPlace.cuts :
    takeBytes (byteSize (written (front ++ ('{', .code) :: above))) t = written (front ++ ('{', .code) :: above) ∧
      slice (byteSize (written (front ++ ('{', .code) :: above)))
        (byteSize (written (front ++ ('{', .code) :: above)) + byteSize (written line)) t = written line ∧
      dropBytes (byteSize (written (front ++ ('{', .code) :: above)) + byteSize (written line)) t = written rest := by
  have whole := place.whole
  generalize front ++ ('{', Role.code) :: above = opened at whole ⊢
  subst whole
  refine ⟨?_, slice_append _ _ _, ?_⟩
  · rw [List.append_assoc]
    exact takeBytes_byteSize_append _ _
  · rw [← byteSize_append]
    exact dropBytes_byteSize_append _ _

/-- A line that does not begin in a comment begins in code. -/
theorem FieldPlace.scan_anew (noComment : (front ++ ('{', .code) :: above).getLast? ≠ some ('\n', .comment)) :
    ∃ lineBlank, line ++ rest = scanFrom .code lineBlank (written (line ++ rest)) ∧
      ∀ v, scan (written (front ++ ('{', .code) :: above) ++ v) =
        (front ++ ('{', .code) :: above) ++ scanFrom .code lineBlank v := by
  rcases place.lineAt.begins with rfl | ⟨earlier, role, rfl⟩
  · have opened : scan t = front ++ ('{', .code) :: (line ++ rest) := by
      rw [place.scanned]
      simp
    obtain ⟨atLine, recut⟩ := scanFrom_behind (ScanState.fits_code t) opened (by decide) (by decide)
      (by decide) (by decide)
    exact ⟨false, atLine, fun v => by simpa [scan] using recut v⟩
  · have opened : scan t = (front ++ ('{', .code) :: earlier) ++ ('\n', role) :: (line ++ rest) := by
      rw [place.scanned]
      simp
    have inCode : role ≠ .comment := by
      rintro rfl
      rw [← List.cons_append, ← List.append_assoc, List.getLast?_concat] at noComment
      exact noComment rfl
    obtain ⟨atLine, recut⟩ := scanFrom_cut_newline (ScanState.fits_code t) opened
    rw [lineStartState, if_neg inCode] at atLine recut
    exact ⟨true, atLine, fun v => by simpa [scan] using recut v⟩

theorem FieldPlace.scan_behind (lone : isLoneLine t model field) :
    (masked (codePart line)).count '{' = (masked (codePart line)).count '}' ∧
      ∃ lineBlank, line ++ rest = scanFrom .code lineBlank (written (line ++ rest)) ∧
        ∀ v, scan (written (front ++ ('{', .code) :: above) ++ v) =
          (front ++ ('{', .code) :: above) ++ scanFrom .code lineBlank v := by
  have before : scanSlice 0 (byteSize (written (front ++ ('{', .code) :: above))) t = front ++ ('{', .code) :: above := by
    have atStart : scan t = [] ++ ((front ++ ('{', .code) :: above) ++ (line ++ rest)) := place.scanned
    simpa using scanSlice_eq atStart
  rw [isLoneLine, place.found] at lone
  change (_ && _) = true at lone
  rw [before, place.declaringLine_eq, Bool.and_eq_true, decide_eq_true_eq, decide_eq_true_eq] at lone
  exact ⟨lone.2, place.scan_anew lone.1⟩

/-- What is kept of the line is on that line, and begins with a space. -/
theorem FieldPlace.keptPart_form : '\n' ∉ written (keptPart line) ∧ Stops isWordChar (stripped (keptPart line)) := by
  rw [keptPart]
  split
  · exact ⟨List.not_mem_nil, stops_nil _⟩
  · refine ⟨fun member => ?_, by rw [stripped_cons_kept (by decide)]; exact stops_cons (by decide)⟩
    have inComment := (List.mem_cons.mp member).resolve_left (by decide)
    have inLine : '\n' ∈ written (codePart line ++ commentPart line) := by
      rw [written_append]
      exact List.mem_append_right _ inComment
    rw [codePart_append_commentPart] at inLine
    exact place.lineAt.inLine (by simp [inLine])

/-- The text with the line of a field replaced. A new line with the sign of a comment takes the place of the old comment
too. -/
theorem FieldPlace.replaceField_eq {lineBlank : Bool} (ascii : ∀ c ∈ t, isAscii c) (other : field ≠ protectedField)
    {new : Text} (noBrace : '}' ∉ new) (atLine : line ++ rest = scanFrom .code lineBlank (written (line ++ rest))) :
    replaceField t model field new = .ok (written (front ++ ('{', .code) :: above) ++
      (indent (written line) ++ trimEnd new ++
        ((if commentPart line = [] then [] else if occurs (txt "//") (trimEnd new) then []
          else ' ' :: trimEnd (written (commentPart line))) ++ (closingBreak (written rest) ++ written rest)))) := by
  obtain ⟨taken, current, after⟩ := place.cuts
  have whole := place.whole
  obtain ⟨opened, atOpened⟩ : ∃ opened, front ++ ('{', Role.code) :: above = opened := ⟨_, rfl⟩
  have scanned := place.scanned
  have found := place.found
  rw [atOpened] at scanned found taken current after whole ⊢
  have shown : slice (byteSize (written opened)) (byteSize (written opened) + byteSize (written line)) (strip t) =
      stripped line := by
    have parts : strip t = stripped opened ++ stripped line ++ stripped rest := by
      rw [← stripped_append, ← stripped_append, List.append_assoc, ← scanned]
      rfl
    rw [parts, ← byteSize_stripped opened, ← byteSize_stripped line]
    exact slice_append _ _ _
  have bare : ∀ c ∈ written [], isBlank c := List.forall_mem_nil _
  have apart : IsApart (written ([] ++ rest)) := place.tail.isApart bare
  have comment := trailingComment_items (show ScanState.code.inComment = false from rfl) atLine.symm apart
    fun c member => ascii c (by simp [whole, member])
  simp only [replaceField_eq_replaceAt other, found, replaceAt, taken, current, after, shown, comment, trimEnd_bare noBrace,
    closingBreak]
  by_cases none : commentPart line = []
  · simp [none, txt, Except.bind, pure, Except.pure, bind]
  · simp [none, txt, Except.bind, pure, Except.pure, bind]

/-- The text with the line of a field replaced, as it is scanned. -/
theorem FieldPlace.exists_replaced (ascii : ∀ c ∈ t, isAscii c) (other : field ≠ protectedField) {new : Text} {g : Field}
    (plain : IsPlainLine new) (read : parseField (trimEnd new) = some g) (lone : isLoneLine t model field) :
    ∃ t' shown gap, replaceField t model field new = .ok t' ∧ keptPart line = shown ++ gap ∧
      (∀ c ∈ written gap, isBlank c) ∧
      scan t' = front ++ ('{', .code) :: (above ++ (asCode (indent (written line) ++ trimEnd new) ++
        (shown ++ (asCode (closingBreak (written rest)) ++ (asCode returns ++ below)))) ++ ('}', .code) :: back) := by
  obtain ⟨-, lineBlank, atLine, behind⟩ := place.scan_behind lone
  have inLine : '\n' ∉ written line := fun member => place.lineAt.inLine (by simp [member])
  obtain ⟨shown, gap, parts, blank, atShown, kept⟩ := place.tail.scanFrom_kept inLine atLine.symm
  have noLine : ¬occurs (txt "//") (trimEnd new) := fun sign => plain.trimEnd.noLine (occurs_iff.mp sign)
  have replaced := place.replaceField_eq ascii other plain.noBrace.2 atLine
  rw [if_neg noLine] at replaced
  refine ⟨_, shown, gap, replaced, parts, blank, ?_⟩
  obtain ⟨c, more, atHead, letter⟩ := parseField_head read
  have visible := isBlank_eq_false_of_isWordChar letter
  have pads : ∀ c ∈ indent (written line), isBlank c := fun c member => (indent_blank c member).1
  have apart : IsApart (written shown ++ (closingBreak (written rest) ++ written rest)) := by
    rw [atShown]
    split
    · exact place.tail.isApart_break
    · exact isApart_cons (by decide) (by decide) _
  have dark : blankAfter lineBlank (indent (written line) ++ trimEnd new) = false := by
    rw [atHead]
    refine blankAfter_visible visible (fun member => plain.trimEnd.inLine ?_) lineBlank
    rw [atHead]
    exact List.mem_cons_of_mem c member
  rw [← atShown, behind, plain.trimEnd.scanFrom_line pads (isApart_of_parseField read) apart, dark, kept, place.tail.split]
  simp

theorem FieldPlace.body_eq :
    masked body = masked above ++ (masked (codePart line) ++ (masked (commentPart line) ++ (returns ++ masked below))) := by
  have inLine : masked line = masked (codePart line) ++ masked (commentPart line) := by
    rw [← masked_append, codePart_append_commentPart]
  simp [place.lineAt.split, masked_append, inLine]

/-- The braces of a body still pair up when a line that pairs its own gives way to one that has none. -/
theorem FieldPlace.block (at' : IsBlockBody (masked body)) {new : Text} (plain : IsPlainLine new)
    (paired : (masked (codePart line)).count '{' = (masked (codePart line)).count '}') {shown gap : List (Char × Role)}
    (parts : keptPart line = shown ++ gap) (blank : ∀ c ∈ written gap, isBlank c) :
    IsBlockBody (masked (above ++ (asCode (indent (written line) ++ trimEnd new) ++
      (shown ++ (asCode (closingBreak (written rest)) ++ (asCode returns ++ below)))))) := by
  obtain ⟨space, isSpace, atSpace⟩ : ∃ space : Text, (∀ c ∈ space, isBlank c) ∧
      space ++ masked (commentPart line) = masked shown ++ masked gap := by
    rw [← masked_append, ← parts, keptPart]
    split
    · rename_i none
      exact ⟨[], List.forall_mem_nil _, by rw [none]; rfl⟩
    · exact ⟨[' '], by decide, by rw [masked_cons_code]; rfl⟩
  have pads : ∀ c ∈ indent (written line), isBlank c := fun c member => (indent_blank c member).1
  have noBrace : '{' ∉ indent (written line) ++ trimEnd new ++ space ∧
      '}' ∉ indent (written line) ++ trimEnd new ++ space := by
    simp only [List.mem_append, not_or]
    exact ⟨⟨⟨(noBrace_of_blank pads).1, plain.trimEnd.noBrace.1⟩, (noBrace_of_blank isSpace).1⟩,
      ⟨⟨(noBrace_of_blank pads).2, plain.trimEnd.noBrace.2⟩, (noBrace_of_blank isSpace).2⟩⟩
  have pairedGap : (masked gap).count '{' = (masked gap).count '}' := paired_of_blank (shown_blank blank)
  -- first the code of the line gives way, then the white space behind its comment
  rw [place.body_eq] at at'
  have exchanged := at'.exchange paired noBrace
  have regroup : masked above ++ (indent (written line) ++ trimEnd new ++ space ++
      (masked (commentPart line) ++ (returns ++ masked below))) =
        masked above ++ (indent (written line) ++ trimEnd new ++ masked shown) ++
          (masked gap ++ (returns ++ masked below)) := by
    have inner := congrArg (· ++ (returns ++ masked below)) atSpace
    simp only [List.append_assoc] at inner ⊢
    rw [inner]
  rw [regroup] at exchanged
  have newline : ∀ c ∈ closingBreak (written rest), isBlank c := fun c member => closingBreak_blank member
  simpa [masked_append] using exchanged.exchange pairedGap (noBrace_of_blank newline)

end

/-- What is read in front of the start of a line does not depend on what stands behind. -/
theorem body_above {above : List (Char × Role)} (begins : above = [] ∨ ∃ earlier role, above = earlier ++ [('\n', role)])
    (u : Text) :
    bodyFields (stripped above ++ u) = bodyFields (stripped above) ++ bodyFields u ∧
      bodyAttributes (stripped above ++ u) = bodyAttributes (stripped above) ++ bodyAttributes u := by
  obtain ⟨noField, noAttribute⟩ := body_blank (List.forall_mem_nil _)
  rcases begins with rfl | ⟨earlier, role, rfl⟩
  · rw [stripped_nil, noField, noAttribute]
    exact ⟨rfl, rfl⟩
  · have split (v : Text) : stripped (earlier ++ [('\n', role)]) ++ v = stripped earlier ++ '\n' :: v := by
      simp [stripped_append]
    have alone := split []
    rw [List.append_nil] at alone
    rw [split, alone, bodyFields_append_newline, bodyFields_append_newline, bodyAttributes_append_newline,
      bodyAttributes_append_newline, noField, noAttribute, List.append_nil, List.append_nil]
    exact ⟨rfl, rfl⟩

theorem LineRest.stripped_below {returns : Text} {below back rest : List (Char × Role)}
    (tail : LineRest returns below back rest) : stripped below = [] ∨ ∃ v, stripped below = '\n' :: v := by
  rcases tail.ends with rfl | ⟨role, later, rfl⟩
  · exact Or.inl rfl
  · exact Or.inr ⟨stripped later, by simp⟩

/-- Between a line and the next one, or the closing brace, stands white space, and what follows is read as before. -/
theorem LineRest.exists_behind {returns : Text} {below back rest : List (Char × Role)}
    (tail : LineRest returns below back rest) :
    ∃ ends behind, closingBreak (written rest) ++ (returns ++ stripped below) = ends ++ behind ∧
      (∀ c ∈ ends, isBlank c ∧ c ≠ '\n') ∧ (behind = [] ∨ ∃ v, behind = '\n' :: v) ∧
      bodyFields behind = bodyFields (stripped below) ∧ bodyAttributes behind = bodyAttributes (stripped below) := by
  by_cases brace : (written rest).head? = some '}'
  · have none : returns = [] ∧ below = [] := by
      rw [tail.split] at brace
      rcases returns with _ | ⟨c, more⟩
      · rcases tail.ends with rfl | ⟨role, later, rfl⟩
        · exact ⟨rfl, rfl⟩
        · simp [asCode] at brace
      · obtain rfl : c = '\r' := tail.returns c List.mem_cons_self
        simp [asCode] at brace
    obtain ⟨rfl, rfl⟩ := none
    have newline : ∀ c ∈ ['\n'], isBlank c := by decide
    obtain ⟨noField, noAttribute⟩ := body_blank newline
    obtain ⟨noField', noAttribute'⟩ := body_blank (List.forall_mem_nil _)
    refine ⟨[], ['\n'], by simp [closingBreak, brace], List.forall_mem_nil _, Or.inr ⟨[], rfl⟩, ?_, ?_⟩
    · rw [noField, stripped_nil, noField']
    · rw [noAttribute, stripped_nil, noAttribute']
  · exact ⟨returns, stripped below, by simp [closingBreak, brace], tail.blanks, tail.stripped_below, rfl, rfl⟩

section

variable {t model field new : Text} {d : Declaration} {front body back above line below rest : List (Char × Role)}
  {returns : Text} (place : FieldPlace t model field front body back above line returns below rest)

include place

/-- The fields in front of the line, that of the line and those behind it. -/
theorem FieldPlace.body_fields {raw : Text} {f : Field}
    (atRaw : raw = stripped (line ++ asCode returns) ++ (if below = [] then [] else ['\n']))
    (reads : parseField (trim raw) = some f) :
    bodyFields (stripped body) = bodyFields (stripped above) ++ f :: bodyFields (stripped below) ∧
      bodyAttributes (stripped body) = bodyAttributes (stripped above) ++ bodyAttributes (stripped below) := by
  have lineEnd : ∀ c ∈ (if below = [] then [] else ['\n']), isBlank c := by
    split <;> decide
  have trimmed : trim raw = trim (stripped (line ++ asCode returns)) := by
    rw [atRaw]
    exact trim_append (List.forall_mem_nil _) _ lineEnd
  rw [trimmed] at reads
  obtain ⟨isField, noAttribute⟩ := lineField?_of_parseField reads
  obtain ⟨fields, attributes⟩ := body_row_append (newline_not_mem_stripped place.lineAt.inLine) place.tail.stripped_below
  obtain ⟨allFields, allAttributes⟩ := body_above place.lineAt.begins (stripped (line ++ asCode returns) ++ stripped below)
  rw [place.lineAt.split, stripped_append, stripped_append, allFields, allAttributes, fields, attributes, isField,
    noAttribute]
  exact ⟨rfl, rfl⟩

/-- The same with another line. -/
theorem FieldPlace.replaced_fields {lead bare : Text} {shown : List (Char × Role)} {h : Field}
    (blank : ∀ c ∈ lead, isBlank c ∧ c ≠ '\n') (read : parseField (bare ++ stripped shown) = some h)
    (inLine : '\n' ∉ bare ++ stripped shown) :
    bodyFields (stripped (above ++ (asCode (lead ++ bare) ++
        (shown ++ (asCode (closingBreak (written rest)) ++ (asCode returns ++ below)))))) =
      bodyFields (stripped above) ++ h :: bodyFields (stripped below) ∧
    bodyAttributes (stripped (above ++ (asCode (lead ++ bare) ++
        (shown ++ (asCode (closingBreak (written rest)) ++ (asCode returns ++ below)))))) =
      bodyAttributes (stripped above) ++ bodyAttributes (stripped below) := by
  obtain ⟨ends, behind, split, white, start, sameFields, sameAttributes⟩ := place.tail.exists_behind
  have text : stripped (above ++ (asCode (lead ++ bare) ++
      (shown ++ (asCode (closingBreak (written rest)) ++ (asCode returns ++ below))))) =
        stripped above ++ (lead ++ (bare ++ stripped shown ++ ends) ++ behind) := by
    simp only [stripped_append, stripped_asCode, split, List.append_assoc]
  have oneLine : '\n' ∉ bare ++ stripped shown ++ ends := by
    intro member
    exact (List.mem_append.mp member).elim inLine fun inside => (white _ inside).2 rfl
  have whole : '\n' ∉ lead ++ (bare ++ stripped shown ++ ends) := by
    intro member
    exact (List.mem_append.mp member).elim (fun inside => (blank _ inside).2 rfl) oneLine
  obtain ⟨isField, noAttribute⟩ := parseField_row (parseField_append_blanks read inLine white) oneLine
    fun c member => (blank c member).1
  obtain ⟨fields, attributes⟩ := body_row_append whole start
  obtain ⟨allFields, allAttributes⟩ := body_above place.lineAt.begins (lead ++ (bare ++ stripped shown ++ ends) ++ behind)
  rw [text, allFields, allAttributes, fields, attributes, isField, noAttribute, sameFields, sameAttributes]
  exact ⟨rfl, rfl⟩

end

/-- Replacing a field replaces exactly that field, in its place. The line of the field has to stand for itself: no comment
from above ends on it, and its code closes the braces that it opens. What stands on the line from its first comment on
stays there and is read with the new line, so that the new field is the one that was asked for if only comments are left. -/
theorem parse_replaceField {t model field line raw : Text} {d : Declaration} {f g : Field} (ascii : ∀ c ∈ t, isAscii c)
    (found : findModel model t = some d) (closed : d.close.isSome) (other : field ≠ protectedField)
    (declared : (lines (d.body (strip t))).find? (declares field) = some raw) (reads : parseField (trim raw) = some f)
    (named : f.name = field) (plain : IsPlainLine line) (read : parseField line = some g) (same : g.name = field)
    (lone : isLoneLine t model field) :
    ∃ m out h, (Document.parse t).model? model = some m ∧ m.field? field = some f ∧
      replaceField t model field line = .ok out ∧ parseField (trimEnd line ++ keptText t model field) = some h ∧
      h.name = field ∧ ((∀ c ∈ keptText t model field, isBlank c) → h = g) ∧
      Document.parse out = (Document.parse t).changeModel model (·.setField h) := by
  subst named
  obtain ⟨front, body, back, at'⟩ := Declaration.bodyAt (List.mem_of_find?_eq_some found) closed
  rw [at'.body_eq] at declared
  obtain ⟨above, old, returns, below, rest, place, atRaw⟩ :=
    at'.exists_fieldPlace found (parseField_form reads).1 declared
  have bare := parseField_trimEnd read plain.inLine
  obtain ⟨out, shown, gap, replaced, parts, blank, scanned'⟩ := place.exists_replaced ascii other plain bare lone
  have kept : keptText t model f.name = stripped shown ++ stripped gap := by
    rw [keptText, place.declaringLine_eq, parts, stripped_append]
  -- the white space at the end of the comment is not written again, so that the row ends before `keptText` does
  obtain ⟨oneLine, parted⟩ := place.keptPart_form
  rw [parts] at oneLine
  rw [← place.declaringLine_eq, ← keptText, kept] at parted
  rw [written_append, List.mem_append, not_or] at oneLine
  have inShown : '\n' ∉ trimEnd line ++ stripped shown := by
    intro member
    exact (List.mem_append.mp member).elim plain.trimEnd.inLine (newline_not_mem_stripped oneLine.1)
  have blankGap : ∀ c ∈ stripped gap, isBlank c ∧ c ≠ '\n' := by
    intro c member
    refine ⟨shown_blank blank c member, ?_⟩
    rintro rfl
    exact newline_not_mem_stripped oneLine.2 member
  obtain ⟨h, longer, name, exactly⟩ := parseField_append_tail bare inShown (parted.of_isPrefix (List.prefix_append _ _))
  rw [same] at name
  obtain ⟨before, -⟩ := at'.parse_exchange found at'.scanned at'.block
  obtain ⟨paired, -⟩ := place.scan_behind lone
  obtain ⟨fields, attributes⟩ := place.body_fields atRaw reads
  obtain ⟨fields', attributes'⟩ := place.replaced_fields indent_blank longer inShown
  have first : ∀ b ∈ bodyFields (stripped above), b.name ≠ f.name := place.lineAt.first
  refine ⟨_, out, h, before, ?_, replaced, ?_, name, fun blankKept => exactly fun c member => blankKept c ?_, ?_⟩
  · rw [Model.ofBody_eq_bodyFields, Model.field?, find?_keepFirst, fields, List.find?_append,
      List.find?_eq_none.mpr fun b member => by simpa using first b member, Option.none_or]
    exact List.find?_cons_of_pos (by simp)
  · rw [kept, ← List.append_assoc]
    exact parseField_append_blanks longer inShown blankGap
  · rw [kept]
    exact List.mem_append_left _ member
  · refine at'.parse_change found scanned' (place.block at'.block plain paired parts blank) ?_
    have sameName : h.name = f.name := name
    rw [Model.ofBody_eq_bodyFields, Model.ofBody_eq_bodyFields, fields, attributes, fields', attributes',
      keepFirst_exchange sameName first, Model.setField, sameName]

def remarkedFieldSchema : Text :=
  txt "model Post \x7b\n  id Int @id // key\n  /* long\n     remark */\n" ++
    txt "  title String /* old */ // name\n  body String\n\x7d\n"

theorem parse_replaceField_remarkedFieldSchema :
    ∃ d f g raw, (∀ c ∈ remarkedFieldSchema, isAscii c) ∧ findModel (txt "Post") remarkedFieldSchema = some d ∧
      d.close.isSome ∧ txt "title" ≠ protectedField ∧
      (lines (d.body (strip remarkedFieldSchema))).find? (declares (txt "title")) = some raw ∧
      parseField (trim raw) = some f ∧ f.name = txt "title" ∧ IsPlainLine (txt "title String? @unique") ∧
      parseField (txt "title String? @unique") = some g ∧ g.name = txt "title" ∧
      isLoneLine remarkedFieldSchema (txt "Post") (txt "title") = true ∧
      ∃ m out h, (Document.parse remarkedFieldSchema).model? (txt "Post") = some m ∧ m.field? (txt "title") = some f ∧
        replaceField remarkedFieldSchema (txt "Post") (txt "title") (txt "title String? @unique") = .ok out ∧
        parseField (trimEnd (txt "title String? @unique") ++ keptText remarkedFieldSchema (txt "Post") (txt "title")) =
          some h ∧ h.name = txt "title" ∧
        ((∀ c ∈ keptText remarkedFieldSchema (txt "Post") (txt "title"), isBlank c) → h = g) ∧
        Document.parse out = (Document.parse remarkedFieldSchema).changeModel (txt "Post") (·.setField h) := by
  have ascii : ∀ c ∈ remarkedFieldSchema, isAscii c := by decide +kernel
  have found : findModel (txt "Post") remarkedFieldSchema = some ⟨.model, txt "Post", 0, 11, some 105, 105⟩ := by
    decide +kernel
  have plain : IsPlainLine (txt "title String? @unique") := ⟨by decide, by decide, by decide, by decide, by decide⟩
  have read : parseField (txt "title String? @unique") =
      some ⟨txt "title", txt "String", false, true, [txt "@unique"], none⟩ := by decide +kernel
  have other : txt "title" ≠ protectedField := by decide
  have declared : (lines (Declaration.body ⟨.model, txt "Post", 0, 11, some 105, 105⟩ (strip remarkedFieldSchema))).find?
      (declares (txt "title")) = some (txt "  title String                  \n") := by decide +kernel
  have reads : parseField (trim (txt "  title String                  \n")) =
      some ⟨txt "title", txt "String", false, false, [], none⟩ := by decide +kernel
  have lone : isLoneLine remarkedFieldSchema (txt "Post") (txt "title") = true := by decide +kernel
  exact ⟨_, _, _, _, ascii, found, rfl, other, declared, reads, rfl, plain, read, rfl, lone,
    parse_replaceField ascii found rfl other declared reads rfl plain read rfl lone⟩

def keyedFieldSchema : Text := txt "model A \x7b\n  id Int @id\n  b /* key */ Int @unique\n\x7d\n"

/-- What stands behind a comment inside of the line is taken for part of the comment. It stays, and is read with the
new line. -/
theorem replaceField_attribute_keyedFieldSchema :
    ¬ ∀ (t model field line raw : Text) (d : Declaration) (f g : Field), (∀ c ∈ t, isAscii c) →
      findModel model t = some d → d.close.isSome → field ≠ protectedField →
      (lines (d.body (strip t))).find? (declares field) = some raw → parseField (trim raw) = some f → f.name = field →
      IsPlainLine line → parseField line = some g → g.name = field →
      ∃ out, replaceField t model field line = .ok out ∧
        Document.parse out = (Document.parse t).changeModel model (·.setField g) := by
  intro all
  obtain ⟨out, replaced, parsed⟩ := all keyedFieldSchema (txt "A") (txt "b") (txt "b Int?")
    (txt "  b           Int @unique\n") ⟨.model, txt "A", 0, 8, some 49, 49⟩
    ⟨txt "b", txt "Int", false, false, [txt "@unique"], none⟩ ⟨txt "b", txt "Int", false, true, [], none⟩
    (by decide +kernel) (by decide +kernel) rfl (by decide) (by decide +kernel) (by decide +kernel) rfl
    ⟨by decide, by decide, by decide, by decide, by decide⟩ (by decide +kernel) rfl
  have written : replaceField keyedFieldSchema (txt "A") (txt "b") (txt "b Int?") =
      .ok (txt "model A \x7b\n  id Int @id\n  b Int? /* key */ Int @unique\n\x7d\n") := by decide +kernel
  rw [written] at replaced
  obtain rfl := Except.ok.inj replaced
  revert parsed
  decide +kernel

end SchemaDiagram

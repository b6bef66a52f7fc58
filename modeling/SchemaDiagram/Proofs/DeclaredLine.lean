import SchemaDiagram.Proofs.BodyFields
import SchemaDiagram.Proofs.CodeItems
import SchemaDiagram.Proofs.FieldCuts
import SchemaDiagram.Proofs.ShownLines

namespace SchemaDiagram

open Text

section

variable {field : Text}

/-- Whether a text begins with a name and white space. -/
def beginsWith (field t : Text) : Bool :=
  match field.isPrefixOf? t with
  | some rest => rest.head?.any isBlank
  | none => false

theorem declares_eq (field line : Text) : declares field line = beginsWith field (trimStart line) := rfl

theorem declares_append_blanks {gap : Text} (blank : ∀ c ∈ gap, isBlank c) (t : Text) :
    declares field (gap ++ t) = declares field t := by
  rw [declares_eq, declares_eq, trimStart, List.dropWhile_append_of_pos blank]
  rfl

theorem declares_visible {c : Char} (visible : isBlank c = false) (t : Text) :
    declares field (c :: t) = beginsWith field (c :: t) := by
  rw [declares_eq, trimStart, List.dropWhile_cons_of_neg (by simp [visible])]

theorem beginsWith_cons (a c : Char) (u t : Text) :
    beginsWith (a :: u) (c :: t) = if a = c then beginsWith u t else false := by
  rw [beginsWith, isPrefixOf?_cons_cons]
  by_cases same : a = c
  · rw [if_pos same, if_pos same]
    rfl
  · rw [if_neg same, if_neg same]

theorem beginsWith_of_head (word : IsWord field) {c : Char} (noLetter : isWordChar c = false) (t : Text) :
    beginsWith field (c :: t) = false := by
  obtain ⟨a, u, rfl⟩ := List.exists_cons_of_ne_nil word.1
  rw [beginsWith_cons, if_neg]
  rintro rfl
  exact absurd (word.2 a List.mem_cons_self) (by simp [noLetter])

/-- Behind a character that is no letter the rest of the text does not count. -/
theorem beginsWith_other {w : Text} (letters : ∀ a ∈ w, isWordChar a) {c : Char} (noLetter : isWordChar c = false)
    (t t' : Text) : beginsWith w (c :: t) = beginsWith w (c :: t') := by
  cases w with
  | nil => rfl
  | cons a w =>
    have differ : a ≠ c := by
      rintro rfl
      exact absurd (letters a List.mem_cons_self) (by simp [noLetter])
    rw [beginsWith_cons, beginsWith_cons, if_neg differ, if_neg differ]

end

section

variable {t : Text} {line rest : List (Char × Role)}

/-- The name at a place in code is the same in the masked and in the stripped line. -/
theorem beginsWith_stripped {w : Text} (letters : ∀ a ∈ w, isWordChar a)
    (items : scanFrom .code false t = line ++ rest) (inLine : '\n' ∉ written line) (ends : Text) :
    beginsWith w (masked line ++ ends) = beginsWith w (stripped line ++ ends) := by
  induction line generalizing t w with
  | nil => rfl
  | cons item line ih =>
    rcases t with _ | ⟨c, t⟩
    · cases items
    rw [scanFrom_cons, List.cons_append] at items
    obtain ⟨rfl, more⟩ := List.cons_eq_cons.mp items
    obtain ⟨other, oneLine⟩ := List.ne_and_not_mem_of_not_mem_cons inLine
    have dark : lineBlankAfter false c = false := by simp [lineBlankAfter, other.symm]
    rcases ScanState.step_code_cases false c t with ⟨rfl, step⟩ | comment | ⟨blank, -⟩ | step
    · rw [step, masked_cons_code, stripped_cons_kept (by decide)]
      exact beginsWith_other letters (by decide) _ _
    · obtain ⟨n, size⟩ := Nat.exists_eq_succ_of_ne_zero (Nat.ne_of_gt c.utf8Size_pos)
      rw [comment, masked_cons_blanked (by decide) other.symm, stripped_cons_comment other.symm, size, List.replicate_succ]
      exact beginsWith_other letters (by decide) _ _
    · cases blank
    · rw [step, dark] at more
      rw [step, masked_cons_code, stripped_cons_kept (by decide)]
      cases w with
      | nil => rfl
      | cons a w =>
        rw [List.cons_append, List.cons_append, beginsWith_cons, beginsWith_cons,
          ih (fun b member => letters b (List.mem_cons_of_mem a member)) more oneLine]

theorem masked_lineComment {role : Role} (lost : role ≠ .code) {lineBlank : Bool}
    (items : scanFrom (.lineComment role) lineBlank t = line ++ rest) (inLine : '\n' ∉ written line) :
    ∀ c ∈ masked line, isBlank c := by
  induction line generalizing t lineBlank with
  | nil => exact List.forall_mem_nil _
  | cons item line ih =>
    rcases t with _ | ⟨c, t⟩
    · cases items
    rw [scanFrom_cons, List.cons_append] at items
    obtain ⟨rfl, more⟩ := List.cons_eq_cons.mp items
    obtain ⟨other, oneLine⟩ := List.ne_and_not_mem_of_not_mem_cons inLine
    rw [ScanState.step_lineComment other.symm] at more ⊢
    rw [masked_cons_blanked lost other.symm]
    intro d member
    rcases List.mem_append.mp member with space | later
    · exact isBlank_of_mem_spaces space
    · exact ih more oneLine d later

/-- A line declares the same fields whether its strings are blanked or not. -/
theorem declares_stripped {field : Text} (word : IsWord field) {state : ScanState} {lineBlank : Bool}
    (settled : state.settled = .code) (items : scanFrom state lineBlank t = line ++ rest) (inLine : '\n' ∉ written line)
    {ends : Text} (blank : ∀ c ∈ ends, isBlank c) :
    declares field (masked line ++ ends) = declares field (stripped line ++ ends) := by
  induction line generalizing t state lineBlank with
  | nil => rfl
  | cons item line ih =>
    rcases t with _ | ⟨c, t⟩
    · cases items
    rw [scanFrom_cons, List.cons_append] at items
    obtain ⟨rfl, more⟩ := List.cons_eq_cons.mp items
    obtain ⟨other, oneLine⟩ := List.ne_and_not_mem_of_not_mem_cons inLine
    by_cases comment : (state.step lineBlank c t).1 = .comment
    · have spaces : ∀ d ∈ List.replicate c.utf8Size ' ', isBlank d := fun d => isBlank_of_mem_spaces
      rw [comment, masked_cons_blanked (by decide) other.symm, stripped_cons_comment other.symm, List.append_assoc,
        List.append_assoc, declares_append_blanks spaces, declares_append_blanks spaces]
      exact ih (ScanState.settled_comment comment).2 more oneLine
    rw [stripped_cons_kept comment]
    obtain rfl : state = .code := (ScanState.code_or_newline settled comment).resolve_right fun both => other both.1.symm
    rcases ScanState.step_code_cases lineBlank c t with ⟨rfl, step⟩ | inComment | ⟨-, rfl, step⟩ | step
    · rw [step, masked_cons_code, List.cons_append, List.cons_append, declares_visible (by decide),
        declares_visible (by decide), beginsWith_of_head word (by decide), beginsWith_of_head word (by decide)]
    · exact absurd inComment comment
    · rw [step] at more ⊢
      have dark := masked_lineComment (by decide) more oneLine
      have bare : ∀ d ∈ masked (('/', .separator) :: line) ++ ends, isBlank d := by
        rw [masked_cons_blanked (by decide) (by decide)]
        simp only [List.mem_append, or_imp, forall_and]
        exact ⟨⟨fun d => isBlank_of_mem_spaces, dark⟩, blank⟩
      rw [declares_blank bare, List.cons_append, declares_visible (by decide), beginsWith_of_head word (by decide)]
    · rw [step] at more ⊢
      rw [masked_cons_code, List.cons_append, List.cons_append]
      by_cases white : isBlank c
      · have gap : ∀ d ∈ [c], isBlank d := by simpa using white
        have same := ih rfl more oneLine
        rwa [← declares_append_blanks gap, ← declares_append_blanks gap (stripped line ++ ends)] at same
      · have visible : isBlank c = false := by simpa using white
        have dark : lineBlankAfter lineBlank c = false := by simp [lineBlankAfter, other.symm, visible]
        rw [dark] at more
        obtain ⟨a, u, rfl⟩ := List.exists_cons_of_ne_nil word.1
        rw [declares_visible visible, declares_visible visible, beginsWith_cons, beginsWith_cons,
          beginsWith_stripped (fun b member => word.2 b (List.mem_cons_of_mem a member)) more oneLine ends]

end

/-- A row that gives a field declares it. -/
theorem declares_of_lineField? {r : Text} {f : Field} (read : lineField? (trim r) = some f) :
    declares f.name (r ++ ['\n']) := by
  have newline : ∀ c ∈ ['\n'], isBlank c := by decide
  have word : IsWord f.name := by
    rw [lineField?] at read
    split at read
    · cases read
    · exact (parseField_form read).1
  rw [declares_newline_iff word, firstWord?_append newline, ← firstWord?_trim]
  exact firstWord?_of_lineField? read

/-- The first line of a body that declares a field. -/
structure LineAt (field : Text) (body above line below : List (Char × Role)) : Prop where
  split : body = above ++ (line ++ below)
  begins : above = [] ∨ ∃ earlier role, above = earlier ++ [('\n', role)]
  inLine : '\n' ∉ written line
  ends : below = [] ∨ ∃ role later, below = ('\n', role) :: later
  first : ∀ f ∈ bodyFields (stripped above), f.name ≠ field
  declared : declares field (stripped line ++ if below = [] then [] else ['\n'])
  found : ∀ offset, fieldLineFrom field offset (lines (masked body)) =
    some (offset + byteSize (written above),
      offset + byteSize (written above) + byteSize (dropEndWhile isLineEnd (masked line)))

section

variable {field : Text} (word : IsWord field) {body back : List (Char × Role)} {state : ScanState} {lineBlank : Bool} {t : Text}

include word

theorem lineAt_only (settled : state.settled = .code) (scanned : scanFrom state lineBlank t = body ++ back)
    (inLine : '\n' ∉ written body) (declared : declares field (stripped body)) : LineAt field body [] body [] := by
  have inMask : declares field (masked body) := by
    have same := declares_stripped word settled scanned inLine (List.forall_mem_nil _)
    rw [List.append_nil, List.append_nil] at same
    rwa [same]
  refine ⟨by simp, Or.inl rfl, inLine, Or.inl rfl, fun f member => ?_, by simpa using declared, fun offset => ?_⟩
  · rw [stripped_nil, (body_blank (List.forall_mem_nil _)).1] at member
    cases member
  · rcases lines_oneLine (newline_not_mem_masked inLine) with none | one
    · have empty := flatten_lines (masked body)
      rw [none] at empty
      rw [← empty] at inMask
      exact absurd inMask (by simp [declares_blank])
    · rw [one, fieldLineFrom, if_pos inMask]
      rfl

theorem lineAt_first {earlier later : List (Char × Role)} {role : Role} (settled : state.settled = .code)
    (scanned : scanFrom state lineBlank t = earlier ++ (('\n', role) :: later ++ back)) (inLine : '\n' ∉ written earlier)
    (declared : declares field (stripped earlier ++ ['\n'])) :
    LineAt field (earlier ++ ('\n', role) :: later) [] earlier (('\n', role) :: later) := by
  have newline : ∀ c ∈ ['\n'], isBlank c := by decide
  have lineEnd : ∀ c ∈ ['\n'], isLineEnd c := by decide
  refine ⟨by simp, Or.inl rfl, inLine, Or.inr ⟨role, later, rfl⟩, fun f member => ?_, by simpa using declared,
    fun offset => ?_⟩
  · rw [stripped_nil, (body_blank (List.forall_mem_nil _)).1] at member
    cases member
  · rw [masked_append, masked_newline, lines_append_newline (newline_not_mem_masked inLine), fieldLineFrom,
      if_pos (by rwa [declares_stripped word settled scanned inLine newline]), dropEndWhile_append_of_forall _ lineEnd]
    rfl

theorem LineAt.below {earlier later above line below : List (Char × Role)} {role : Role} (settled : state.settled = .code)
    (scanned : scanFrom state lineBlank t = earlier ++ (('\n', role) :: later ++ back)) (inLine : '\n' ∉ written earlier)
    (other : ¬declares field (stripped earlier ++ ['\n'])) (at' : LineAt field later above line below) :
    LineAt field (earlier ++ ('\n', role) :: later) (earlier ++ ('\n', role) :: above) line below := by
  have newline : ∀ c ∈ ['\n'], isBlank c := by decide
  refine ⟨by simp [at'.split], Or.inr ?_, at'.inLine, at'.ends, fun f member => ?_, at'.declared, fun offset => ?_⟩
  · rcases at'.begins with rfl | ⟨between, role', rfl⟩
    · exact ⟨earlier, role, rfl⟩
    · exact ⟨earlier ++ ('\n', role) :: between, role', by simp⟩
  · rw [stripped_append, stripped_newline, bodyFields_append_newline, List.mem_append] at member
    rcases member with here | above
    · rw [bodyFields_row (newline_not_mem_stripped inLine)] at here
      rintro rfl
      exact other (declares_of_lineField? (by simpa using here))
    · exact at'.first f above
  · rw [masked_append, masked_newline, lines_append_newline (newline_not_mem_masked inLine), fieldLineFrom,
      if_neg (by rwa [declares_stripped word settled scanned inLine newline]), at'.found, byteSize_append, byteSize_masked,
      written_append, byteSize_append, written_cons, byteSize_cons, byteSize_cons, byteSize_nil,
      show '\n'.utf8Size = 1 from rfl]
    simp only [Nat.add_assoc, Nat.add_zero]

/-- The line that declares a field is found in the masked text where a reader of the stripped text finds it. -/
theorem exists_declared_line {raw : Text} (settled : state.settled = .code) (fits : state.Fits t)
    (scanned : scanFrom state lineBlank t = body ++ back) (found : (lines (stripped body)).find? (declares field) = some raw) :
    ∃ above line below, LineAt field body above line below ∧
      raw = stripped line ++ (if below = [] then [] else ['\n']) := by
  -- line by line: behind a newline the scanner is in code or in a block comment, never in a string
  induction size : body.length using Nat.strong_induction_on generalizing body state lineBlank t with
  | _ n ih =>
    by_cases newline : '\n' ∈ written body
    · obtain ⟨earlier, role, later, rfl, inLine⟩ := exists_newline newline
      have split : stripped (earlier ++ ('\n', role) :: later) = stripped earlier ++ '\n' :: stripped later := by
        rw [stripped_append, stripped_newline]
      rw [split, lines_append_newline (newline_not_mem_stripped inLine)] at found
      rw [List.append_assoc] at scanned
      by_cases declared : declares field (stripped earlier ++ ['\n'])
      · rw [List.find?_cons_of_pos declared] at found
        refine ⟨[], earlier, ('\n', role) :: later, lineAt_first word settled scanned inLine declared, ?_⟩
        simpa using (Option.some.inj found).symm
      · rw [List.find?_cons_of_neg declared] at found
        have atLater := (scanFrom_cut_newline fits scanned).1
        obtain ⟨above, line, below, at', atRaw⟩ := ih later.length (by simp [← size]; omega) (settled_lineStartState role)
          (fits_lineStartState role _) atLater.symm found rfl
        exact ⟨earlier ++ ('\n', role) :: above, line, below, at'.below word settled scanned inLine declared, atRaw⟩
    · rcases lines_oneLine (newline_not_mem_stripped newline) with none | one
      · rw [none] at found
        cases found
      · rw [one] at found
        have declared := List.find?_some found
        obtain rfl : raw = stripped body := by simpa using List.mem_of_find?_eq_some found
        exact ⟨[], body, [], lineAt_only word settled scanned newline declared, by simp⟩

end

end SchemaDiagram

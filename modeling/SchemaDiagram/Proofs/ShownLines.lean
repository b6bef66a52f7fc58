import SchemaDiagram.Proofs.RowEffects
import SchemaDiagram.Proofs.WrittenField

namespace SchemaDiagram

open Text

/-- What the rows of a model show: their lines without comments, but for the blank ones. -/
def shownLines (rs : List Text) : List Text := (rs.map rowLine).filter fun l => !l.isEmpty

/-- The first field of a name that some lines give. -/
def linesField? (ls : List Text) (name : Text) : Option Field := (ls.filterMap lineField?).find? (·.name = name)

theorem shownLines_append (front back : List Text) : shownLines (front ++ back) = shownLines front ++ shownLines back := by
  rw [shownLines, List.map_append, List.filter_append]
  rfl

theorem shownLines_singleton {r l : Text} (line : rowLine r = l) (some : l ≠ []) : shownLines [r] = [l] := by
  simp [shownLines, line, some]

theorem shownLines_bare {rs : List Text} (bare : ∀ r ∈ rs, isBareRow r) : shownLines rs = [] := by
  refine List.filter_eq_nil_iff.mpr fun l member => ?_
  obtain ⟨r, inside, rfl⟩ := List.mem_map.mp member
  simpa [isBareRow] using bare r inside

/-- The fields of a model are those of its lines. -/
theorem Model.ofRows_eq (name : Text) (rs : List Text) :
    Model.ofRows name rs =
      { name
        fields := keepFirst Field.name ((shownLines rs).filterMap lineField?)
        attributes := (shownLines rs).flatMap lineAttributes } := by
  have fields : rs.filterMap rowField? = (shownLines rs).filterMap lineField? := by
    rw [shownLines, List.filterMap_filter, List.filterMap_map]
    refine List.filterMap_congr fun r _ => ?_
    rw [rowField?, Function.comp]
    by_cases bare : rowLine r = []
    · rw [bare]
      rfl
    · rw [if_pos (by simpa using bare)]
  have attributes (ls : List Text) :
      ls.flatMap lineAttributes = (ls.filter fun l => !l.isEmpty).flatMap lineAttributes := by
    induction ls with
    | nil => rfl
    | cons l ls ih =>
      rw [List.flatMap_cons, ih]
      rcases l with _ | ⟨c, l⟩ <;> rfl
  rw [Model.ofRows, fields, shownLines, ← attributes, List.flatMap_map]

theorem Model.field?_ofRows (name : Text) (rs : List Text) (key : Text) :
    (Model.ofRows name rs).field? key = linesField? (shownLines rs) key := by
  rw [Model.ofRows_eq, Model.field?, find?_keepFirst]
  rfl

section

variable {field line r t : Text} {rs : List Text}

/-- White space behind a text makes no difference to its first word. -/
theorem firstWord?_append {back : Text} (blanks : ∀ c ∈ back, isBlank c) (t : Text) :
    firstWord? (t ++ back) = firstWord? t := by
  have none : back.takeWhile (fun c => !isBlank c) = [] := by
    rcases back with _ | ⟨c, back⟩
    · rfl
    · rw [List.takeWhile_cons_of_neg (by simp [blanks c List.mem_cons_self])]
  have word : (trimStart (t ++ back)).takeWhile (fun c => !isBlank c) =
      (trimStart t).takeWhile fun c => !isBlank c := by
    rw [trimStart, trimStart, List.dropWhile_append]
    split
    · rename_i empty
      rw [List.isEmpty_iff.mp empty, List.dropWhile_eq_nil_iff.mpr blanks]
    · rw [List.takeWhile_append, none]
      split
      · rename_i whole
        rw [List.append_nil, (List.takeWhile_prefix _).eq_of_length whole]
      · rfl
  rw [firstWord?, firstWord?, word]

theorem firstWord?_trim (t : Text) : firstWord? (trim t) = firstWord? t := by
  obtain ⟨back, whole, blanks⟩ := dropEndWhile_split isBlank (trimStart t)
  have start : firstWord? (trimStart t) = firstWord? t := by
    rw [firstWord?, firstWord?, trimStart, trimStart, dropWhile_eq_self (stops_dropWhile isBlank t)]
  rw [← start, whole, firstWord?_append blanks]
  rfl

theorem firstWord?_word_append (word : IsWord field) {rest : Text} (parted : Follows [] rest) :
    firstWord? (field ++ rest) = some field := by
  have stops : Stops (fun c => !isBlank c) rest := by
    intro c head
    simpa using (parted c head).resolve_left (by simp)
  have taken : (field ++ rest).takeWhile (fun c => !isBlank c) = field :=
    takeWhile_append_stops (fun c member => by simp [word.visible c member]) stops
  rw [firstWord?, trimStart, dropWhile_eq_self (word.stops_isBlank rest), taken]
  obtain ⟨c, more, rfl⟩ := List.exists_cons_of_ne_nil word.1
  rfl

/-- A line declares a field if this is its first word and something stands behind it. -/
theorem declares_iff (word : IsWord field) :
    declares field t ↔ firstWord? t = some field ∧ trimStart t ≠ field := by
  constructor
  · intro declared
    unfold declares at declared
    split at declared
    · rename_i rest found
      have whole := isPrefixOf?_eq_some_iff.mp found
      have parted : Follows [] rest := by
        intro c head
        rw [head] at declared
        exact Or.inr declared
      refine ⟨?_, fun alone => ?_⟩
      · have first := firstWord?_word_append word parted
        rw [← whole] at first
        rw [← first, firstWord?, firstWord?, trimStart, trimStart, dropWhile_eq_self (stops_dropWhile isBlank t)]
      · rw [alone] at whole
        obtain rfl : rest = [] := by simpa using whole
        cases declared
    · cases declared
  · rintro ⟨first, more⟩
    have taken : (trimStart t).takeWhile (fun c => !isBlank c) = field := by
      rw [firstWord?] at first
      split at first
      · cases first
      · exact Option.some.inj first
    have whole := List.takeWhile_append_dropWhile (p := fun c => !isBlank c) (l := trimStart t)
    rw [taken] at whole
    unfold declares
    rw [isPrefixOf?_eq_some_iff.mpr whole.symm]
    rcases atRest : (trimStart t).dropWhile (fun c => !isBlank c) with _ | ⟨c, rest⟩
    · rw [atRest, List.append_nil] at whole
      exact absurd whole.symm more
    · have stops := stops_dropWhile (fun c => !isBlank c) (trimStart t) c (by rw [atRest]; rfl)
      simpa using stops

/-- On a line that ends, the first word says whether the field is declared. -/
theorem declares_newline_iff (word : IsWord field) {r : Text} :
    declares field (r ++ ['\n']) ↔ firstWord? (r ++ ['\n']) = some field := by
  refine (declares_iff word).trans (and_iff_left fun alone => ?_)
  rw [trimStart, List.dropWhile_append] at alone
  split at alone
  · exact word.1 alone.symm
  · have member : '\n' ∈ field := by simp [← alone]
    exact word.not_mem (by decide) member

theorem declaresRow_iff (word : IsWord field) {isLast : Bool} :
    declaresRow field isLast r ↔
      firstWord? (rowLine r) = some field ∧ ¬(isLast ∧ trimStart (blankFrom false r) = field) := by
  have blanks : ∀ c ∈ if isLast then ([] : Text) else ['\n'], isBlank c := by split <;> decide
  rw [declaresRow, declares_iff word, firstWord?_append blanks, rowLine, firstWord?_trim]
  refine and_congr_right fun first => not_congr ?_
  cases isLast with
  | true => simp
  | false =>
    refine ⟨fun alone => ?_, fun both => by simp at both⟩
    rw [if_neg (by decide), trimStart, List.dropWhile_append] at alone
    split at alone
    · exact absurd alone.symm word.1
    · exact absurd (by rw [← alone]; simp : '\n' ∈ field) (word.not_mem (by decide))

/-- A field is read from a line that begins with its name. -/
theorem firstWord?_of_lineField? {f : Field} (read : lineField? t = some f) : firstWord? t = some f.name := by
  rw [lineField?] at read
  split at read
  · cases read
  simp only [parseField] at read
  split at read
  case isTrue => cases read
  case isFalse formed =>
    cases read
    simp only [Bool.or_eq_true, not_or, Bool.not_eq_true, List.isEmpty_eq_false_iff] at formed
    obtain ⟨⟨⟨named, gapped⟩, -⟩, -⟩ := formed
    have word : IsWord (t.takeWhile isWordChar) := ⟨named, fun _ => List.mem_takeWhile_imp⟩
    have parted : Follows [] (t.dropWhile isWordChar) := by
      intro c head
      rw [head] at gapped
      exact Or.inr (by simpa using gapped)
    have first := firstWord?_word_append word parted
    rwa [List.takeWhile_append_dropWhile] at first

theorem rowLine_trimEnd (code : IsCode r) : rowLine (trimEnd r) = rowLine r := by
  have trimmed : IsCode (trimEnd r) := code.of_infix (dropEndWhile_isPrefix isBlank r).isInfix
  obtain ⟨back, whole, blanks⟩ := dropEndWhile_split isBlank r
  have around := trim_append (List.forall_mem_nil _) (trimEnd r) blanks
  rw [rowLine, rowLine, code.blankFrom, trimmed.blankFrom, ← around]
  exact congrArg trim whole.symm

/-- A new line is shown behind all others. -/
theorem shownLines_insertRow (plain : IsBodyRows rs) (fieldLine : IsFieldLine line) :
    shownLines (insertRow line rs) = shownLines rs ++ [trim line] := by
  obtain ⟨front, r, back, pads, rfl, bare, isPads, inserted⟩ := insertRow_split line plain.nonempty
  have new : shownLines [pads ++ line] = [trim line] :=
    shownLines_singleton (rowLine_indented fieldLine.code isPads) fieldLine.trim_ne_nil
  by_cases last : back = []
  · subst last
    obtain ⟨row, ends⟩ := isBodyRows_singleton.mp ((isBodyRows_append (by simp)).mp plain).2
    have shown : shownLines [trimEnd r] = shownLines [r] := by
      simp [shownLines, rowLine_trimEnd (row.isCode_of_ends ends)]
    have end' : shownLines [[]] = [] := rfl
    have split : [trimEnd r, pads ++ line, []] = [trimEnd r] ++ ([pads ++ line] ++ [[]]) := rfl
    rw [inserted, List.isEmpty_nil, if_pos rfl, split, shownLines_append, shownLines_append, shownLines_append,
      shownLines_append, shown, new, end', List.append_nil, List.append_assoc]
  · have split : r :: (pads ++ line) :: back = [r] ++ ([pads ++ line] ++ back) := rfl
    rw [inserted, if_neg (by simpa using last), split, ← List.singleton_append (l := back), shownLines_append,
      shownLines_append, shownLines_append, shownLines_append, shownLines_append, new, shownLines_bare bare,
      List.append_nil, List.append_nil, List.append_assoc]

/-- A replaced line is shown in place of the first one that begins with the field. -/
theorem shownLines_replaceRow (word : IsWord field) (plain : IsBodyRows rs) (fieldLine : IsFieldLine line)
    (has : hasRow field rs) :
    ∃ front l back, shownLines rs = front ++ l :: back ∧ (∀ s ∈ front, firstWord? s ≠ some field) ∧
      firstWord? l = some field ∧ shownLines (replaceRow field line rs) = front ++ trim line :: back := by
  obtain ⟨front, r, back, rfl, earlier, declared, replaced⟩ := replaceRow_split line has
  have plainRow := plain.row r (by simp)
  obtain ⟨first, -⟩ := (declaresRow_iff word).mp declared
  have some : rowLine r ≠ [] := by
    intro empty
    rw [empty] at first
    cases first
  have new : shownLines [rewriteRow line r] = [trim line] :=
    shownLines_singleton (rewriteRow_plain plainRow fieldLine.code).2.2 fieldLine.trim_ne_nil
  have rest : shownLines (if back.isEmpty && (lineEnds r).isEmpty then [[]] else back) = shownLines back := by
    split
    · rename_i both
      rw [List.isEmpty_iff.mp (Bool.and_eq_true_iff.mp both).1]
      rfl
    · rfl
  refine ⟨shownLines front, rowLine r, shownLines back, ?_, fun s member => ?_, first, ?_⟩
  · rw [← List.singleton_append (l := back), shownLines_append, shownLines_append,
      shownLines_singleton rfl some, List.singleton_append]
  · obtain ⟨inside, -⟩ := List.mem_filter.mp member
    obtain ⟨x, inFront, rfl⟩ := List.mem_map.mp inside
    intro same
    have declares : declaresRow field false x := (declaresRow_iff word).mpr ⟨same, by simp⟩
    rw [earlier x inFront] at declares
    cases declares
  · rw [replaced, ← List.singleton_append, shownLines_append, shownLines_append, new, rest,
      List.singleton_append]

theorem hasRow_iff : hasRow field rs ↔ ∃ front r back, rs = front ++ r :: back ∧ declaresRow field back.isEmpty r := by
  induction rs with
  | nil => simp [hasRow]
  | cons r rs ih =>
    rw [hasRow, Bool.or_eq_true, ih]
    constructor
    · rintro (here | ⟨front, s, back, rfl, declared⟩)
      · exact ⟨[], r, rs, rfl, here⟩
      · exact ⟨r :: front, s, back, rfl, declared⟩
    · rintro ⟨front, s, back, whole, declared⟩
      rcases front with _ | ⟨x, front⟩
      · obtain ⟨rfl, rfl⟩ := List.cons_eq_cons.mp whole
        exact Or.inl declared
      · obtain ⟨-, rfl⟩ := List.cons_eq_cons.mp whole
        exact Or.inr ⟨front, s, back, rfl, declared⟩

/-- The rows declare the fields that are read from them. -/
theorem hasRow_of_linesField? {f : Field} (found : linesField? (shownLines rs) field = some f) : hasRow field rs := by
  obtain ⟨l, member, read⟩ := List.mem_filterMap.mp (List.mem_of_find?_eq_some found)
  obtain rfl : f.name = field := by simpa using List.find?_some found
  obtain ⟨inside, -⟩ := List.mem_filter.mp member
  obtain ⟨r, inRows, rfl⟩ := List.mem_map.mp inside
  obtain ⟨front, back, rfl⟩ := List.append_of_mem inRows
  have parsed : parseField (rowLine r) = some f := by
    rw [lineField?] at read
    split at read
    · cases read
    · exact read
  have word : IsWord f.name := (parseField_form parsed).1
  refine hasRow_iff.mpr ⟨front, r, back, rfl, (declaresRow_iff word).mpr ⟨firstWord?_of_lineField? read, ?_⟩⟩
  -- a name alone on its line gives no field
  rintro ⟨-, alone⟩
  have line : rowLine r = f.name := by
    rw [rowLine, trim, alone]
    exact dropEndWhile_eq_self word.ends
  have noGap : Stops isWordChar [] := stops_nil _
  have silent := Field.parseField_of_gap word noGap (Or.inl rfl)
  rw [line] at parsed
  rw [List.append_nil, parsed] at silent
  cases silent

theorem linesField?_append (front back : List Text) (name : Text) :
    linesField? (front ++ back) name = (linesField? front name).or (linesField? back name) := by
  rw [linesField?, List.filterMap_append, List.find?_append]
  rfl

theorem linesField?_cons (l : Text) (ls : List Text) (name : Text) :
    linesField? (l :: ls) name = ((lineField? l).filter (·.name = name)).or (linesField? ls name) := by
  rw [linesField?, List.filterMap_cons]
  cases lineField? l with
  | none => rfl
  | some f =>
    by_cases same : f.name = name
    · simp [Option.filter, same]
    · simp [Option.filter, same, linesField?]

theorem linesField?_eq_none {ls : List Text} (other : ∀ l ∈ ls, firstWord? l ≠ some field) :
    linesField? ls field = none := by
  refine List.find?_eq_none.mpr fun f member => ?_
  obtain ⟨l, inside, read⟩ := List.mem_filterMap.mp member
  intro same
  obtain rfl : f.name = field := by simpa using same
  exact other l inside (firstWord?_of_lineField? read)

end

theorem declares_nil (line : Text) : declares [] line = false := by
  have starts : ([] : Text).isPrefixOf? (trimStart line) = some (trimStart line) := by cases trimStart line <;> rfl
  simp only [declares, starts]
  cases head : (trimStart line).head? with
  | none => rfl
  | some c => exact stops_dropWhile isBlank line c head

theorem hasRow_nil (rs : List Text) : hasRow [] rs = false := by
  refine Bool.eq_false_iff.mpr fun has => ?_
  obtain ⟨front, r, back, -, declared⟩ := hasRow_iff.mp has
  rw [declaresRow, declares_nil] at declared
  cases declared

section

variable {f : Field} {rs : List Text} (writable : f.IsWritable) (plain : IsBodyRows rs) (model : Text)

include writable plain

theorem field?_insertRow_nameless (noName : f.name = []) (key : Text) :
    (Model.ofRows model (insertRow f.render rs)).field? key = (Model.ofRows model rs).field? key := by
  rw [Model.field?_ofRows, Model.field?_ofRows, shownLines_insertRow plain writable.isFieldLine, linesField?_append,
    linesField?_cons, writable.silent noName]
  exact Option.or_none

variable (named : f.name ≠ [])

include named

/-- An inserted field is read, unless there is one of its name. -/
theorem field?_insertRow (key : Text) :
    (Model.ofRows model (insertRow f.render rs)).field? key =
      ((Model.ofRows model rs).field? key).or (if f.name = key then some f else none) := by
  rw [Model.field?_ofRows, Model.field?_ofRows, shownLines_insertRow plain writable.isFieldLine, linesField?_append,
    linesField?_cons, writable.trim_render named, writable.read named]
  by_cases same : f.name = key <;> simp [Option.filter, same, linesField?]

/-- A replaced field is read under its name, and the other fields are read as before. -/
theorem field?_upsertRow (key : Text) :
    (Model.ofRows model (upsertRow f.name f.render rs)).field? key =
      if f.name = key then some f else (Model.ofRows model rs).field? key := by
  have word := writable.name.isWord named
  rw [upsertRow]
  split
  · rename_i has
    obtain ⟨front, l, back, shown, earlier, first, replaced⟩ :=
      shownLines_replaceRow word plain writable.isFieldLine has
    rw [Model.field?_ofRows, Model.field?_ofRows, shown, replaced, linesField?_append, linesField?_append,
      linesField?_cons, linesField?_cons, writable.trim_render named, writable.read named]
    by_cases same : f.name = key
    · subst same
      rw [if_pos rfl, linesField?_eq_none earlier]
      simp [Option.filter]
    · have old : (lineField? l).filter (·.name = key) = none := by
        cases read : lineField? l with
        | none => rfl
        | some g =>
          have name : g.name = f.name := Option.some.inj ((firstWord?_of_lineField? read).symm.trans first)
          simp [Option.filter, name, same]
      rw [if_neg same, old]
      simp [Option.filter, same]
  · rename_i hasNot
    rw [field?_insertRow writable plain model named]
    by_cases same : f.name = key
    · subst same
      have none : (Model.ofRows model rs).field? f.name = .none := by
        rw [Model.field?_ofRows]
        by_contra found
        obtain ⟨g, read⟩ := Option.ne_none_iff_exists'.mp found
        exact hasNot (hasRow_of_linesField? read)
      rw [none, if_pos rfl, Option.none_or]
    · rw [if_neg same, if_neg same, Option.or_none]

end

end SchemaDiagram

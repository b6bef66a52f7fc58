import SchemaDiagram.Proofs.FieldEdits

namespace SchemaDiagram

open Text

/-- The lines of a body as they are written, without the white space around them and without blank ones. -/
def trimmedLines (rs : List Text) : List Text := (rs.map trim).filter fun l => !l.isEmpty

/-- The name that a line begins with. -/
def lineName (l : Text) : Text := l.takeWhile isWordChar

/-- Some lines after an edit: further ones may stand between them, and those of some names may be written anew
at their places. -/
inductive LinesEdited (may : Text → Prop) : List Text → List Text → Prop
  | nil : LinesEdited may [] []
  | keep (l : Text) {old new : List Text} (later : LinesEdited may old new) : LinesEdited may (l :: old) (l :: new)
  | insert (l : Text) {old new : List Text} (later : LinesEdited may old new) : LinesEdited may old (l :: new)
  | rewrite (l l' : Text) {old new : List Text} (allowed : may (lineName l)) (same : lineName l' = lineName l)
      (later : LinesEdited may old new) : LinesEdited may (l :: old) (l' :: new)

namespace LinesEdited

variable {may : Text → Prop}

theorem refl (ls : List Text) : LinesEdited may ls ls := by
  induction ls with
  | nil => exact .nil
  | cons l ls ih => exact .keep l ih

theorem prepend (front : List Text) {old new : List Text} (later : LinesEdited may old new) :
    LinesEdited may (front ++ old) (front ++ new) := by
  induction front with
  | nil => exact later
  | cons l front ih => exact .keep l ih

theorem mono {may' : Text → Prop} (weaker : ∀ name, may name → may' name) {old new : List Text}
    (edited : LinesEdited may old new) : LinesEdited may' old new := by
  induction edited with
  | nil => exact .nil
  | keep l _ ih => exact .keep l ih
  | insert l _ ih => exact .insert l ih
  | rewrite l l' allowed same _ ih => exact .rewrite l l' (weaker _ allowed) same ih

/-- One edit can follow another. -/
theorem trans {old mid new : List Text} (first : LinesEdited may old mid) (second : LinesEdited may mid new) :
    LinesEdited may old new := by
  induction second generalizing old with
  | nil => exact first
  | insert l _ ih => exact .insert l (ih first)
  | keep l _ ih =>
    cases first with
    | keep _ later => exact .keep l (ih later)
    | insert _ later => exact .insert l (ih later)
    | rewrite k _ allowed same later => exact .rewrite k l allowed same (ih later)
  | rewrite l l' allowed same _ ih =>
    cases first with
    | keep _ later => exact .rewrite l l' allowed same (ih later)
    | insert _ later => exact .insert l' (ih later)
    | rewrite k _ allowed' same' later => exact .rewrite k l' allowed' (same.trans same') (ih later)

end LinesEdited

theorem lineName_append {word rest : Text} (letters : ∀ c ∈ word, isWordChar c) (stops : Stops isWordChar rest) :
    lineName (word ++ rest) = word := takeWhile_append_stops letters stops

/-- White space behind a line is no part of its name. -/
theorem lineName_trimEnd (t : Text) : lineName (trimEnd t) = lineName t := by
  obtain ⟨back, whole, blanks⟩ := dropEndWhile_split isBlank t
  have stops : back.takeWhile isWordChar = [] := by
    rcases back with _ | ⟨c, back⟩
    · rfl
    · refine List.takeWhile_cons_of_neg fun letter => ?_
      have visible := isBlank_eq_false_of_isWordChar letter
      simp [blanks c List.mem_cons_self] at visible
  conv => rhs; rw [whole]
  rw [lineName, lineName, List.takeWhile_append, stops, List.append_nil]
  split
  · rename_i all
    exact List.Sublist.eq_of_length (List.takeWhile_sublist _) all
  · rfl

section

variable {field r x rest : Text}

/-- A name that stands in front of a row without its comment stands in front of the row. -/
theorem lineName_of_blankFrom (letters : ∀ c ∈ field, isWordChar c) (blanks : ∀ c ∈ x, isBlank c)
    (shown : blankFrom false r ++ x = field ++ rest) (parted : Stops (fun c => !isBlank c) rest) :
    lineName r = field := by
  induction field generalizing r with
  | nil =>
    rcases r with _ | ⟨c, r⟩
    · rfl
    · refine List.takeWhile_cons_of_neg fun letter => ?_
      have visible := isBlank_eq_false_of_isWordChar letter
      have noNewline : c ≠ '\n' := by rintro rfl; exact absurd letter (by decide)
      have noSlash : opensComment c r = false := by
        refine Bool.eq_false_iff.mpr fun opens => ?_
        obtain ⟨rfl, -⟩ : c = '/' ∧ r.head? = some '/' := by simpa [opensComment] using opens
        exact absurd letter (by decide)
      rw [blankFrom, if_neg noNewline, Bool.false_or, noSlash, if_neg (by simp), List.cons_append,
        List.nil_append] at shown
      have head := parted c (by rw [← shown]; rfl)
      simp [visible] at head
  | cons w field ih =>
    obtain ⟨letter, inField⟩ := List.forall_mem_cons.mp letters
    have visible := isBlank_eq_false_of_isWordChar letter
    rcases r with _ | ⟨c, r⟩
    · rw [blankFrom, List.nil_append] at shown
      simp [blanks w (by simp [shown])] at visible
    · rw [blankFrom] at shown
      split at shown
      · rename_i newline
        obtain ⟨rfl, -⟩ := List.cons_eq_cons.mp shown
        rw [newline] at letter
        exact absurd letter (by decide)
      · split at shown
        · obtain ⟨rfl, -⟩ := List.cons_eq_cons.mp shown
          exact absurd letter (by decide)
        · obtain ⟨rfl, later⟩ := List.cons_eq_cons.mp shown
          rw [lineName, List.takeWhile_cons_of_pos letter]
          exact congrArg _ (ih inField later)

theorem trimStart_blankFrom (inLine : '\n' ∉ r) (blanks : ∀ c ∈ x, isBlank c) (some : field ≠ [])
    (shown : trimStart (blankFrom false r ++ x) = field) : blankFrom false (trimStart r) ++ x = field := by
  have hidden {u : Text} (white : ∀ c ∈ u, isBlank c) : trimStart u = [] := List.dropWhile_eq_nil_iff.mpr white
  induction r with
  | nil => exact absurd (shown.symm.trans (hidden blanks)) some
  | cons c r ih =>
    obtain ⟨noNewline, later⟩ := List.ne_and_not_mem_of_not_mem_cons inLine
    by_cases blank : isBlank c
    · have noSlash : opensComment c r = false := by
        refine Bool.eq_false_iff.mpr fun opens => ?_
        obtain ⟨rfl, -⟩ : c = '/' ∧ r.head? = .some '/' := by simpa [opensComment] using opens
        exact absurd blank (by decide)
      rw [blankFrom, if_neg noNewline.symm, Bool.false_or, noSlash, if_neg (by simp), List.cons_append, trimStart,
        List.dropWhile_cons_of_pos blank] at shown
      rw [trimStart, List.dropWhile_cons_of_pos blank]
      exact ih later shown
    · have whole : trimStart (c :: r) = c :: r := List.dropWhile_cons_of_neg blank
      rw [whole]
      cases opens : opensComment c r with
      | true =>
        rw [blankFrom, if_neg noNewline.symm, Bool.false_or, opens, if_pos rfl, hidden] at shown
        · exact absurd shown.symm some
        · intro d member
          rcases List.mem_append.mp member with inside | inside
          · rcases List.mem_cons.mp inside with rfl | inside
            · rfl
            · exact blankFrom_comment later d inside
          · exact blanks d inside
      | false =>
        have visible : blankFrom false (c :: r) = c :: blankFrom false r := by
          rw [blankFrom, if_neg noNewline.symm, Bool.false_or, opens, if_neg (by simp)]
        rw [visible, List.cons_append, trimStart, List.dropWhile_cons_of_neg blank] at shown
        rw [visible]
        exact shown

/-- A row that declares a field begins with its name. -/
theorem lineName_of_declaresRow (word : IsWord field) (inLine : '\n' ∉ r) {isLast : Bool}
    (declared : declaresRow field isLast r) : lineName (trim r) = field := by
  have blanks : ∀ c ∈ if isLast then ([] : Text) else ['\n'], isBlank c := by split <;> decide
  unfold declaresRow declares at declared
  split at declared
  · rename_i rest found
    have shown := trimStart_blankFrom inLine blanks (by simp [word.1]) (isPrefixOf?_eq_some_iff.mp found)
    rw [trim, lineName_trimEnd]
    refine lineName_of_blankFrom word.2 blanks shown fun c head => ?_
    simpa [head] using declared
  · cases declared

theorem trimmedLines_append (front back : List Text) :
    trimmedLines (front ++ back) = trimmedLines front ++ trimmedLines back := by
  rw [trimmedLines, List.map_append, List.filter_append]
  rfl

theorem trimmedLines_singleton (r : Text) : trimmedLines [r] = if (trim r).isEmpty then [] else [trim r] := by
  cases empty : (trim r).isEmpty <;> simp [trimmedLines, empty]

theorem trim_trimEnd (r : Text) : trim (trimEnd r) = trim r := by
  obtain ⟨back, whole, blanks⟩ := dropEndWhile_split isBlank r
  have around := trim_append (List.forall_mem_nil _) (trimEnd r) blanks
  rw [List.nil_append, ← show r = trimEnd r ++ back from whole] at around
  exact around.symm

variable {may : Text → Prop} {line : Text} {rs : List Text}

/-- An inserted row brings one line, and the others stay. -/
theorem linesEdited_insertRow (nonempty : rs ≠ []) :
    LinesEdited may (trimmedLines rs) (trimmedLines (insertRow line rs)) := by
  obtain ⟨front, r, back, pads, rfl, -, -, inserted⟩ := insertRow_split line nonempty
  have new {old next : List Text} (later : LinesEdited may old next) :
      LinesEdited may old (trimmedLines [pads ++ line] ++ next) := by
    rw [trimmedLines_singleton]
    split
    · exact later
    · exact .insert _ later
  rw [inserted, trimmedLines_append, trimmedLines_append]
  refine LinesEdited.prepend _ ?_
  have same : trimmedLines [trimEnd r] = trimmedLines [r] := by
    rw [trimmedLines_singleton, trimmedLines_singleton, trim_trimEnd]
  split
  · rename_i last
    have rows : [trimEnd r, pads ++ line, []] = [trimEnd r] ++ ([pads ++ line] ++ [[]]) := rfl
    rw [List.isEmpty_iff.mp last, rows, trimmedLines_append, trimmedLines_append, same]
    conv => lhs; rw [← List.append_nil (trimmedLines [r])]
    exact LinesEdited.prepend _ (new .nil)
  · have old : r :: back = [r] ++ back := rfl
    have rows : r :: (pads ++ line) :: back = [r] ++ ([pads ++ line] ++ back) := rfl
    rw [old, rows, trimmedLines_append, trimmedLines_append, trimmedLines_append]
    exact LinesEdited.prepend _ (new (LinesEdited.refl _))

/-- A replaced row is a line written anew. -/
theorem linesEdited_replaceRow {f : Field} (word : IsWord f.name) (plain : IsBodyRows rs)
    (allowed : may f.name) (has : hasRow f.name rs) :
    LinesEdited may (trimmedLines rs) (trimmedLines (replaceRow f.name f.render rs)) := by
  obtain ⟨front, r, back, rfl, -, declared, replaced⟩ := replaceRow_split f.render has
  have inLine := (plain.row r (by simp)).inLine
  have old : lineName (trim r) = f.name := lineName_of_declaresRow word inLine declared
  have new : lineName (trim (rewriteRow f.render r)) = f.name := by
    have indented : trimStart (rewriteRow f.render r) = f.render ++ rowEnd r := by
      have pads : ∀ c ∈ indent r, isBlank c := fun c member => isBlank_of_isPad (List.mem_takeWhile_imp member)
      rw [rewriteRow, List.append_assoc, trimStart, List.dropWhile_append_of_pos pads]
      refine dropWhile_eq_self ?_
      rw [Field.render_eq, List.append_assoc]
      exact word.stops_isBlank _
    rw [trim, lineName_trimEnd, indented, Field.render_eq, List.append_assoc]
    exact lineName_append word.2 (stops_cons (by decide))
  have one {u : Text} (name : lineName (trim u) = f.name) : trimmedLines [u] = [trim u] := by
    rw [trimmedLines_singleton, if_neg]
    intro empty
    rw [List.isEmpty_iff.mp empty] at name
    exact word.1 name.symm
  have tail : trimmedLines (if back.isEmpty && (lineEnds r).isEmpty then [[]] else back) = trimmedLines back := by
    split
    · rename_i last
      rw [List.isEmpty_iff.mp (Bool.and_eq_true_iff.mp last).1]
      rfl
    · rfl
  have rows (u : Text) (us : List Text) : u :: us = [u] ++ us := rfl
  rw [replaced, rows, rows (rewriteRow f.render r), trimmedLines_append, trimmedLines_append, trimmedLines_append,
    trimmedLines_append, one old, one new, tail]
  exact LinesEdited.prepend _ (.rewrite _ _ (old.symm ▸ allowed) (new.trans old.symm) (LinesEdited.refl _))

end

/-- The lines of a model after an edit: its field is put in, or written anew unless it is the protected one. -/
theorem FieldEdit.linesEdited {e : FieldEdit} (writable : e.field.IsWritable) {rs : List Text} (plain : IsBodyRows rs) :
    LinesEdited (fun name => name = e.field.name ∧ e.replaces ∧ name ≠ protectedField) (trimmedLines rs)
      (trimmedLines (e.apply rs)) := by
  unfold FieldEdit.apply
  split
  · exact linesEdited_insertRow plain.nonempty
  · rename_i replaces
    split
    · exact LinesEdited.refl _
    · rename_i other
      rw [upsertRow]
      split
      · rename_i has
        have named : e.field.name ≠ [] := by
          intro nameless
          rw [nameless, hasRow_nil] at has
          cases has
        exact linesEdited_replaceRow (writable.name.isWord named) plain
          ⟨rfl, by simpa using replaces, other⟩ has
      · exact linesEdited_insertRow plain.nonempty

/-- The lines of a model after some edits. -/
theorem linesEdited_rowsAfter {edits : List FieldEdit} (writable : ∀ e ∈ edits, e.field.IsWritable) (model : Text)
    {rs : List Text} (plain : IsBodyRows rs) :
    LinesEdited (fun name => name ≠ protectedField ∧ ∃ e ∈ edits, e.model = model ∧ e.replaces ∧ e.field.name = name)
      (trimmedLines rs) (trimmedLines (rowsAfter edits model rs)) := by
  induction edits generalizing rs with
  | nil => exact LinesEdited.refl _
  | cons e edits ih =>
    obtain ⟨here, later⟩ := List.forall_mem_cons.mp writable
    have lift (name : Text) : (name ≠ protectedField ∧ ∃ e ∈ edits, e.model = model ∧ e.replaces ∧ e.field.name = name) →
        name ≠ protectedField ∧ ∃ g ∈ e :: edits, g.model = model ∧ g.replaces ∧ g.field.name = name :=
      fun ⟨other, g, member, rest⟩ => ⟨other, g, List.mem_cons_of_mem e member, rest⟩
    rw [rowsAfter_cons]
    split
    · rename_i same
      refine ((e.linesEdited here plain).mono ?_).trans ((ih later (e.apply_isBodyRows here plain)).mono lift)
      rintro name ⟨rfl, replaces, other⟩
      exact ⟨other, e, List.mem_cons_self, same, replaces, rfl⟩
    · exact (ih later plain).mono lift

end SchemaDiagram

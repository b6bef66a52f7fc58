import SchemaDiagram.Proofs.RowModels
import SchemaDiagram.Proofs.ScanCuts

namespace SchemaDiagram

open Text

/-- The fields that the rows of a body give. -/
def bodyFields (body : Text) : List Field := (rows body).filterMap fun r => lineField? (trim r)

/-- The attributes of the model that the rows of its body give. -/
def bodyAttributes (body : Text) : List Text := (rows body).flatMap fun r => lineAttributes (trim r)

theorem Model.ofBody_eq_bodyFields (name body : Text) :
    Model.ofBody name body =
      { name, fields := keepFirst Field.name (bodyFields body), attributes := bodyAttributes body } :=
  Model.ofBody_eq name body

section

variable {r gap : Text}

theorem rows_append_newline (u v : Text) : rows (u ++ '\n' :: v) = rows u ++ rows v := by
  induction u using rows_induction with
  | oneRow r inLine => rw [rows_cons inLine, rows_row inLine, List.singleton_append]
  | moreRows r u inLine ih => rw [List.append_assoc, List.cons_append, rows_cons inLine, rows_cons inLine, ih, List.cons_append]

theorem rows_cons_visible {c : Char} (inLine : c ≠ '\n') (t : Text) :
    ∃ r later, rows t = r :: later ∧ rows (c :: t) = (c :: r) :: later := by
  induction t using rows_induction with
  | oneRow r oneLine =>
    have longer : '\n' ∉ c :: r := List.not_mem_cons_of_ne_of_not_mem inLine.symm oneLine
    exact ⟨r, [], rows_row oneLine, rows_row longer⟩
  | moreRows r t oneLine =>
    have longer : '\n' ∉ c :: r := List.not_mem_cons_of_ne_of_not_mem inLine.symm oneLine
    exact ⟨r, rows t, rows_cons oneLine t, rows_cons longer t⟩

theorem bodyFields_append_newline (u v : Text) : bodyFields (u ++ '\n' :: v) = bodyFields u ++ bodyFields v := by
  rw [bodyFields, rows_append_newline, List.filterMap_append]
  rfl

theorem bodyAttributes_append_newline (u v : Text) :
    bodyAttributes (u ++ '\n' :: v) = bodyAttributes u ++ bodyAttributes v := by
  rw [bodyAttributes, rows_append_newline, List.flatMap_append]
  rfl

theorem bodyFields_row (inLine : '\n' ∉ r) : bodyFields r = (lineField? (trim r)).toList := by
  rw [bodyFields, rows_row inLine]
  cases read : lineField? (trim r) <;> simp [read]

theorem bodyAttributes_row (inLine : '\n' ∉ r) : bodyAttributes r = lineAttributes (trim r) := by
  rw [bodyAttributes, rows_row inLine, List.flatMap_singleton]

/-- White space at the end of the last row is no part of what it says. -/
theorem body_append_blanks (blank : ∀ c ∈ gap, isBlank c) (inLine : '\n' ∉ gap) (u : Text) :
    bodyFields (u ++ gap) = bodyFields u ∧ bodyAttributes (u ++ gap) = bodyAttributes u := by
  induction u using rows_induction with
  | oneRow r oneLine =>
    have longer : '\n' ∉ r ++ gap := fun member => (List.mem_append.mp member).elim oneLine inLine
    have same : trim (r ++ gap) = trim r := trim_append (List.forall_mem_nil _) r blank
    rw [bodyFields_row longer, bodyFields_row oneLine, bodyAttributes_row longer, bodyAttributes_row oneLine, same]
    exact ⟨rfl, rfl⟩
  | moreRows r u oneLine ih =>
    rw [List.append_assoc, List.cons_append, bodyFields_append_newline, bodyFields_append_newline,
      bodyAttributes_append_newline, bodyAttributes_append_newline, ih.1, ih.2]
    exact ⟨rfl, rfl⟩

/-- A row that says nothing: if it shows something, then a slash first. -/
def IsQuietRow (r : Text) : Prop := ∀ c, (trimStart r).head? = some c → c = '/'

theorem isQuietRow_nil : IsQuietRow [] := by
  intro c head
  cases head

theorem isQuietRow_slash (r : Text) : IsQuietRow ('/' :: r) := by
  intro c head
  exact (Option.some.inj head).symm

theorem IsQuietRow.cons {c : Char} (quiet : IsQuietRow r) (blank : isBlank c) : IsQuietRow (c :: r) := by
  intro d head
  refine quiet d ?_
  rwa [trimStart, List.dropWhile_cons_of_pos blank] at head

theorem IsQuietRow.reads (quiet : IsQuietRow r) : lineField? (trim r) = none ∧ lineAttributes (trim r) = [] := by
  have slash {c : Char} (head : (trim r).head? = some c) : c = '/' := by
    obtain ⟨rest, atHead⟩ := List.head?_eq_some_iff.mp head
    obtain ⟨back, whole⟩ := dropEndWhile_isPrefix isBlank (trimStart r)
    refine quiet c ?_
    rw [← whole, show dropEndWhile isBlank (trimStart r) = trim r from rfl, atHead]
    rfl
  have noAttribute : isAttributeLine (trim r) = false := by
    refine decide_eq_false fun head => ?_
    cases slash head
  have noName : Stops isWordChar (trim r) := by
    intro c head
    rw [slash head]
    decide
  rw [lineField?, lineAttributes, noAttribute]
  exact ⟨parseField_of_head noName, rfl⟩

theorem body_quiet {u : Text} (quiet : ∀ r ∈ rows u, IsQuietRow r) : bodyFields u = [] ∧ bodyAttributes u = [] := by
  constructor
  · exact List.filterMap_eq_nil_iff.mpr fun r member => (quiet r member).reads.1
  · exact List.flatMap_eq_nil_iff.mpr fun r member => (quiet r member).reads.2

theorem quiet_cons {c : Char} {t : Text} (blank : isBlank c) (quiet : ∀ r ∈ rows t, IsQuietRow r) :
    ∀ r ∈ rows (c :: t), IsQuietRow r := by
  by_cases newline : c = '\n'
  · subst newline
    have apart : rows ('\n' :: t) = [] :: rows t := rows_cons (r := []) (by simp) t
    rw [apart]
    exact List.forall_mem_cons.mpr ⟨isQuietRow_nil, quiet⟩
  · obtain ⟨r, later, split, longer⟩ := rows_cons_visible newline t
    rw [split] at quiet
    rw [longer]
    obtain ⟨here, others⟩ := List.forall_mem_cons.mp quiet
    exact List.forall_mem_cons.mpr ⟨here.cons blank, others⟩

theorem quiet_append {t : Text} (blank : ∀ c ∈ gap, isBlank c) (quiet : ∀ r ∈ rows t, IsQuietRow r) :
    ∀ r ∈ rows (gap ++ t), IsQuietRow r := by
  induction gap with
  | nil => exact quiet
  | cons c gap ih =>
    obtain ⟨here, later⟩ := List.forall_mem_cons.mp blank
    exact quiet_cons here (ih later)

theorem body_blank (blank : ∀ c ∈ gap, isBlank c) : bodyFields gap = [] ∧ bodyAttributes gap = [] := by
  have empty : ∀ r ∈ rows [], IsQuietRow r := by
    rw [rows_row (by simp)]
    simpa using isQuietRow_nil
  have quiet := quiet_append blank empty
  rw [List.append_nil] at quiet
  exact body_quiet quiet

end

/-- A row in front of the next line or the end of a body. -/
theorem body_row_append {r behind : Text} (inLine : '\n' ∉ r) (ends : behind = [] ∨ ∃ v, behind = '\n' :: v) :
    bodyFields (r ++ behind) = (lineField? (trim r)).toList ++ bodyFields behind ∧
      bodyAttributes (r ++ behind) = lineAttributes (trim r) ++ bodyAttributes behind := by
  obtain ⟨noField, noAttribute⟩ := body_blank (List.forall_mem_nil _)
  rcases ends with rfl | ⟨v, rfl⟩
  · rw [List.append_nil, bodyFields_row inLine, bodyAttributes_row inLine, noField, noAttribute, List.append_nil,
      List.append_nil]
    exact ⟨rfl, rfl⟩
  · have fields := bodyFields_append_newline [] v
    have attributes := bodyAttributes_append_newline [] v
    rw [noField] at fields
    rw [noAttribute] at attributes
    rw [bodyFields_append_newline, bodyAttributes_append_newline, bodyFields_row inLine, bodyAttributes_row inLine]
    exact ⟨congrArg (_ ++ ·) fields.symm, congrArg (_ ++ ·) attributes.symm⟩

/-- What is shown of a scanned text is the text itself or spaces. -/
theorem mem_shown {keep : Role → Bool} {items : List (Char × Role)} {c : Char}
    (member : c ∈ items.flatMap (showOnly keep)) : c = ' ' ∨ c ∈ written items := by
  obtain ⟨item, inside, shown⟩ := List.mem_flatMap.mp member
  exact (mem_showOnly shown).imp id fun same => List.mem_map.mpr ⟨item, inside, same.symm⟩

theorem shown_blank {keep : Role → Bool} {items : List (Char × Role)} (blank : ∀ c ∈ written items, isBlank c) :
    ∀ c ∈ items.flatMap (showOnly keep), isBlank c := by
  intro c member
  rcases mem_shown member with rfl | inside
  · decide
  · exact blank c inside

section

variable {items : List (Char × Role)} (inLine : '\n' ∉ written items)

include inLine

theorem newline_not_mem_masked : '\n' ∉ masked items := by
  intro member
  exact (mem_shown member).elim (by decide) inLine

theorem newline_not_mem_stripped : '\n' ∉ stripped items := by
  intro member
  exact (mem_shown member).elim (by decide) inLine

end

theorem masked_cons_code (c : Char) (items : List (Char × Role)) : masked ((c, .code) :: items) = c :: masked items := by
  rw [masked, List.flatMap_cons, showOnly_kept rfl]
  rfl

theorem masked_cons_blanked {c : Char} {role : Role} (lost : role ≠ .code) (inLine : c ≠ '\n')
    (items : List (Char × Role)) :
    masked ((c, role) :: items) = List.replicate c.utf8Size ' ' ++ masked items := by
  rw [masked, List.flatMap_cons, showOnly_blanked (by simpa using lost) inLine]
  rfl

theorem stripped_cons_comment {c : Char} (inLine : c ≠ '\n') (items : List (Char × Role)) :
    stripped ((c, .comment) :: items) = List.replicate c.utf8Size ' ' ++ stripped items := by
  rw [stripped_cons, showOnly_blanked rfl inLine]

/-- What the scanner can do in code. -/
theorem ScanState.step_code_cases (lineBlank : Bool) (c : Char) (t : Text) :
    (c = '"' ∧ code.step lineBlank c t = (.code, .string)) ∨ (code.step lineBlank c t).1 = .comment ∨
      (lineBlank = true ∧ c = '/' ∧ code.step lineBlank c t = (.separator, .lineComment .separator)) ∨
        code.step lineBlank c t = (.code, .code) := by
  by_cases quote : c = '"'
  · exact Or.inl ⟨quote, by simp [step, quote]⟩
  by_cases slash : c = '/'
  · subst slash
    by_cases line : t.head? = some '/'
    · obtain ⟨more, rfl⟩ := List.head?_eq_some_iff.mp line
      have opened : code.step lineBlank '/' ('/' :: more) =
          (lineCommentRole lineBlank '/' ('/' :: more), .lineComment (lineCommentRole lineBlank '/' ('/' :: more))) := rfl
      rw [opened, lineCommentRole]
      split
      · rename_i separator
        exact Or.inr (Or.inr (Or.inl ⟨(Bool.and_eq_true_iff.mp separator).1, rfl, rfl⟩))
      · exact Or.inr (Or.inl rfl)
    by_cases block : t.head? = some '*'
    · obtain ⟨more, rfl⟩ := List.head?_eq_some_iff.mp block
      exact Or.inr (Or.inl rfl)
    · exact Or.inr (Or.inr (Or.inr (step_code_slash line block)))
  · exact Or.inr (Or.inr (Or.inr (step_code_plain quote slash)))

/-- Outside of strings and separators, only code and the newline behind a comment are no comment. -/
theorem ScanState.code_or_newline {state : ScanState} {lineBlank : Bool} {c : Char} {t : Text}
    (settled : state.settled = .code) (kept : (state.step lineBlank c t).1 ≠ .comment) :
    state = .code ∨ c = '\n' ∧ (state.step lineBlank c t).2 = .code := by
  cases state with
  | code => exact Or.inl rfl
  | lineComment role =>
    by_cases newline : c = '\n'
    · exact Or.inr ⟨newline, by simp [step, newline]⟩
    · rw [step_lineComment newline] at kept
      simp only [ScanState.settled, if_neg kept, reduceCtorEq] at settled
  | commentOpening | blockComment | commentClosing => exact absurd rfl kept
  | string | escape => cases settled

section

variable {state : ScanState} {lineBlank : Bool} {c : Char} {t : Text} {gap : List (Char × Role)}

/-- One step outside of strings and separators: the rows behind it are quiet, all of them or, where the step begins a
separator, all but the first. -/
theorem quiet_step (settled : state.settled = .code) (here : (state.step lineBlank c t).1 = .code → isBlank c)
    (silent : (state.step lineBlank c t).2.settled = .code → ∀ r ∈ rows (stripped gap), IsQuietRow r)
    (separator : (state.step lineBlank c t).2 = .lineComment .separator →
      ∀ r ∈ (rows (stripped gap)).tail, IsQuietRow r) :
    ∀ r ∈ rows (stripped ((c, (state.step lineBlank c t).1) :: gap)), IsQuietRow r := by
  by_cases comment : (state.step lineBlank c t).1 = .comment
  · rw [stripped_cons]
    refine quiet_append (fun d member => ?_) (silent (ScanState.settled_comment comment).2)
    rw [comment] at member
    exact isBlank_of_lost rfl member
  · rw [stripped_cons_kept comment]
    rcases ScanState.code_or_newline settled comment with rfl | ⟨rfl, next⟩
    · rcases ScanState.step_code_cases lineBlank c t with ⟨rfl, step⟩ | inComment | ⟨-, rfl, step⟩ | step
      · rw [step] at here
        exact absurd (here rfl) (by decide)
      · exact absurd inComment comment
      · rw [step] at separator
        obtain ⟨r, more, split, longer⟩ := rows_cons_visible (show '/' ≠ '\n' by decide) (stripped gap)
        rw [longer]
        rw [split] at separator
        exact List.forall_mem_cons.mpr ⟨isQuietRow_slash r, separator rfl⟩
      · rw [step] at here silent
        exact quiet_cons (here rfl) (silent rfl)
    · rw [next] at silent
      exact quiet_cons (by decide) (silent rfl)

/-- One step inside of a separator, which the first row is part of. -/
theorem quiet_step_separator
    (silent : ((ScanState.lineComment .separator).step lineBlank c t).2.settled = .code →
      ∀ r ∈ rows (stripped gap), IsQuietRow r)
    (separator : ((ScanState.lineComment .separator).step lineBlank c t).2 = .lineComment .separator →
      ∀ r ∈ (rows (stripped gap)).tail, IsQuietRow r) :
    ∀ r ∈ (rows (stripped ((c, ((ScanState.lineComment .separator).step lineBlank c t).1) :: gap))).tail,
      IsQuietRow r := by
  by_cases newline : c = '\n'
  · subst newline
    rw [stripped_cons, showOnly_newline]
    have apart : rows ('\n' :: stripped gap) = [] :: rows (stripped gap) := rows_cons (r := []) (by simp) _
    rw [List.singleton_append, apart]
    exact silent rfl
  · rw [ScanState.step_lineComment newline] at separator ⊢
    rw [stripped_cons_kept (by decide)]
    obtain ⟨r, more, split, longer⟩ := rows_cons_visible newline (stripped gap)
    rw [longer]
    rw [split] at separator
    exact separator rfl

end

/-- A text of which no code is shown says nothing: its rows are blank or separators. A separator that is already
begun makes up the first row. -/
theorem quiet_of_masked {state : ScanState} {lineBlank : Bool} {t : Text} {gap later : List (Char × Role)}
    (items : scanFrom state lineBlank t = gap ++ later) (blank : ∀ c ∈ masked gap, isBlank c) :
    (state.settled = .code → ∀ r ∈ rows (stripped gap), IsQuietRow r) ∧
      (state = .lineComment .separator → ∀ r ∈ (rows (stripped gap)).tail, IsQuietRow r) := by
  induction gap generalizing state lineBlank t with
  | nil =>
    have empty : rows (stripped []) = [[]] := rows_row (by simp [stripped])
    rw [empty]
    exact ⟨fun _ => by simpa using isQuietRow_nil, fun _ => by simp⟩
  | cons item gap ih =>
    rcases t with _ | ⟨c, t⟩
    · cases items
    rw [scanFrom_cons, List.cons_append] at items
    obtain ⟨rfl, rest⟩ := List.cons_eq_cons.mp items
    have behind : ∀ d ∈ masked gap, isBlank d := fun d member => blank d (List.mem_append_right _ member)
    have here : (state.step lineBlank c t).1 = .code → isBlank c := by
      intro code
      refine blank c (List.mem_append_left _ ?_)
      rw [code, showOnly_kept rfl]
      exact List.mem_singleton_self c
    obtain ⟨silent, separator⟩ := ih rest behind
    constructor
    · exact fun settled => quiet_step settled here silent separator
    · rintro rfl
      exact quiet_step_separator silent separator

end SchemaDiagram

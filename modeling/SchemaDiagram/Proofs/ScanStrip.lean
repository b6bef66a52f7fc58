import SchemaDiagram.Proofs.ScanStep
import SchemaDiagram.Schema.Parse

namespace SchemaDiagram

open Text

/-- A scanned text without its comments. -/
def stripped (items : List (Char × Role)) : Text := items.flatMap (showOnly (· ≠ .comment))

/-- What a scanned character is to a second scan once the comments are blank: a blanked character is
code, as many spaces as it has bytes. -/
def settle (item : Char × Role) : List (Char × Role) :=
  if item.2 = .comment then
    if item.1 = '\n' then [('\n', .code)] else List.replicate item.1.utf8Size (' ', .code)
  else [item]

/-- Where the second scanner is while the first one is here. Where comments were, it reads code. -/
def ScanState.settled : ScanState → ScanState
  | .lineComment role => if role = .comment then .code else .lineComment role
  | .commentOpening | .blockComment | .commentClosing => .code
  | state => state

theorem stripped_cons (item : Char × Role) (items : List (Char × Role)) :
    stripped (item :: items) = showOnly (· ≠ .comment) item ++ stripped items := rfl

theorem stripped_cons_kept {c : Char} {role : Role} (kept : role ≠ .comment) (items : List (Char × Role)) :
    stripped ((c, role) :: items) = c :: stripped items := by
  rw [stripped_cons, showOnly_kept (by simpa using kept)]
  rfl

/-- Blanking comments can only turn the next character into a space. -/
theorem stripped_head {state : ScanState} {lineBlank : Bool} {t : Text} {c : Char} (noSpace : c ≠ ' ')
    (head : t.head? ≠ some c) : (stripped (scanFrom state lineBlank t)).head? ≠ some c := by
  rcases t with _ | ⟨d, t⟩
  · simp [scanFrom, stripped]
  · obtain ⟨more, shown | shown⟩ := showOnly_head (· ≠ .comment) (d, (state.step lineBlank d t).1)
    · rw [scanFrom_cons, stripped_cons, shown]
      exact head
    · rw [scanFrom_cons, stripped_cons, shown]
      simpa using Ne.symm noSpace

/-- The spaces that stand for a comment are code, and a blank line stays blank with them. -/
theorem scanFrom_spaces (n : Nat) (lineBlank : Bool) (t : Text) :
    scanFrom .code lineBlank (List.replicate n ' ' ++ t) =
      List.replicate n (' ', .code) ++ scanFrom .code lineBlank t := by
  induction n with
  | zero => rfl
  | succ n ih =>
    rw [List.replicate_succ, List.cons_append, scanFrom_cons,
      ScanState.step_code_plain (by decide) (by decide), lineBlankAfter_space, ih]
    rfl

/-- A line comment that is kept is kept to the end of its line. -/
theorem takeWhile_stripped_lineComment {role : Role} (kept : role ≠ .comment) (lineBlank : Bool)
    (t : Text) :
    (stripped (scanFrom (.lineComment role) lineBlank t)).takeWhile (· ≠ '\n') =
      t.takeWhile (· ≠ '\n') := by
  induction t generalizing lineBlank with
  | nil => rfl
  | cons c t ih =>
    by_cases newline : c = '\n'
    · subst newline
      rw [scanFrom_cons, stripped_cons, showOnly_newline]
      rfl
    · rw [scanFrom_cons, ScanState.step_lineComment newline, stripped_cons_kept kept]
      simp only [List.takeWhile_cons, ih]

theorem lineCommentRole_stripped {lineBlank lineBlank' later : Bool} {c : Char} {t : Text}
    (blanker : lineBlank = true → lineBlank' = true) {role : Role}
    (named : lineCommentRole lineBlank c t = role) (kept : role ≠ .comment) :
    lineCommentRole lineBlank' c (stripped (scanFrom (.lineComment role) later t)) = role := by
  unfold lineCommentRole at named ⊢
  rw [takeWhile_stripped_lineComment kept]
  split at named
  · rename_i separator
    rw [Bool.and_eq_true] at separator
    rw [blanker separator.1, separator.2, ← named]
    rfl
  · exact absurd named.symm kept

/-- At a character that is no comment both scanners give the same role and then agree again. -/
theorem ScanState.step_settled {state : ScanState} {lineBlank lineBlank' : Bool} {c : Char} {t : Text}
    (blanker : lineBlank = true → lineBlank' = true)
    (kept : (state.step lineBlank c t).1 ≠ .comment) (later : Bool) :
    state.settled.step lineBlank' c (stripped (scanFrom (state.step lineBlank c t).2 later t)) =
      ((state.step lineBlank c t).1, (state.step lineBlank c t).2.settled) := by
  cases state with
  | code =>
    by_cases quote : c = '"'
    · simp [step, settled, quote]
    by_cases plain : c ≠ '/'
    · simp only [step_code_plain quote plain, settled]
    obtain rfl : c = '/' := Decidable.not_not.mp plain
    by_cases line : t.head? = some '/'
    · obtain ⟨t, rfl⟩ : ∃ more, t = '/' :: more := List.head?_eq_some_iff.mp line
      -- the comment is a separator, so the second scanner sees the same slashes and the same line
      obtain ⟨role, named⟩ : ∃ role, lineCommentRole lineBlank '/' ('/' :: t) = role := ⟨_, rfl⟩
      have first : code.step lineBlank '/' ('/' :: t) = (role, .lineComment role) := by
        rw [← named]
        rfl
      rw [first] at kept ⊢
      have again : lineCommentRole lineBlank' '/'
          (stripped (scanFrom (.lineComment role) later ('/' :: t))) = role :=
        lineCommentRole_stripped blanker named kept
      rw [scanFrom_cons, step_lineComment (by decide), stripped_cons_kept kept] at again ⊢
      simp only [settled, if_neg kept, step, again]
      rfl
    by_cases block : t.head? = some '*'
    · obtain ⟨t, rfl⟩ : ∃ more, t = '*' :: more := List.head?_eq_some_iff.mp block
      exact absurd rfl kept
    · rw [step_code_slash line block]
      exact step_code_slash (stripped_head (by decide) line) (stripped_head (by decide) block)
  | string =>
    by_cases ends : c = '"' ∨ c = '\n'
    · simp [step, settled, ends]
    · by_cases escape : c = '\\' <;> simp [step, settled, ends, escape]
  | escape => by_cases newline : c = '\n' <;> simp [step, settled, newline]
  | lineComment role =>
    by_cases newline : c = '\n'
    · by_cases comment : role = .comment <;> simp [step, settled, newline, comment]
    · rw [step_lineComment newline] at kept ⊢
      simp only [settled, if_neg kept, step_lineComment newline]
  | commentOpening | blockComment | commentClosing => exact absurd rfl kept

/-- In a comment the second scanner is in code, before and after the character. -/
theorem ScanState.settled_comment {state : ScanState} {lineBlank : Bool} {c : Char} {t : Text}
    (comment : (state.step lineBlank c t).1 = .comment) :
    state.settled = .code ∧ (state.step lineBlank c t).2.settled = .code := by
  cases state with
  | code =>
    simp only [step] at comment ⊢
    split at comment
    · cases comment
    split at comment
    · split at comment <;> simp_all [settled]
    · cases comment
  | string => simp only [step] at comment; split at comment <;> cases comment
  | escape => simp only [step] at comment; split at comment <;> cases comment
  | lineComment role =>
    simp only [step] at comment ⊢
    split at comment <;> simp_all [settled]
  | commentOpening => exact ⟨rfl, rfl⟩
  | blockComment =>
    refine ⟨rfl, ?_⟩
    simp only [step]
    split <;> rfl
  | commentClosing => exact ⟨rfl, rfl⟩

/-- A scan of the stripped text settles the scan of the text itself. -/
theorem scanFrom_stripped (state : ScanState) {lineBlank lineBlank' : Bool}
    (blanker : lineBlank = true → lineBlank' = true) (t : Text) :
    scanFrom state.settled lineBlank' (stripped (scanFrom state lineBlank t)) =
      (scanFrom state lineBlank t).flatMap settle := by
  induction t generalizing state lineBlank lineBlank' with
  | nil => rfl
  | cons c t ih =>
    rw [scanFrom_cons, List.flatMap_cons]
    by_cases comment : (state.step lineBlank c t).1 = .comment
    · obtain ⟨before, after⟩ := ScanState.settled_comment comment
      rw [stripped_cons, comment, before]
      by_cases newline : c = '\n'
      · subst newline
        have next := ih (state.step lineBlank '\n' t).2 (lineBlankAfter_mono blanker '\n')
        rw [after] at next
        rw [showOnly_newline, List.singleton_append, scanFrom_cons,
          ScanState.step_code_plain (by decide) (by decide), next]
        rfl
      · have stays (blank : lineBlankAfter lineBlank c = true) : lineBlank' = true := by
          simp only [lineBlankAfter, newline, decide_false, Bool.false_or, Bool.and_eq_true] at blank
          exact blanker blank.1
        have next := ih (state.step lineBlank c t).2 stays
        rw [after] at next
        rw [showOnly_blanked (by decide) newline, scanFrom_spaces, next]
        simp [settle, newline]
    · have step := ScanState.step_settled blanker comment (lineBlankAfter lineBlank c)
      have next := ih (state.step lineBlank c t).2 (lineBlankAfter_mono blanker c)
      rw [stripped_cons_kept comment, scanFrom_cons, step, next]
      simp [settle, comment]

theorem scan_strip (t : Text) : scan (strip t) = (scan t).flatMap settle :=
  scanFrom_stripped .code id t

/-- Blanking more than the comments shows the settled text as it shows the text. -/
theorem flatMap_settle_showOnly {keep : Role → Bool} (noComment : keep .comment = false)
    (item : Char × Role) : (settle item).flatMap (showOnly keep) = showOnly keep item := by
  obtain ⟨c, role⟩ := item
  by_cases comment : role = .comment
  · by_cases newline : c = '\n'
    · simp [settle, comment, newline]
    · have space : showOnly keep (' ', .code) = [' '] := by
        simp [showOnly, show ' '.utf8Size = 1 from rfl]
      have spaces (n : Nat) :
          (List.replicate n (' ', Role.code)).flatMap (showOnly keep) = List.replicate n ' ' := by
        induction n with
        | zero => rfl
        | succ n ih => rw [List.replicate_succ, List.flatMap_cons, space, ih]; rfl
      subst comment
      rw [showOnly_blanked noComment newline]
      simp only [settle, if_true, if_neg newline, spaces]
  · simp [settle, comment]

theorem showOnly_strip {keep : Role → Bool} (noComment : keep .comment = false) (t : Text) :
    (scan (strip t)).flatMap (showOnly keep) = (scan t).flatMap (showOnly keep) := by
  simp only [scan_strip, List.flatMap_assoc, flatMap_settle_showOnly noComment]

theorem strip_strip (t : Text) : strip (strip t) = strip t := showOnly_strip rfl t

theorem mask_strip (t : Text) : mask (strip t) = mask t := showOnly_strip rfl t

theorem outline_strip (t : Text) : outline (strip t) = outline t := by
  rw [outline, outline, mask_strip]

/-- Stripped and raw text have one structure: whoever reads the stripped text finds the same
declarations at the same offsets as whoever edits the raw one. -/
theorem strip_keeps_structure (t : Text) :
    mask (strip t) = mask t ∧ strip (strip t) = strip t ∧ outline (strip t) = outline t ∧
      Document.parse (strip t) = Document.parse t := by
  refine ⟨mask_strip t, strip_strip t, outline_strip t, ?_⟩
  rw [Document.parse, Document.parse, strip_strip]

end SchemaDiagram

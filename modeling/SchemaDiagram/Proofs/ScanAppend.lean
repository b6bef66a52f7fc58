import SchemaDiagram.Proofs.ScanStep

namespace SchemaDiagram

open Text

/-- Where the scanner is behind a text. -/
def scanEnd : ScanState → Bool → Text → ScanState
  | state, _, [] => state
  | state, lineBlank, c :: cs => scanEnd (state.step lineBlank c cs).2 (lineBlankAfter lineBlank c) cs

/-- A text of whole lines that the scanner leaves in code. -/
structure Tidy (t : Text) : Prop where
  wholeLines : t = [] ∨ ∃ u, t = u ++ ['\n']
  endsInCode : scanEnd .code true t = .code

/-- The scanner sees the next character, and the rest of the line only as far as a comment may begin there. -/
theorem ScanState.step_congr_role {state : ScanState} {lineBlank : Bool} {c : Char} {t t' : Text}
    (head : t.head? = t'.head?) (role : lineCommentRole lineBlank c t = lineCommentRole lineBlank c t') :
    state.step lineBlank c t = state.step lineBlank c t' := by
  cases state with
  | code =>
    by_cases quote : c = '"'
    · simp [step, quote]
    by_cases plain : c ≠ '/'
    · rw [step_code_plain quote plain, step_code_plain quote plain]
    obtain rfl : c = '/' := Decidable.not_not.mp plain
    by_cases slash : t.head? = some '/'
    · obtain ⟨u, rfl⟩ := List.head?_eq_some_iff.mp slash
      obtain ⟨u', rfl⟩ := List.head?_eq_some_iff.mp (head.symm.trans slash)
      simp only [step, role]
    by_cases star : t.head? = some '*'
    · obtain ⟨u, rfl⟩ := List.head?_eq_some_iff.mp star
      obtain ⟨u', rfl⟩ := List.head?_eq_some_iff.mp (head.symm.trans star)
      rfl
    · rw [step_code_slash slash star, step_code_slash (head ▸ slash) (head ▸ star)]
  | string | escape | lineComment | commentOpening | commentClosing => rfl
  | blockComment => simp only [step, head]

theorem ScanState.step_congr {state : ScanState} {lineBlank : Bool} {c : Char} {t t' : Text}
    (head : t.head? = t'.head?) (line : t.takeWhile (· ≠ '\n') = t'.takeWhile (· ≠ '\n')) :
    state.step lineBlank c t = state.step lineBlank c t' :=
  step_congr_role head (by rw [lineCommentRole, lineCommentRole, line])

theorem ScanState.step_newline (state : ScanState) (lineBlank : Bool) (t : Text) :
    state.step lineBlank '\n' t = state.step lineBlank '\n' [] := by
  cases state <;> simp [step]

/-- At the end of a line the scan goes on as if the text before was all. -/
theorem scanFrom_append_newline (state : ScanState) (lineBlank : Bool) (u rest : Text) :
    scanFrom state lineBlank (u ++ '\n' :: rest) =
      scanFrom state lineBlank (u ++ ['\n']) ++
        scanFrom (scanEnd state lineBlank (u ++ ['\n'])) true rest := by
  induction u generalizing state lineBlank with
  | nil =>
    rw [List.nil_append, List.nil_append, scanFrom_cons, ScanState.step_newline]
    rfl
  | cons c u ih =>
    have head : (u ++ '\n' :: rest).head? = (u ++ ['\n']).head? := by cases u <;> rfl
    have line : (u ++ '\n' :: rest).takeWhile (· ≠ '\n') = (u ++ ['\n']).takeWhile (· ≠ '\n') := by
      simp [List.takeWhile_append]
    rw [List.cons_append, List.cons_append, scanFrom_cons, ScanState.step_congr head line, ih]
    rfl

theorem scanEnd_append_newline (state : ScanState) (lineBlank : Bool) (u rest : Text) :
    scanEnd state lineBlank (u ++ '\n' :: rest) =
      scanEnd (scanEnd state lineBlank (u ++ ['\n'])) true rest := by
  induction u generalizing state lineBlank with
  | nil =>
    rw [List.nil_append, List.nil_append, scanEnd, ScanState.step_newline]
    rfl
  | cons c u ih =>
    have head : (u ++ '\n' :: rest).head? = (u ++ ['\n']).head? := by cases u <;> rfl
    have line : (u ++ '\n' :: rest).takeWhile (· ≠ '\n') = (u ++ ['\n']).takeWhile (· ≠ '\n') := by
      simp [List.takeWhile_append]
    rw [List.cons_append, List.cons_append, scanEnd, ScanState.step_congr head line, ih]
    rfl

theorem tidy_nil : Tidy [] := ⟨Or.inl rfl, rfl⟩

theorem Tidy.scan_append {a : Text} (tidy : Tidy a) (rest : Text) :
    scan (a ++ rest) = scan a ++ scan rest := by
  rcases tidy.wholeLines with rfl | ⟨u, rfl⟩
  · rfl
  · have lines := scanFrom_append_newline .code true u rest
    rw [tidy.endsInCode] at lines
    simpa [scan] using lines

theorem Tidy.append {a b : Text} (tidy : Tidy a) (later : Tidy b) : Tidy (a ++ b) := by
  rcases tidy.wholeLines with rfl | ⟨u, rfl⟩
  · exact later
  · refine ⟨?_, ?_⟩
    · rcases later.wholeLines with rfl | ⟨v, rfl⟩
      · exact Or.inr ⟨u, by simp⟩
      · exact Or.inr ⟨u ++ '\n' :: v, by simp⟩
    · have lines := scanEnd_append_newline .code true u b
      rw [tidy.endsInCode, later.endsInCode] at lines
      simpa using lines

theorem tidy_flatten {texts : List Text} (tidy : ∀ t ∈ texts, Tidy t) : Tidy texts.flatten := by
  induction texts with
  | nil => exact tidy_nil
  | cons t texts ih =>
    rw [List.flatten_cons]
    exact (tidy t List.mem_cons_self).append (ih fun u member => tidy u (List.mem_cons_of_mem _ member))

theorem Tidy.strip_append {a : Text} (tidy : Tidy a) (rest : Text) :
    strip (a ++ rest) = strip a ++ strip rest := by
  rw [strip, tidy.scan_append, List.flatMap_append]
  rfl

theorem Tidy.mask_append {a : Text} (tidy : Tidy a) (rest : Text) :
    mask (a ++ rest) = mask a ++ mask rest := by
  rw [mask, tidy.scan_append, List.flatMap_append]
  rfl

theorem scan_flatten {texts : List Text} (tidy : ∀ t ∈ texts, Tidy t) :
    scan texts.flatten = texts.flatMap scan := by
  induction texts with
  | nil => rfl
  | cons t texts ih =>
    rw [List.flatten_cons, (tidy t List.mem_cons_self).scan_append,
      ih fun u member => tidy u (List.mem_cons_of_mem _ member), List.flatMap_cons]

theorem strip_flatten {texts : List Text} (tidy : ∀ t ∈ texts, Tidy t) :
    strip texts.flatten = (texts.map strip).flatten := by
  rw [strip, scan_flatten tidy, List.flatMap_assoc]
  rfl

theorem mask_flatten {texts : List Text} (tidy : ∀ t ∈ texts, Tidy t) :
    mask texts.flatten = (texts.map mask).flatten := by
  rw [mask, scan_flatten tidy, List.flatMap_assoc]
  rfl

end SchemaDiagram

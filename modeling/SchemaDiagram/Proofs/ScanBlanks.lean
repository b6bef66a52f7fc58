import SchemaDiagram.Proofs.ScanOffsets
import SchemaDiagram.Proofs.SeparatorNames

namespace SchemaDiagram

open Text

section

variable {gap : Text} (blank : ∀ c ∈ gap, isBlank c)

include blank

theorem head?_ne_of_blank {c : Char} (visible : isBlank c = false) : gap.head? ≠ some c := by
  intro head
  have white := blank c (List.mem_of_mem_head? head)
  rw [visible] at white
  cases white

/-- White space at the end of a line does not make a separator of it, nor undo one. -/
theorem lineCommentRole_append_blanks (lineBlank : Bool) (c : Char) (t : Text) :
    lineCommentRole lineBlank c (t ++ gap) = lineCommentRole lineBlank c t := by
  obtain ⟨back, line, white⟩ : ∃ back, (t ++ gap).takeWhile (· ≠ '\n') = t.takeWhile (· ≠ '\n') ++ back ∧
      ∀ d ∈ back, isBlank d := by
    rw [List.takeWhile_append]
    split
    · rename_i whole
      have all : t.takeWhile (· ≠ '\n') = t := (List.takeWhile_prefix _).eq_of_length whole
      exact ⟨gap.takeWhile (· ≠ '\n'), by rw [all], fun d member => blank d ((List.takeWhile_prefix _).subset member)⟩
    · exact ⟨[], (List.append_nil _).symm, List.forall_mem_nil _⟩
  have same : separatorName (c :: (t ++ gap).takeWhile (· ≠ '\n')) = separatorName (c :: t.takeWhile (· ≠ '\n')) := by
    rw [line, ← List.cons_append]
    exact separatorName_congr (trim_append (List.forall_mem_nil _) _ white)
  rw [lineCommentRole, lineCommentRole, same]

/-- The scanner does not see the white space at the end of a text before it is there. -/
theorem ScanState.step_append_blanks (state : ScanState) (lineBlank : Bool) (c : Char) (t : Text) :
    state.step lineBlank c (t ++ gap) = state.step lineBlank c t := by
  cases t with
  | cons d t => exact step_congr_role rfl (lineCommentRole_append_blanks blank lineBlank c (d :: t))
  | nil =>
    have noSlash := head?_ne_of_blank blank (c := '/') (by decide)
    have noStar := head?_ne_of_blank blank (c := '*') (by decide)
    rw [List.nil_append]
    cases state with
    | code =>
      by_cases slash : c = '/'
      · subst slash
        rw [step_code_slash noSlash noStar, step_code_slash (by simp) (by simp)]
      · simp only [step, if_neg slash]
    | blockComment => simp only [step, noSlash, List.head?_nil, reduceCtorEq]
    | string | escape | lineComment | commentOpening | commentClosing => rfl

theorem scanFrom_append_blanks (state : ScanState) (lineBlank : Bool) (t : Text) :
    ∃ items, scanFrom state lineBlank (t ++ gap) = scanFrom state lineBlank t ++ items ∧
      items.map Prod.fst = gap := by
  induction t generalizing state lineBlank with
  | nil => exact ⟨scanFrom state lineBlank gap, rfl, scanFrom_map_fst state lineBlank gap⟩
  | cons c t ih =>
    obtain ⟨items, later, chars⟩ := ih (state.step lineBlank c t).2 (lineBlankAfter lineBlank c)
    refine ⟨items, ?_, chars⟩
    rw [List.cons_append, scanFrom_cons, ScanState.step_append_blanks blank, later]
    rfl

theorem scanEnd_append_blanks (state : ScanState) (lineBlank : Bool) (t : Text) :
    ∃ lineBlank', scanEnd state lineBlank (t ++ gap) = scanEnd (scanEnd state lineBlank t) lineBlank' gap := by
  induction t generalizing state lineBlank with
  | nil => exact ⟨lineBlank, rfl⟩
  | cons c t ih =>
    rw [List.cons_append, scanEnd, ScanState.step_append_blanks blank]
    exact ih (state.step lineBlank c t).2 (lineBlankAfter lineBlank c)

/-- Whatever is blanked of a text, white space behind it stays white space. -/
theorem showOnly_append_blanks (keep : Role → Bool) (t : Text) :
    ∃ back, (scan (t ++ gap)).flatMap (showOnly keep) = (scan t).flatMap (showOnly keep) ++ back ∧
      (∀ c ∈ back, isBlank c) ∧ byteSize back = byteSize gap := by
  obtain ⟨items, split, chars⟩ := scanFrom_append_blanks blank .code true t
  refine ⟨items.flatMap (showOnly keep), ?_, ?_, by rw [byteSize_showOnly, chars]⟩
  · rw [scan, split, List.flatMap_append]
    rfl
  · intro c member
    obtain ⟨item, inItems, shown⟩ := List.mem_flatMap.mp member
    have white := blank item.1 (chars ▸ List.mem_map_of_mem inItems)
    rcases mem_showOnly shown with rfl | rfl
    · decide
    · exact white

theorem mask_append_blanks (t : Text) :
    ∃ back, mask (t ++ gap) = mask t ++ back ∧ (∀ c ∈ back, isBlank c) ∧ byteSize back = byteSize gap :=
  showOnly_append_blanks blank _ t

theorem strip_append_blanks (t : Text) :
    ∃ back, strip (t ++ gap) = strip t ++ back ∧ (∀ c ∈ back, isBlank c) ∧ byteSize back = byteSize gap :=
  showOnly_append_blanks blank _ t

theorem scanEnd_blockComment_blanks (lineBlank : Bool) : scanEnd .blockComment lineBlank gap = .blockComment := by
  induction gap generalizing lineBlank with
  | nil => rfl
  | cons c gap ih =>
    obtain ⟨here, later⟩ := List.forall_mem_cons.mp blank
    have noSlash := head?_ne_of_blank later (c := '/') (by decide)
    rw [scanEnd, ScanState.step, if_neg fun closing => noSlash closing.2]
    exact ih later _

end

theorem scanFrom_concat_newline (state : ScanState) (lineBlank : Bool) (t : Text) :
    ∃ role, scanFrom state lineBlank (t ++ ['\n']) = scanFrom state lineBlank t ++ [('\n', role)] := by
  have newline : ∀ c ∈ ['\n'], isBlank c := by decide
  obtain ⟨items, split, chars⟩ := scanFrom_append_blanks newline state lineBlank t
  obtain ⟨⟨c, role⟩, rfl, same⟩ := List.map_eq_singleton_iff.mp chars
  obtain rfl : c = '\n' := same
  exact ⟨role, split⟩

/-- Every line begins in code or in a block comment. -/
theorem scanEnd_concat_newline (state : ScanState) (lineBlank : Bool) (t : Text) :
    scanEnd state lineBlank (t ++ ['\n']) = .code ∨ scanEnd state lineBlank (t ++ ['\n']) = .blockComment := by
  induction t generalizing state lineBlank with
  | nil => cases state <;> simp [scanEnd, ScanState.step]
  | cons c t ih => exact ih _ _

theorem mask_concat_newline (t : Text) : mask (t ++ ['\n']) = mask t ++ ['\n'] := by
  obtain ⟨role, split⟩ := scanFrom_concat_newline .code true t
  rw [mask, scan, split, List.flatMap_append, List.flatMap_singleton, showOnly_newline]
  rfl

/-- No text ends between the two characters of a comment sign. -/
theorem scanEnd_code_cases (t : Text) :
    scanEnd .code true t ≠ .commentOpening ∧ scanEnd .code true t ≠ .commentClosing := by
  have between (state : ScanState) (lineBlank : Bool) (c : Char) (t : Text) :
      ((state.step lineBlank c t).2 = .commentOpening → t.head? = some '*') ∧
        ((state.step lineBlank c t).2 = .commentClosing → t.head? = some '/') := by
    cases state <;> simp only [ScanState.step] <;> (repeat' split) <;> simp_all
  have behind (state : ScanState) (lineBlank : Bool) (c : Char) (t : Text) :
      scanEnd state lineBlank (c :: t) ≠ .commentOpening ∧ scanEnd state lineBlank (c :: t) ≠ .commentClosing := by
    induction t generalizing state lineBlank c with
    | nil =>
      obtain ⟨opening, closing⟩ := between state lineBlank c []
      exact ⟨fun found => (by cases opening found), fun found => (by cases closing found)⟩
    | cons d t ih => exact ih (state.step lineBlank c (d :: t)).2 (lineBlankAfter lineBlank c) d
  cases t with
  | nil => exact ⟨by decide, by decide⟩
  | cons c t => exact behind .code true c t

theorem ScanState.step_blank {state : ScanState} (other : state ≠ .commentOpening ∧ state ≠ .blockComment) {c : Char}
    (blank : isBlank c) (lineBlank : Bool) (t : Text) :
    (state.step lineBlank c t).2 ≠ .commentOpening ∧ (state.step lineBlank c t).2 ≠ .blockComment := by
  obtain ⟨noOpening, noComment⟩ := other
  cases state with
  | code =>
    rw [step_code_plain (by rintro rfl; cases blank) (by rintro rfl; cases blank)]
    exact ⟨by simp, by simp⟩
  | commentOpening => exact absurd rfl noOpening
  | blockComment => exact absurd rfl noComment
  | string | escape | lineComment | commentClosing =>
    simp only [step]
    repeat' split
    all_goals simp

/-- White space neither begins a block comment nor ends one. -/
theorem scanEnd_append_blanks_iff {gap : Text} (blank : ∀ c ∈ gap, isBlank c) (t : Text) :
    scanEnd .code true (t ++ gap) = .blockComment ↔ scanEnd .code true t = .blockComment := by
  obtain ⟨lineBlank, whole⟩ := scanEnd_append_blanks blank .code true t
  have outside {state : ScanState} (other : state ≠ .commentOpening ∧ state ≠ .blockComment) (lineBlank : Bool) :
      scanEnd state lineBlank gap ≠ .commentOpening ∧ scanEnd state lineBlank gap ≠ .blockComment := by
    clear whole
    induction gap generalizing state lineBlank with
    | nil => exact other
    | cons c gap ih =>
      obtain ⟨here, later⟩ := List.forall_mem_cons.mp blank
      exact ih later (ScanState.step_blank other here lineBlank gap) _
  rw [whole]
  constructor
  · intro inside
    by_contra other
    exact (outside ⟨(scanEnd_code_cases t).1, other⟩ lineBlank).2 inside
  · intro inside
    rw [inside, scanEnd_blockComment_blanks blank]

/-- A text that leaves no block comment open ends in code once its last line ends. -/
theorem tidy_append_newline {t : Text} (terminated : scanEnd .code true t ≠ .blockComment) : Tidy (t ++ ['\n']) := by
  refine ⟨Or.inr ⟨t, rfl⟩, ?_⟩
  have newline : ∀ c ∈ ['\n'], isBlank c := by decide
  obtain ⟨lineBlank, last⟩ := scanEnd_append_blanks newline .code true t
  obtain ⟨noOpening, noClosing⟩ := scanEnd_code_cases t
  rw [last]
  cases state : scanEnd .code true t with
  | code | string | escape | lineComment => rfl
  | commentOpening => exact absurd state noOpening
  | blockComment => exact absurd state terminated
  | commentClosing => exact absurd state noClosing

end SchemaDiagram

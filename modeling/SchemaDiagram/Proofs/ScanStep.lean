import SchemaDiagram.Source.Scan

namespace SchemaDiagram

open Text

theorem scanFrom_cons (state : ScanState) (lineBlank : Bool) (c : Char) (t : Text) :
    scanFrom state lineBlank (c :: t) =
      (c, (state.step lineBlank c t).1) ::
        scanFrom (state.step lineBlank c t).2 (lineBlankAfter lineBlank c) t := rfl

namespace ScanState

/-- Only quotes and slashes lead out of code. -/
theorem step_code_plain {lineBlank : Bool} {c : Char} {t : Text} (noQuote : c ≠ '"') (noSlash : c ≠ '/') :
    code.step lineBlank c t = (.code, .code) := by
  simp [step, noQuote, noSlash]

/-- A slash begins a comment only together with the character behind it. -/
theorem step_code_slash {lineBlank : Bool} {t : Text} (noLine : t.head? ≠ some '/')
    (noBlock : t.head? ≠ some '*') : code.step lineBlank '/' t = (.code, .code) := by
  rcases t with _ | ⟨d, t⟩
  · rfl
  · simp only [List.head?_cons, ne_eq, Option.some.injEq] at noLine noBlock
    simp only [step]
    split <;> simp_all

theorem step_lineComment {role : Role} {lineBlank : Bool} {c : Char} {t : Text} (inLine : c ≠ '\n') :
    (lineComment role).step lineBlank c t = (role, .lineComment role) := by
  simp [step, inLine]

end ScanState

@[simp] theorem lineBlankAfter_space (lineBlank : Bool) : lineBlankAfter lineBlank ' ' = lineBlank := by
  cases lineBlank <;> rfl

/-- A blank line stays blank no longer than every line with the same characters behind blanks. -/
theorem lineBlankAfter_mono {lineBlank lineBlank' : Bool} (blanker : lineBlank = true → lineBlank' = true)
    (c : Char) (blank : lineBlankAfter lineBlank c = true) : lineBlankAfter lineBlank' c = true := by
  simp only [lineBlankAfter, Bool.or_eq_true, Bool.and_eq_true] at blank ⊢
  rcases blank with newline | ⟨before, here⟩
  · exact Or.inl newline
  · exact Or.inr ⟨blanker before, here⟩

theorem showOnly_kept {keep : Role → Bool} {c : Char} {role : Role} (kept : keep role = true) :
    showOnly keep (c, role) = [c] := by
  simp [showOnly, kept]

@[simp] theorem showOnly_newline (keep : Role → Bool) (role : Role) :
    showOnly keep ('\n', role) = ['\n'] := by
  simp [showOnly]

theorem showOnly_blanked {keep : Role → Bool} {c : Char} {role : Role} (lost : keep role = false)
    (inLine : c ≠ '\n') : showOnly keep (c, role) = List.replicate c.utf8Size ' ' := by
  simp [showOnly, lost, inLine]

/-- A character is shown as itself or as spaces. -/
theorem showOnly_head (keep : Role → Bool) (item : Char × Role) :
    ∃ later, showOnly keep item = item.1 :: later ∨ showOnly keep item = ' ' :: later := by
  have positive := item.1.utf8Size_pos
  unfold showOnly
  split
  · exact ⟨[], Or.inl rfl⟩
  · obtain ⟨n, size⟩ := Nat.exists_eq_succ_of_ne_zero (Nat.ne_of_gt positive)
    exact ⟨List.replicate n ' ', Or.inr (by rw [size, List.replicate_succ])⟩

theorem isBlank_of_mem_spaces {n : Nat} {c : Char} (member : c ∈ List.replicate n ' ') : isBlank c := by
  rw [List.eq_of_mem_replicate member]
  decide

theorem mem_showOnly {keep : Role → Bool} {item : Char × Role} {c : Char} (shown : c ∈ showOnly keep item) :
    c = ' ' ∨ c = item.1 := by
  unfold showOnly at shown
  split at shown
  · exact Or.inr (List.mem_singleton.mp shown)
  · exact Or.inl (List.eq_of_mem_replicate shown)

/-- What is not kept is white space. -/
theorem isBlank_of_lost {keep : Role → Bool} {c d : Char} {role : Role} (lost : keep role = false)
    (shown : d ∈ showOnly keep (c, role)) : isBlank d := by
  by_cases newline : c = '\n'
  · rw [newline, showOnly_newline] at shown
    rw [List.mem_singleton.mp shown]
    decide
  · rw [showOnly_blanked lost newline] at shown
    exact isBlank_of_mem_spaces shown

end SchemaDiagram

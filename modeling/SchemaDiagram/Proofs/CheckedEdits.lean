import SchemaDiagram.Proofs.CommentSearch
import SchemaDiagram.Proofs.FieldCuts

namespace SchemaDiagram

open Text

/-- `insertField`, with every part of the text cut out at the bytes where it begins and ends. -/
def checkedInsertField (t model line : Text) : Except Error Text :=
  match modelBody? t model with
  | none => .ok t
  | some (start, close) => do
    let body ← cut start close (mask t)
    let contentEnd := start + byteSize (trimEnd body)
    let before ← cut 0 contentEnd t
    let lineStart := contentEnd - byteSize (lastLine before)
    let pads ← (if start < contentEnd ∧ start ≤ lineStart then (cut lineStart contentEnd t).map indent
      else .ok defaultIndent)
    let inserted := pads ++ line ++ txt "\n"
    let gap ← cut contentEnd close t
    if gap.contains '\n' then
      let point := contentEnd + byteSize (gap.takeWhile (· ≠ '\n')) + 1
      return (← cut 0 point t) ++ inserted ++ (← cut point (byteSize t) t)
    else return trimEnd (← cut 0 close t) ++ txt "\n" ++ inserted ++ (← cut close (byteSize t) t)

/-- `fieldLine?`, with the body of the model cut out. -/
def checkedFieldLine? (t model field : Text) : Except Error (Option (Nat × Nat)) :=
  match modelBody? t model with
  | none => .ok none
  | some (start, close) => do return fieldLineFrom field start (lines (← cut start close (mask t)))

/-- `replaceField`, with every part of the text cut out at the bytes where it begins and ends, and with the
comment searched at every byte of the line. -/
def checkedReplaceField (t model field line : Text) : Except Error Text :=
  if field = protectedField then .ok t
  else do
    match ← checkedFieldLine? t model field with
    | none => return t
    | some (start, stop) =>
      let current ← cut start stop t
      let after ← cut stop (byteSize t) t
      let bare := trimEnd (dropEndWhile (· = '}') (trimEnd line))
      let before ← cut 0 start t
      let comment ← commentFrom current (bytes (strip t)) start (List.range (byteSize current))
      let kept := match comment with
        | some comment => if occurs (txt "//") bare then [] else txt " " ++ comment
        | none => []
      let lineBreak := if after.head? = some '}' then txt "\n" else []
      return before ++ indent current ++ bare ++ kept ++ lineBreak ++ after

def checkedUpsertField (t model field line : Text) : Except Error Text :=
  if field = protectedField then .ok t
  else do
    if (← checkedFieldLine? t model field).isSome then checkedReplaceField t model field line
    else checkedInsertField t model line

theorem lastLine_isSuffix (t : Text) : lastLine t <:+ t := by
  have before := List.takeWhile_prefix (l := t.reverse) (fun c => decide (c ≠ '\n'))
  simpa [lastLine] using List.reverse_suffix.mpr before

section

variable {t : Text} {n close : Nat} (atEnd : IsBoundary t n)

include atEnd

/-- The last line in front of a boundary begins at one. -/
theorem cut_lastLine :
    byteSize (lastLine (takeBytes n t)) ≤ n ∧
      cut (n - byteSize (lastLine (takeBytes n t))) n t = .ok (lastLine (takeBytes n t)) := by
  obtain ⟨front, split⟩ := lastLine_isSuffix (takeBytes n t)
  have size := isBoundary_iff.mp atEnd
  rw [← split, byteSize_append] at size
  have whole : t = front ++ lastLine (takeBytes n t) ++ dropBytes n t := by
    rw [split, takeBytes_append_dropBytes]
  have begins : n - byteSize (lastLine (takeBytes n t)) = byteSize front := by omega
  refine ⟨by omega, ?_⟩
  rw [begins, cut_eq ⟨front, _, by rw [List.append_assoc] at whole; exact whole, rfl⟩ atEnd (by omega)]
  have part := slice_append front (lastLine (takeBytes n t)) (dropBytes n t)
  rw [← whole, size] at part
  rw [part]

/-- A line of the rest of a body ends between two characters. -/
theorem isBoundary_newline (atClose : IsBoundary t close) (inOrder : n ≤ close) (newline : '\n' ∈ slice n close t) :
    IsBoundary t (n + byteSize ((slice n close t).takeWhile (· ≠ '\n')) + 1) := by
  obtain ⟨front, back, whole, atFront, -⟩ := split_of_isBoundary atEnd atClose inOrder
  obtain ⟨r, rest, split, inLine⟩ := List.eq_append_cons_of_mem newline
  have line : (slice n close t).takeWhile (· ≠ '\n') = r := by
    rw [split]
    exact takeWhile_append_stops (fun c member => decide_eq_true fun same => inLine (same ▸ member))
      (stops_cons (by simp))
  rw [line]
  refine ⟨front ++ r ++ ['\n'], rest ++ back, ?_, ?_⟩
  · rw [whole, split]
    simp
  · simp [atFront, show '\n'.utf8Size = 1 from rfl, Nat.add_assoc]

end

/-- A line is put in without a cut inside of a character. -/
theorem checkedInsertField_eq (t model line : Text) :
    checkedInsertField t model line = .ok (insertField t model line) := by
  cases found : modelBody? t model with
  | none => simp only [checkedInsertField, insertField, found]
  | some bounds =>
    obtain ⟨start, close⟩ := bounds
    obtain ⟨atStart, atClose, inOrder⟩ := modelBody_bounds found
    obtain ⟨atEnd, within⟩ := contentEnd_bounds found
    simp only [checkedInsertField, insertField, found, cut_eq atStart.mask atClose.mask inOrder, ok_bind]
    generalize start + byteSize (trimEnd (slice start close (mask t))) = contentEnd at atEnd within ⊢
    obtain ⟨inFront, lastLine⟩ := cut_lastLine atEnd
    have sameLine : (start < contentEnd ∧ start ≤ contentEnd - byteSize (Text.lastLine (takeBytes contentEnd t))) ↔
        start < contentEnd ∧ start + byteSize (Text.lastLine (takeBytes contentEnd t)) ≤ contentEnd := by omega
    have pads : (if start < contentEnd ∧ start ≤ contentEnd - byteSize (Text.lastLine (takeBytes contentEnd t)) then
          (cut (contentEnd - byteSize (Text.lastLine (takeBytes contentEnd t))) contentEnd t).map indent
        else .ok defaultIndent) =
        .ok (if start < contentEnd ∧ start + byteSize (Text.lastLine (takeBytes contentEnd t)) ≤ contentEnd then
          indent (Text.lastLine (takeBytes contentEnd t)) else defaultIndent) := by
      rw [lastLine]
      simp only [sameLine]
      split <;> rfl
    simp only [cut_front atEnd, cut_eq atEnd atClose within, pads, ok_bind]
    split
    · rename_i newline
      have atPoint := isBoundary_newline atEnd atClose within (by simpa using newline)
      rw [cut_front atPoint, cut_back atPoint]
      rfl
    · rw [cut_front atClose, cut_back atClose]
      rfl

theorem checkedFieldLine?_eq (t model field : Text) : checkedFieldLine? t model field = .ok (fieldLine? t model field) := by
  unfold checkedFieldLine? fieldLine?
  cases found : modelBody? t model with
  | none => rfl
  | some bounds =>
    obtain ⟨atStart, atClose, inOrder⟩ := modelBody_bounds (show modelBody? t model = some (bounds.1, bounds.2) from found)
    simp only [cut_eq atStart.mask atClose.mask inOrder]
    rfl

/-- A line is written anew without a cut inside of a character, but for the search for its comment. That fails
where the search at the characters of the line fails. -/
theorem checkedReplaceField_eq (t model field line : Text) :
    checkedReplaceField t model field line = replaceField t model field line := by
  unfold checkedReplaceField replaceField
  by_cases protected' : field = protectedField
  · rw [if_pos protected', if_pos protected']
  · rw [if_neg protected', if_neg protected', checkedFieldLine?_eq, ok_bind]
    cases found : fieldLine? t model field with
    | none => rfl
    | some bounds =>
      obtain ⟨start, stop⟩ := bounds
      obtain ⟨atStart, atStop, inOrder⟩ := fieldLine_bounds found
      simp only [cut_eq atStart atStop inOrder, cut_back atStop, cut_front atStart, ok_bind]
      exact congrArg (· >>= _) (commentFrom_slice atStart atStop inOrder)

theorem checkedUpsertField_eq (t model field line : Text) :
    checkedUpsertField t model field line = upsertField t model field line := by
  rw [checkedUpsertField, upsertField, checkedFieldLine?_eq, ok_bind, checkedReplaceField_eq, checkedInsertField_eq]
  rfl

/-- The line of a field, which is not the protected one, has a character of several bytes in front of its comment. -/
def WideOnLine (t model field : Text) : Prop :=
  field ≠ protectedField ∧ ∃ start stop, fieldLine? t model field = some (start, stop) ∧
    WideBeforeComment (slice start stop t) (slice start stop (strip t))

section

variable {t model field line : Text}

theorem replaceField_returns_iff : (∃ out, replaceField t model field line = .ok out) ↔ ¬WideOnLine t model field := by
  by_cases protected' : field = protectedField
  · exact iff_of_true ⟨t, if_pos protected'⟩ fun wide => wide.1 protected'
  · rw [replaceField, if_neg protected']
    cases found : fieldLine? t model field with
    | none => exact iff_of_true ⟨t, rfl⟩ fun ⟨_, _, _, line, _⟩ => by cases found.symm.trans line
    | some bounds =>
      obtain ⟨start, stop⟩ := bounds
      obtain ⟨atStart, atStop, inOrder⟩ := fieldLine_bounds found
      have search := trailingComment_slice_returns_iff atStart atStop inOrder
      constructor
      · rintro ⟨out, done⟩ ⟨-, start', stop', same, wide⟩
        obtain ⟨rfl, rfl⟩ : start = start' ∧ stop = stop' := by simpa using found.symm.trans same
        refine search.mp ?_ wide
        cases result : trailingComment (slice start stop t) (slice start stop (strip t)) with
        | ok comment => exact ⟨comment, rfl⟩
        | error e => simp only [result] at done; cases done
      · intro clear
        obtain ⟨comment, result⟩ := search.mpr fun wide => clear ⟨protected', start, stop, found, wide⟩
        simp only [result]
        exact ⟨_, rfl⟩

theorem upsertField_returns_iff : (∃ out, upsertField t model field line = .ok out) ↔ ¬WideOnLine t model field := by
  rw [upsertField]
  split
  · rename_i protected'
    exact iff_of_true ⟨t, rfl⟩ fun wide => wide.1 protected'
  · split
    · exact replaceField_returns_iff
    · rename_i undeclared
      refine iff_of_true ⟨_, rfl⟩ fun ⟨_, _, _, line, _⟩ => undeclared ?_
      rw [hasField, line]
      rfl

end

end SchemaDiagram

import SchemaDiagram.Proofs.ModelRows

namespace SchemaDiagram

open Text

/-- A row that shows nothing to the reader of a model. -/
def isBareRow (r : Text) : Bool := (rowLine r).isEmpty

/-- Puts a line behind the last row that shows something, or else behind the first one. Behind a row that the
opening brace is in it gets the default indentation. -/
def insertRowFrom (atBrace : Bool) (line : Text) : List Text → List Text
  | [] => []
  | r :: later =>
    let new := (if atBrace then defaultIndent else indent r) ++ line
    if later.isEmpty then [trimEnd r, new, []]
    else if later.all isBareRow then r :: new :: later
    else r :: insertRowFrom false line later

def insertRow (line : Text) (rs : List Text) : List Text := insertRowFrom true line rs

/-- How far the code of a body reaches. -/
def codeSize (body : Text) : Nat := (trimEnd (blankFrom false body)).length

/-- A body with a line put behind its code. -/
def insertBody (atBrace : Bool) (line body : Text) : Text :=
  let code := body.take (codeSize body)
  let gap := body.drop (codeSize body)
  let new := (if atBrace && !code.contains '\n' then defaultIndent else indent (lastLine code)) ++ line ++ ['\n']
  if gap.contains '\n' then code ++ gap.takeWhile (· ≠ '\n') ++ ['\n'] ++ new ++ (gap.dropWhile (· ≠ '\n')).drop 1
  else trimEnd body ++ ['\n'] ++ new

theorem dropEndWhile_append_of_ne_nil {p : Char → Bool} {t : Text} (some : dropEndWhile p t ≠ []) (front : Text) :
    dropEndWhile p (front ++ t) = front ++ dropEndWhile p t := by
  have rest : (t.reverse.dropWhile p).isEmpty = false := by
    simpa [dropEndWhile, List.isEmpty_iff] using some
  rw [dropEndWhile, List.reverse_append, List.dropWhile_append, rest, if_neg (by decide), List.reverse_append,
    List.reverse_reverse]
  rfl

theorem lastLine_row {r : Text} (inLine : '\n' ∉ r) : lastLine r = r := by
  have all : r.reverse.takeWhile (fun c => decide (c ≠ '\n')) = r.reverse := by
    rw [List.takeWhile_eq_self_iff]
    intro c member
    simpa using fun (same : c = '\n') => inLine (same ▸ List.mem_reverse.mp member)
  rw [lastLine, all, List.reverse_reverse]

/-- Only the text behind a newline counts for the last line. -/
theorem lastLine_append_newline (r t : Text) : lastLine (r ++ '\n' :: t) = lastLine t := by
  have line : (t.reverse ++ '\n' :: r.reverse).takeWhile (fun c => decide (c ≠ '\n')) =
      t.reverse.takeWhile (fun c => decide (c ≠ '\n')) := by
    rw [List.takeWhile_append]
    split
    · rename_i whole
      rw [List.takeWhile_cons_of_neg (by simp), List.append_nil,
        (List.takeWhile_prefix _).eq_of_length whole]
    · rfl
  rw [lastLine, lastLine, List.reverse_append, List.reverse_cons, List.append_assoc, List.singleton_append, line]

theorem indent_append_of_visible {a : Text} (visible : ∃ c ∈ a, isPad c = false) (b : Text) :
    indent (a ++ b) = indent a := by
  obtain ⟨c, member, shown⟩ := visible
  rw [indent, List.takeWhile_append]
  split
  · rename_i whole
    have all := (List.takeWhile_prefix (l := a) isPad).eq_of_length whole
    rw [← all] at member
    exact absurd (List.mem_takeWhile_imp member) (by simp [shown])
  · rfl

section

variable {r t : Text}

theorem isBareRow_iff : isBareRow r ↔ ∀ c ∈ blankFrom false r, isBlank c := by
  rw [isBareRow, List.isEmpty_iff, rowLine, trim_eq_nil_iff]

theorem all_isBareRow_iff : (rows t).all isBareRow ↔ ∀ c ∈ blankFrom false t, isBlank c := by
  induction t using rows_induction with
  | oneRow r inLine => rw [rows_row inLine, List.all_cons, List.all_nil, Bool.and_true, isBareRow_iff]
  | moreRows r t inLine ih =>
    rw [rows_cons inLine, List.all_cons, Bool.and_eq_true, ih, isBareRow_iff, blankFrom_append_newline]
    simp only [List.mem_append, List.mem_cons, or_imp, forall_and, forall_eq]
    exact ⟨fun ⟨here, later⟩ => ⟨here, by decide, later⟩, fun ⟨here, _, later⟩ => ⟨here, later⟩⟩

/-- In front of where the code ends there is some, unless there is none at all. -/
theorem visible_take_codeSize (visible : ¬ ∀ c ∈ blankFrom false t, isBlank c) :
    ∃ c ∈ t.take (codeSize t), isPad c = false := by
  by_contra none
  have pads : ∀ c ∈ t.take (codeSize t), isBlank c := by
    intro c member
    by_contra shown
    refine none ⟨c, member, ?_⟩
    by_contra pad
    exact shown (isBlank_of_isPad (by simpa using pad))
  have apart : MeetApart (t.take (codeSize t)) (t.drop (codeSize t)) := by
    intro last
    exact absurd (pads '/' (List.mem_of_getLast? last)) (by decide)
  have code : trimEnd (blankFrom false t) = blankFrom false (t.take (codeSize t)) := by
    have whole : blankFrom false (t.take (codeSize t) ++ t.drop (codeSize t)) =
        blankFrom false (t.take (codeSize t)) ++
          blankFrom (commentAfter false (t.take (codeSize t))) (t.drop (codeSize t)) := blankFrom_append apart
    rw [List.take_append_drop] at whole
    have front := dropEndWhile_isPrefix isBlank (blankFrom false t)
    refine (List.prefix_of_prefix_length_le front ⟨_, whole.symm⟩ ?_).eq_of_length ?_
    all_goals
      rw [length_blankFrom, List.length_take, Nat.min_eq_left]
      · rfl
      · exact (front.length_le).trans (Nat.le_of_eq length_blankFrom)
  have blanks : ∀ c ∈ trimEnd (blankFrom false t), isBlank c := by
    rw [code]
    intro c member
    rcases mem_blankFrom member with inside | rfl
    · exact pads c inside
    · decide
  have ends : trimEnd (trimEnd (blankFrom false t)) = trimEnd (blankFrom false t) :=
    dropEndWhile_eq_self (stops_dropEndWhile isBlank _)
  rw [show trimEnd (trimEnd (blankFrom false t)) = [] from dropEndWhile_eq_nil_iff.mpr blanks] at ends
  exact visible (dropEndWhile_eq_nil_iff.mp ends.symm)

/-- Behind a row whose code is followed by rows without any, the code ends in that row. -/
theorem codeSize_row_bare (bare : ∀ c ∈ blankFrom false t, isBlank c) :
    codeSize (r ++ '\n' :: t) = codeSize r := by
  have blanks : ∀ c ∈ '\n' :: blankFrom false t, isBlank c := List.forall_mem_cons.mpr ⟨by decide, bare⟩
  rw [codeSize, blankFrom_append_newline, trimEnd, dropEndWhile_append_of_forall _ blanks]
  rfl

theorem codeSize_le_length : codeSize t ≤ t.length :=
  (dropEndWhile_isPrefix isBlank (blankFrom false t)).length_le.trans (Nat.le_of_eq length_blankFrom)

theorem codeSize_row_more (more : ¬ ∀ c ∈ blankFrom false t, isBlank c) :
    codeSize (r ++ '\n' :: t) = (r ++ ['\n']).length + codeSize t := by
  have some : dropEndWhile isBlank (blankFrom false t) ≠ [] := mt dropEndWhile_eq_nil_iff.mp more
  rw [codeSize, blankFrom_append_newline,
    show blankFrom false r ++ '\n' :: blankFrom false t = blankFrom false r ++ ['\n'] ++ blankFrom false t by simp,
    trimEnd, dropEndWhile_append_of_ne_nil some, List.length_append, List.length_append, List.length_append,
    length_blankFrom]
  rfl

theorem indent_code (visible : ¬ ∀ c ∈ blankFrom false t, isBlank c) :
    indent (t.take (codeSize t)) = indent t := by
  have shown := indent_append_of_visible (visible_take_codeSize visible) (t.drop (codeSize t))
  rwa [List.take_append_drop, eq_comm] at shown

theorem insertBody_row {atBrace : Bool} (line : Text) (inLine : '\n' ∉ r)
    (visible : atBrace = true ∨ ¬ ∀ c ∈ blankFrom false r, isBlank c) :
    insertBody atBrace line r =
      trimEnd r ++ '\n' :: ((if atBrace then defaultIndent else indent r) ++ line ++ ['\n']) := by
  have noBreak : (r.drop (codeSize r)).contains '\n' = false := by
    simpa using fun member => inLine (List.mem_of_mem_drop member)
  have code : '\n' ∉ r.take (codeSize r) := fun member => inLine (List.mem_of_mem_take member)
  have new : (if atBrace && !(r.take (codeSize r)).contains '\n' then defaultIndent
      else indent (lastLine (r.take (codeSize r)))) = if atBrace then defaultIndent else indent r := by
    cases atBrace with
    | true => simp [code]
    | false =>
      rw [lastLine_row code, indent_code (visible.resolve_left (by decide))]
      rfl
  simp only [insertBody, noBreak, new]
  simp

theorem insertBody_bare {atBrace : Bool} (line : Text) (inLine : '\n' ∉ r)
    (bare : ∀ c ∈ blankFrom false t, isBlank c)
    (visible : atBrace = true ∨ ¬ ∀ c ∈ blankFrom false r, isBlank c) :
    insertBody atBrace line (r ++ '\n' :: t) =
      r ++ '\n' :: ((if atBrace then defaultIndent else indent r) ++ line ++ '\n' :: t) := by
  have within : codeSize r ≤ r.length := codeSize_le_length
  have code : '\n' ∉ r.take (codeSize r) := fun member => inLine (List.mem_of_mem_take member)
  have new : (if atBrace && !(r.take (codeSize r)).contains '\n' then defaultIndent
      else indent (lastLine (r.take (codeSize r)))) = if atBrace then defaultIndent else indent r := by
    cases atBrace with
    | true => simp [code]
    | false =>
      rw [lastLine_row code, indent_code (visible.resolve_left (by decide))]
      rfl
  have gap : ∀ c ∈ r.drop (codeSize r), decide (c ≠ '\n') = true := by
    intro c member
    simpa using fun (same : c = '\n') => inLine (same ▸ List.mem_of_mem_drop member)
  have stops : Stops (fun c => decide (c ≠ '\n')) ('\n' :: t) := stops_cons (by simp)
  simp only [insertBody, codeSize_row_bare bare, List.take_append_of_le_length within,
    List.drop_append_of_le_length within, new, takeWhile_append_stops gap stops, dropWhile_append_stops gap stops]
  rw [if_pos (by simp), List.take_append_drop]
  simp

theorem insertBody_more {atBrace : Bool} (line : Text) (more : ¬ ∀ c ∈ blankFrom false t, isBlank c) :
    insertBody atBrace line (r ++ '\n' :: t) = r ++ '\n' :: insertBody false line t := by
  have whole : r ++ '\n' :: t = r ++ ['\n'] ++ t := by simp
  have visible : trimEnd t ≠ [] := by
    intro empty
    refine more fun c member => ?_
    rcases mem_blankFrom member with inside | rfl
    · exact dropEndWhile_eq_nil_iff.mp empty c inside
    · decide
  have trimmed : trimEnd (r ++ ['\n'] ++ t) = r ++ ['\n'] ++ trimEnd t := dropEndWhile_append_of_ne_nil visible _
  have line' : lastLine (r ++ ['\n'] ++ t.take (codeSize t)) = lastLine (t.take (codeSize t)) := by
    rw [List.append_assoc]
    exact lastLine_append_newline r _
  simp only [insertBody, codeSize_row_more more]
  rw [whole, List.take_length_add_append, List.drop_length_add_append, line', trimmed]
  have broken : (r ++ ['\n'] ++ t.take (codeSize t)).contains '\n' = true := by simp
  rw [broken, Bool.not_true, Bool.and_false, Bool.false_and]
  split <;> simp

/-- To put a line into a body is to put it between its rows. -/
theorem insertBody_eq_joinRows {atBrace : Bool} (line : Text)
    (visible : atBrace = true ∨ ¬ ∀ c ∈ blankFrom false t, isBlank c) :
    insertBody atBrace line t = joinRows (insertRowFrom atBrace line (rows t)) := by
  induction t using rows_induction generalizing atBrace with
  | oneRow r inLine =>
    rw [insertBody_row line inLine visible, rows_row inLine, insertRowFrom]
    simp [joinRows_cons, joinRows_singleton]
  | moreRows r t inLine ih =>
    rw [rows_cons inLine, insertRowFrom]
    have more : (rows t).isEmpty = false := by simpa using rows_ne_nil t
    by_cases bare : ∀ c ∈ blankFrom false t, isBlank c
    · have here : atBrace = true ∨ ¬ ∀ c ∈ blankFrom false r, isBlank c := by
        refine visible.imp id fun shown all => shown ?_
        rw [blankFrom_append_newline]
        simp only [List.mem_append, List.mem_cons, or_imp, forall_and, forall_eq]
        exact ⟨all, by decide, bare⟩
      rw [insertBody_bare line inLine bare here]
      simp [more, all_isBareRow_iff.mpr bare, joinRows_cons, rows_ne_nil, joinRows_rows]
    · have notBare : (rows t).all isBareRow = false := by
        simpa using mt all_isBareRow_iff.mp bare
      have some : insertRowFrom false line (rows t) ≠ [] := by
        obtain ⟨s, later, atRows⟩ := List.exists_cons_of_ne_nil (rows_ne_nil t)
        rw [atRows, insertRowFrom]
        split
        · simp
        · split <;> simp
      rw [insertBody_more line bare, ih (Or.inr bare)]
      simp [more, notBare, joinRows_cons some]

end

theorem lastLine_append_row {b : Text} (inLine : '\n' ∉ b) (a : Text) : lastLine (a ++ b) = lastLine a ++ b := by
  have all : ∀ c ∈ b.reverse, decide (c ≠ '\n') = true := by
    intro c member
    simpa using fun (same : c = '\n') => inLine (same ▸ List.mem_reverse.mp member)
  rw [lastLine, lastLine, List.reverse_append, List.takeWhile_append_of_pos all, List.reverse_append,
    List.reverse_reverse]

theorem length_lastLine_le (t : Text) : (lastLine t).length ≤ t.length := by
  rw [lastLine, List.length_reverse]
  exact (List.takeWhile_prefix _).length_le.trans_eq List.length_reverse

/-- The indentation of a new line is read from the line before it, if that line begins in the body. -/
theorem insert_indentation (lead : Text) {code : Text} :
    (if 0 < code.length ∧ (lastLine (lead ++ ['{'] ++ code)).length ≤ code.length then
        indent (lastLine (lead ++ ['{'] ++ code)) else defaultIndent) =
      if true && !code.contains '\n' then defaultIndent else indent (lastLine code) := by
  by_cases newline : '\n' ∈ code
  · obtain ⟨u, v, rfl⟩ := List.append_of_mem newline
    have line : lastLine (lead ++ ['{'] ++ (u ++ '\n' :: v)) = lastLine (u ++ '\n' :: v) := by
      rw [← List.append_assoc, lastLine_append_newline, lastLine_append_newline]
    rw [line, if_pos ⟨List.length_pos_of_mem newline, length_lastLine_le _⟩]
    simp
  · have tooLong : ¬(lastLine (lead ++ ['{'] ++ code)).length ≤ code.length := by
      rw [lastLine_append_row newline, lastLine_append_row (by simp)]
      simp only [List.length_append, List.length_singleton]
      omega
    rw [if_neg fun both => tooLong both.2]
    simp [newline]

theorem byteSize_lastLine {u : Text} (ascii : ∀ c ∈ u, isAscii c) : byteSize (lastLine u) = (lastLine u).length := by
  refine byteSize_of_ascii fun c member => ascii c (List.mem_reverse.mp ?_)
  exact (List.takeWhile_prefix _).subset (List.mem_reverse.mp member)

section

variable {t : Text} {earlier later : List Declaration} {d : Declaration} {lead body back : Text} {n : Nat}
  (at' : ClosedAt t earlier d later lead body back) (ascii : ∀ c ∈ t, isAscii c)

include at' ascii

theorem ClosedAt.takeBytes_body (inside : n ≤ body.length) :
    takeBytes (lead.length + 1 + n) t = lead ++ ['{'] ++ body.take n := by
  have whole : t = lead ++ ['{'] ++ (body ++ '}' :: back) := by simp [at'.cut.whole]
  have front : lead.length + 1 = (lead ++ ['{']).length := by simp
  rw [takeBytes_of_ascii ascii, whole, front, List.take_length_add_append, List.take_append_of_le_length inside]

theorem ClosedAt.dropBytes_body (inside : n ≤ body.length) :
    dropBytes (lead.length + 1 + n) t = body.drop n ++ '}' :: back := by
  have whole : t = lead ++ ['{'] ++ (body ++ '}' :: back) := by simp [at'.cut.whole]
  have front : lead.length + 1 = (lead ++ ['{']).length := by simp
  rw [dropBytes_of_ascii ascii, whole, front, List.drop_length_add_append, List.drop_append_of_le_length inside]

theorem ClosedAt.slice_body_rest (inside : n ≤ body.length) :
    slice (lead.length + 1 + n) (lead.length + 1 + body.length) t = body.drop n := by
  have rest : ∀ c ∈ body.drop n ++ '}' :: back, isAscii c := by
    rw [← at'.dropBytes_body ascii inside, dropBytes_of_ascii ascii]
    exact fun c member => ascii c (List.mem_of_mem_drop member)
  have size : lead.length + 1 + body.length - (lead.length + 1 + n) = (body.drop n).length := by
    rw [List.length_drop]
    omega
  rw [slice, at'.dropBytes_body ascii inside, takeBytes_of_ascii rest, size, List.take_left]

/-- A text cut behind a line break in its body. -/
theorem ClosedAt.cut_at_break (inside : n ≤ body.length) {u v : Text} (split : body.drop n = u ++ '\n' :: v) :
    takeBytes (lead.length + 1 + n + byteSize u + 1) t = lead ++ ['{'] ++ (body.take n ++ (u ++ ['\n'])) ∧
      dropBytes (lead.length + 1 + n + byteSize u + 1) t = v ++ '}' :: back := by
  have member {c : Char} (inU : c ∈ u) : c ∈ t := by
    have inBody : c ∈ body := List.mem_of_mem_drop (by rw [split]; exact List.mem_append_left _ inU)
    simp [at'.cut.whole, inBody]
  have size : byteSize u = u.length := byteSize_of_ascii fun c inU => ascii c (member inU)
  have bound : n + (u.length + 1) ≤ body.length := by
    have length := congrArg List.length split
    simp only [List.length_drop, List.length_append, List.length_cons] at length
    omega
  have behind : body.drop n = u ++ ['\n'] ++ v := by simp [split]
  have broken : u.length + 1 = (u ++ ['\n']).length := by simp
  have place : lead.length + 1 + n + byteSize u + 1 = lead.length + 1 + (n + (u.length + 1)) := by omega
  rw [place, at'.takeBytes_body ascii bound, at'.dropBytes_body ascii bound, List.take_add, ← List.drop_drop, behind,
    broken, List.take_left, List.drop_left]
  exact ⟨rfl, rfl⟩

theorem ClosedAt.trimEnd_takeBytes :
    trimEnd (takeBytes (lead.length + 1 + body.length) t) = lead ++ ['{'] ++ trimEnd body := by
  rw [at'.takeBytes_body ascii (Nat.le_refl _), List.take_length]
  exact dropEndWhile_append (by simp [Stops]; decide) body

end

/-- Inserting a field is inserting a row. -/
theorem IsPlainText.insertField_eq {t : Text} (plain : IsPlainText t) (model line : Text) :
    insertField t model line = SchemaDiagram.editModel t model (insertRow line) := by
  cases found : SchemaDiagram.modelBody? t model with
  | none => simp only [insertField, SchemaDiagram.editModel, found]
  | some offsets =>
    obtain ⟨start, close⟩ := offsets
    obtain ⟨earlier, d, later, lead, body, back, at', -, -, -, rfl, rfl⟩ := plain.modelBody? found
    obtain ⟨taken, sliced, dropped⟩ := at'.slices plain.ascii
    have masked := at'.slice_mask plain.only
    have bodyAscii : ∀ c ∈ body, isAscii c := (at'.isPlainBody plain).only.ascii
    have size : byteSize (trimEnd (blankFrom false body)) = codeSize body :=
      byteSize_of_ascii fun c member =>
        isAscii_blankFrom bodyAscii c ((dropEndWhile_isPrefix isBlank _).subset member)
    have within : codeSize body ≤ body.length := codeSize_le_length
    have before := at'.takeBytes_body plain.ascii within
    have beforeSize := byteSize_lastLine (u := lead ++ ['{'] ++ body.take (codeSize body)) <| by
      rw [← before, takeBytes_of_ascii plain.ascii]
      exact fun c member => plain.ascii c (List.mem_of_mem_take member)
    have gap := at'.slice_body_rest plain.ascii within
    have indentation : (if lead.length + 1 < lead.length + 1 + codeSize body ∧
        lead.length + 1 + (lastLine (lead ++ ['{'] ++ body.take (codeSize body))).length ≤
          lead.length + 1 + codeSize body then
        indent (lastLine (lead ++ ['{'] ++ body.take (codeSize body))) else defaultIndent) =
        if true && !(body.take (codeSize body)).contains '\n' then defaultIndent
        else indent (lastLine (body.take (codeSize body))) := by
      rw [← insert_indentation lead, List.length_take, Nat.min_eq_left within]
      congr 1
      simp
    have edited : SchemaDiagram.editModel t model (insertRow line) =
        lead ++ ['{'] ++ insertBody true line body ++ '}' :: back := by
      simp only [SchemaDiagram.editModel, found, taken, sliced, dropped, insertRow]
      rw [insertBody_eq_joinRows line (Or.inl rfl)]
    rw [edited]
    simp only [insertField, found, masked, size, before, beforeSize, indentation, gap, insertBody]
    by_cases broken : (body.drop (codeSize body)).contains '\n'
    · obtain ⟨u, v, split, inLine⟩ := List.eq_append_cons_of_mem (List.contains_iff_mem.mp broken)
      have inside : ∀ c ∈ u, decide (c ≠ '\n') = true := by
        intro c member
        simpa using fun (same : c = '\n') => inLine (same ▸ member)
      have stops : Stops (fun c => decide (c ≠ '\n')) ('\n' :: v) := stops_cons (by simp)
      obtain ⟨upTo, behind⟩ := at'.cut_at_break plain.ascii within split
      rw [if_pos broken, if_pos broken, split, takeWhile_append_stops inside stops,
        dropWhile_append_stops inside stops, upTo, behind]
      simp [txt]
    · rw [if_neg broken, if_neg broken, at'.trimEnd_takeBytes plain.ascii, dropped]
      simp [txt]

end SchemaDiagram

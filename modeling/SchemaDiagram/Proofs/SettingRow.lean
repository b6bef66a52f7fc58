import SchemaDiagram.Proofs.BodyRows

namespace SchemaDiagram

open Text

/-- A setting as a row of its block. -/
def settingRow (width : Nat) (key value : Text) : Text :=
  txt "  " ++ padTo width key ++ txt " = " ++ value ++ txt "\n"

/-- What `setting?` finds at the start of a line. -/
def settingAt? (key : Text) (read : Text → Option Text) (t : Text) : Option Text := do
  let rest ← key.isPrefixOf? (t.dropWhile isBlank)
  match rest.dropWhile isBlank with
  | '=' :: value => read value
  | _ => none

/-- A value that is printed in quotes and read without them. -/
structure IsPlainValue (value : Text) : Prop where
  noQuote : '"' ∉ value
  noCall : '(' ∉ value
  oneLine : '\n' ∉ value

theorem laterLines_append {u : Text} (inLine : '\n' ∉ u) (t : Text) :
    laterLines (u ++ '\n' :: t) = t :: laterLines t := by
  induction u with
  | nil => rfl
  | cons c u ih =>
    obtain ⟨other, later⟩ := not_or.mp (mt List.mem_cons.mpr inLine)
    rw [List.cons_append, laterLines, if_neg (Ne.symm other), ih later]

section

variable {key : Text} {read : Text → Option Text}

theorem setting?_eq (t : Text) :
    setting? key read t = (settingAt? key read t).or ((laterLines t).findSome? (settingAt? key read)) := by
  show (t :: laterLines t).findSome? (settingAt? key read) = _
  rw [List.findSome?_cons]
  cases settingAt? key read t <;> rfl

theorem setting?_append {u : Text} (inLine : '\n' ∉ u) (t : Text) :
    setting? key read (u ++ '\n' :: t) = (settingAt? key read (u ++ '\n' :: t)).or (setting? key read t) := by
  rw [setting?_eq, laterLines_append inLine]
  rfl

/-- The line of the opening brace holds no setting of its own. -/
theorem setting?_newline (t : Text) : setting? key read ('\n' :: t) = setting? key read t := by
  have split : setting? key read ('\n' :: t) = (settingAt? key read ('\n' :: t)).or (setting? key read t) :=
    setting?_append (u := []) (by simp) t
  have same : settingAt? key read ('\n' :: t) = settingAt? key read t := by
    rw [settingAt?, List.dropWhile_cons_of_pos (by decide), settingAt?]
  rw [split, same, setting?_eq]
  cases settingAt? key read t <;> rfl

theorem setting?_nil (named : key ≠ []) : setting? key read [] = none := by
  obtain ⟨c, more, rfl⟩ := List.exists_cons_of_ne_nil named
  rfl

theorem settingRow_eq (width : Nat) (name value rest : Text) :
    settingRow width name value ++ rest =
      txt "  " ++ (name ++ (List.replicate (width - name.length) ' ' ++
        ' ' :: '=' :: (' ' :: value ++ '\n' :: rest))) := by
  simp [settingRow, padTo, txt]

theorem settingAt?_row (word : IsWord key) (width : Nat) (value rest : Text) :
    settingAt? key read (settingRow width key value ++ rest) = read (' ' :: value ++ '\n' :: rest) := by
  have spaces : ∀ c ∈ txt "  ", isBlank c := by decide
  have pads : ∀ c ∈ List.replicate (width - key.length) ' ' ++ [' '], isBlank c := by
    intro c member
    rcases List.mem_append.mp member with pad | space
    · exact isBlank_of_mem_spaces pad
    · rw [List.mem_singleton.mp space]
      decide
  have sign : Stops isBlank ('=' :: (' ' :: value ++ '\n' :: rest)) := stops_cons (by decide)
  have dropped := dropWhile_append_stops pads sign
  rw [List.append_assoc, List.singleton_append] at dropped
  rw [settingRow_eq, settingAt?, dropWhile_append_stops spaces (word.stops_isBlank _),
    isPrefixOf?_eq_some_iff.mpr rfl]
  simp only [Option.bind_eq_bind, Option.bind_some, dropped]

/-- In front of its value a row holds its key, white space and the sign. -/
theorem not_mem_settingLead {name : Text} (word : IsWord name) (width : Nat) {c : Char} (other : isWordChar c = false)
    (noSign : c ∉ [' ', '=']) : c ∉ txt "  " ++ padTo width name ++ txt " = " := by
  have spaces : ∀ d ∈ txt "  ", d ∈ [' ', '='] := by decide
  have signs : ∀ d ∈ txt " = ", d ∈ [' ', '='] := by decide
  intro member
  rw [padTo, List.mem_append, List.mem_append, List.mem_append] at member
  rcases member with (space | letter | pad) | sign
  · exact noSign (spaces c space)
  · exact word.not_mem other letter
  · exact noSign (by rw [List.eq_of_mem_replicate pad]; decide)
  · exact noSign (signs c sign)

theorem settingRow_line {name value : Text} (word : IsWord name) (inLine : '\n' ∉ value) (width : Nat) :
    ∃ u, settingRow width name value = u ++ ['\n'] ∧ '\n' ∉ u := by
  refine ⟨txt "  " ++ padTo width name ++ txt " = " ++ value, rfl, fun member => ?_⟩
  exact (List.mem_append.mp member).elim (not_mem_settingLead word width (by decide) (by decide)) inLine

/-- A setting is looked for on its row first. -/
theorem setting?_row_append (word : IsWord key) {value : Text} (inLine : '\n' ∉ value) (width : Nat) (rest : Text) :
    setting? key read (settingRow width key value ++ rest) =
      (read (' ' :: value ++ '\n' :: rest)).or (setting? key read rest) := by
  have here : settingAt? key read (settingRow width key value ++ rest) = read (' ' :: value ++ '\n' :: rest) :=
    settingAt?_row word width value rest
  obtain ⟨u, row, oneLine⟩ := settingRow_line word inLine width
  rw [row, List.append_assoc, List.singleton_append] at here ⊢
  rw [setting?_append oneLine, here]

/-- A row of another key says nothing. -/
theorem settingAt?_other {name : Text} (word : IsWord name) (other : name.head? ≠ key.head?)
    (named : key ≠ []) (width : Nat) (value rest : Text) :
    settingAt? key read (settingRow width name value ++ rest) = none := by
  have spaces : ∀ c ∈ txt "  ", isBlank c := by decide
  rw [settingRow_eq, settingAt?, dropWhile_append_stops spaces (word.stops_isBlank _)]
  obtain ⟨c, more, rfl⟩ := List.exists_cons_of_ne_nil word.1
  obtain ⟨d, later, rfl⟩ := List.exists_cons_of_ne_nil named
  have differ : d ≠ c := fun same => other (by simp [same])
  rw [List.cons_append, isPrefixOf?_cons_cons, if_neg differ]
  rfl

theorem setting?_other_append {name value : Text} (word : IsWord name) (other : name.head? ≠ key.head?) (named : key ≠ [])
    (inLine : '\n' ∉ value) (width : Nat) (rest : Text) :
    setting? key read (settingRow width name value ++ rest) = setting? key read rest := by
  have none : settingAt? key read (settingRow width name value ++ rest) = none :=
    settingAt?_other word other named width value rest
  obtain ⟨u, row, oneLine⟩ := settingRow_line word inLine width
  rw [row, List.append_assoc, List.singleton_append] at none ⊢
  rw [setting?_append oneLine, none, Option.none_or]

end

theorem quoteValue_plain {value : Text} (plain : IsPlainValue value) :
    quoteValue value = '"' :: value ++ ['"'] := by
  simp [quoteValue, plain.noCall, txt]

theorem IsPlainValue.commentFree {value : Text} (plain : IsPlainValue value) :
    CommentFree .outside ('"' :: (value ++ ['"'])) := by
  obtain ⟨inString, still⟩ : CommentFree .inside value ∧ _ := commentFree_inside (by decide) plain.noQuote
  refine ⟨fun _ slash => absurd slash (by decide), ?_⟩
  exact commentFree_append inString (commentFree_of_not_mem (by decide)) ⟨by decide, by decide⟩

/-- A row with a quoted value is one line without comments, and only its key and signs are code. -/
theorem settingRow_quoted {key value : Text} (word : IsWord key) (plain : IsPlainValue value) (width : Nat) :
    ∃ u, settingRow width key (quoteValue value) = u ++ ['\n'] ∧ CommentFree .outside u ∧ '\n' ∉ u ∧
      ∀ c ∈ unquoted u, isWordChar c ∨ c ∈ [' ', '=', '"'] := by
  obtain ⟨front, atFront⟩ : ∃ front, front = txt "  " ++ padTo width key ++ txt " = " := ⟨_, rfl⟩
  have noWhere {c : Char} (other : isWordChar c = false) (noSign : c ∉ [' ', '=']) : c ∉ front :=
    atFront ▸ not_mem_settingLead word width other noSign
  have atQuote : Quoting.after .outside front = .outside := after_of_not_mem (noWhere (by decide) (by decide))
  refine ⟨front ++ '"' :: (value ++ ['"']), ?_, ?_, ?_, ?_⟩
  · rw [quoteValue_plain plain, atFront]
    simp [settingRow, txt]
  · refine commentFree_append (commentFree_of_not_mem (noWhere (by decide) (by decide))) ?_
      (isApart_cons (by decide) (by decide) _)
    rw [atQuote]
    exact plain.commentFree
  · intro member
    rcases List.mem_append.mp member with inside | inside
    · exact noWhere (by decide) (by decide) inside
    · simp [plain.oneLine] at inside
  · intro c member
    rw [unquoted, unquotedFrom_append, atQuote, List.mem_append] at member
    rcases member with inside | inside
    · by_contra other
      obtain ⟨noLetter, noSign⟩ := not_or.mp other
      refine noWhere (by simpa using noLetter) (fun sign => noSign ?_) (mem_of_mem_unquotedFrom inside)
      exact List.mem_append_left ['"'] sign
    · -- of the string itself only the quotes are left
      have shown : unquotedFrom .outside ('"' :: (value ++ ['"'])) =
          '"' :: unquotedFrom (Quoting.after .inside value) ['"'] := by
        show '"' :: unquotedFrom .inside (value ++ ['"']) = _
        rw [unquotedFrom_append, unquotedFrom_inside (by decide) plain.noQuote]
        rfl
      rw [shown, List.mem_cons] at inside
      have quote : c = '"' := by
        rcases inside with quote | quote
        · exact quote
        · simpa using mem_of_mem_unquotedFrom quote
      exact Or.inr (by rw [quote]; decide)

theorem dropWhile_quoted {value : Text} (plain : IsPlainValue value) (rest : Text) :
    (' ' :: quoteValue value ++ '\n' :: rest).dropWhile isBlank = '"' :: (value ++ '"' :: '\n' :: rest) := by
  rw [quoteValue_plain plain]
  have split : ' ' :: ('"' :: value ++ ['"']) ++ '\n' :: rest =
      [' '] ++ '"' :: (value ++ '"' :: '\n' :: rest) := by simp
  rw [split]
  exact dropWhile_append_stops (by decide) (stops_cons (by decide))

theorem stringValue?_quoted {value : Text} (plain : IsPlainValue value) (rest : Text) :
    stringValue? (' ' :: quoteValue value ++ '\n' :: rest) = some value := by
  have inside : ∀ c ∈ value, decide (c ≠ '"') = true := by
    intro c member
    simpa using fun quote : c = '"' => plain.noQuote (quote ▸ member)
  have closed : (value ++ '"' :: '\n' :: rest).contains '"' = true := by simp
  have taken : (value ++ '"' :: '\n' :: rest).takeWhile (fun c => decide (c ≠ '"')) = value :=
    takeWhile_append_stops inside (stops_cons rfl)
  rw [stringValue?, dropWhile_quoted plain, quotedContent?, if_pos closed, taken]

theorem lineValue?_quoted {value : Text} (plain : IsPlainValue value) (rest : Text) :
    lineValue? (' ' :: quoteValue value ++ '\n' :: rest) = some ('"' :: value ++ ['"']) := by
  have inside : ∀ c ∈ '"' :: value ++ ['"'], decide (c ≠ '\n') = true := by
    intro c member
    have inLine : '\n' ∉ '"' :: value ++ ['"'] := by simpa using plain.oneLine
    simpa using fun newline : c = '\n' => inLine (newline ▸ member)
  have taken : ('"' :: (value ++ '"' :: '\n' :: rest)).takeWhile (fun c => decide (c ≠ '\n')) =
      '"' :: value ++ ['"'] := by
    have split : '"' :: (value ++ '"' :: '\n' :: rest) = '"' :: value ++ ['"'] ++ '\n' :: rest := by simp
    rw [split]
    exact takeWhile_append_stops inside (stops_cons rfl)
  have trimmed : trimEnd ('"' :: value ++ ['"']) = '"' :: value ++ ['"'] := by
    refine dropEndWhile_eq_self (stops_reverse_append (by simp) ?_)
    exact stops_cons (by decide)
  rw [lineValue?, dropWhile_quoted plain]
  simp only [taken, trimmed]

theorem unquote_quoted (value : Text) : unquote ('"' :: value ++ ['"']) = value := by
  have found : (txt "\"").isSuffixOf? (value ++ ['"']) = some value := isSuffixOf?_eq_some_iff.mpr rfl
  rw [List.cons_append, unquote, found]
  rfl

end SchemaDiagram

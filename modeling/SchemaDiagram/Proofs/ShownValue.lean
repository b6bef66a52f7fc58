import SchemaDiagram.Proofs.BodyFields
import SchemaDiagram.Proofs.CodeItems

namespace SchemaDiagram

open Text

/-- A value that comes back from its row. As it is printed it holds no comment, and a call has neither white space at its
ends nor a pair of quotes around it, for these are not printed. -/
structure IsKeptValue (v : Text) : Prop where
  noComment : CommentFree .outside (quoteValue v)
  bare : '(' ∈ v → trim v = v ∧ unquote v = v

/-- A value as it is shown behind the code of its row. -/
def shownValue (v : Text) : Text := stripped (scanFrom .code false v)

theorem quoteValue_call {v : Text} (call : '(' ∈ v) : quoteValue v = v := by simp [quoteValue, call]

theorem quoteValue_other {v : Text} (noCall : '(' ∉ v) : quoteValue v = '"' :: v ++ ['"'] := by simp [quoteValue, noCall, txt]

theorem CommentFree.stripped_eq {quoting : Quoting} {u : Text} (free : CommentFree quoting u) (inLine : '\n' ∉ u)
    (lineBlank : Bool) : stripped (scanFrom quoting.state lineBlank u) = u := by
  have apart : IsApart [] := ⟨by decide, by decide⟩
  obtain ⟨lineBlank', items, -⟩ := scanFrom_append_commentFree free inLine apart lineBlank
  rw [List.append_nil, scanFrom, List.append_nil] at items
  rw [items]
  exact flatMap_quotedItems quoting u

/-- Where the first comment of a line begins, a space is shown. -/
theorem commentFree_or_blanked {quoting : Quoting} {u : Text} (inLine : '\n' ∉ u) :
    CommentFree quoting u ∨ ∃ a sign b rest, u = a ++ '/' :: sign :: b ∧ (sign = '/' ∨ sign = '*') ∧
      stripped (scanFrom quoting.state false u) = a ++ ' ' :: rest := by
  induction u generalizing quoting with
  | nil => exact Or.inl trivial
  | cons c u ih =>
    obtain ⟨other, oneLine⟩ := List.ne_and_not_mem_of_not_mem_cons inLine
    by_cases comment : quoting = .outside ∧ c = '/' ∧ (u.head? = some '/' ∨ u.head? = some '*')
    · obtain ⟨rfl, rfl, sign⟩ := comment
      have role : (ScanState.code.step false '/' u).1 = .comment := by
        rcases sign with slash | star
        · obtain ⟨more, rfl⟩ := List.head?_eq_some_iff.mp slash
          rfl
        · obtain ⟨more, rfl⟩ := List.head?_eq_some_iff.mp star
          rfl
      obtain ⟨rest, shown⟩ : ∃ rest, stripped (scanFrom .code false ('/' :: u)) = ' ' :: rest := by
        rw [scanFrom_cons, role, stripped_cons_comment (by decide)]
        exact ⟨_, rfl⟩
      rcases u with _ | ⟨second, b⟩
      · simp at sign
      · exact Or.inr ⟨[], second, b, rest, rfl, by simpa using sign, shown⟩
    · have noSign : quoting = .outside → c = '/' → u.head? ≠ some '/' ∧ u.head? ≠ some '*' :=
        fun outside slash => not_or.mp fun sign => comment ⟨outside, slash, sign⟩
      have dark : lineBlankAfter false c = false := by simp [lineBlankAfter, other.symm]
      have kept : (if quoting.shows c then Role.code else .literal) ≠ .comment := by split <;> simp
      rcases @ih (quoting.next c) oneLine with free | ⟨a, sign, b, rest, rfl, isSign, blank⟩
      · exact Or.inl ⟨noSign, free⟩
      · refine Or.inr ⟨c :: a, sign, b, rest, rfl, isSign, ?_⟩
        rw [scanFrom_cons, ScanState.step_state other.symm noSign, dark, stripped_cons_kept kept, blank]
        rfl

theorem CommentFree.shownValue_eq {u : Text} (free : CommentFree .outside u) (inLine : '\n' ∉ u) : shownValue u = u :=
  free.stripped_eq inLine false

theorem shownValue_cases {u : Text} (inLine : '\n' ∉ u) :
    (CommentFree .outside u ∧ shownValue u = u) ∨ ∃ a sign b rest, u = a ++ '/' :: sign :: b ∧
      (sign = '/' ∨ sign = '*') ∧ shownValue u = a ++ ' ' :: rest := by
  have cases : CommentFree .outside u ∨ _ := commentFree_or_blanked inLine
  exact cases.imp_left fun free => ⟨free, free.shownValue_eq inLine⟩

theorem byteSize_shownValue (v : Text) : byteSize (shownValue v) = byteSize v := by
  rw [shownValue, byteSize_stripped, written_scanFrom]

theorem shownValue_quoted (v : Text) : ∃ rest, shownValue ('"' :: v) = '"' :: rest := by
  rw [shownValue, scanFrom_cons, show (ScanState.code.step false '"' v) = (.code, .string) from rfl,
    stripped_cons_kept (by decide)]
  exact ⟨_, rfl⟩

theorem unquote_cases (x : Text) : unquote x = x ∨ x = '"' :: unquote x ++ ['"'] := by
  unfold unquote
  split
  · rename_i rest
    cases found : (txt "\"").isSuffixOf? rest with
    | none => exact Or.inl rfl
    | some inner =>
      refine Or.inr ?_
      rw [isSuffixOf?_eq_some_iff.mp found]
      rfl
  · exact Or.inl rfl

theorem byteSize_unquote_le (x : Text) : byteSize (unquote x) ≤ byteSize x := by
  rcases unquote_cases x with same | quoted
  · exact (congrArg byteSize same).le
  · conv => rhs; rw [quoted]
    rw [List.cons_append, byteSize_cons, byteSize_append]
    omega

theorem unquote_eq_self_of_byteSize {x : Text} (large : byteSize x ≤ byteSize (unquote x)) : unquote x = x := by
  refine (unquote_cases x).resolve_right fun quoted => ?_
  have size := congrArg byteSize quoted
  have positive := '"'.utf8Size_pos
  rw [List.cons_append, byteSize_cons, byteSize_append] at size
  omega

/-- What is shown of a quoted value with a comment does not begin with the value: the comment is too long for that. -/
theorem not_prefix_blanked {v a b rest : Text} {sign : Char} (isSign : sign = '/' ∨ sign = '*')
    (quoted : '"' :: v ++ ['"'] = a ++ '/' :: sign :: b) : ¬v <+: a ++ ' ' :: rest := by
  intro before
  have reach : v <+: a ∨ ∃ w, v = a ++ ' ' :: w := by
    rcases prefix_append_cases before with inside | ⟨w, rfl, after⟩
    · exact Or.inl inside
    · rcases List.prefix_cons_iff.mp after with rfl | ⟨w, rfl, -⟩
      · exact Or.inl (by simp)
      · exact Or.inr ⟨w, rfl⟩
  rcases reach with ⟨more, rfl⟩ | ⟨w, rfl⟩
  · have size := congrArg List.length quoted
    simp only [List.length_append, List.length_cons, List.length_nil] at size
    obtain rfl : b = [] := List.length_eq_zero_iff.mp (by omega)
    have atEnd : ('"' :: v ++ ['"']).getLast? = (v ++ more ++ ['/'] ++ [sign]).getLast? := by
      rw [quoted]
      simp
    rw [List.getLast?_concat, List.getLast?_concat] at atEnd
    rcases isSign with rfl | rfl <;> cases atEnd
  · have behind := congrArg (List.drop (a.length + 1)) quoted
    simp only [List.cons_append, List.append_assoc, List.drop_succ_cons, List.drop_left, List.drop_length_add_append] at behind
    rcases isSign with rfl | rfl <;> cases behind

theorem quoteValue_inLine {v : Text} (inLine : '\n' ∉ v) : '\n' ∉ quoteValue v := by
  rw [quoteValue]
  split <;> simp [txt, inLine]

theorem trim_quoted (v : Text) : trim ('"' :: v ++ ['"']) = '"' :: v ++ ['"'] := by
  have ends : Stops isBlank ('"' :: v ++ ['"']).reverse := stops_reverse_append (by simp) (stops_cons (by decide))
  exact trim_eq_self (stops_cons (by decide)) ends

/-- A value in quotes is read as itself only with its quotes. -/
theorem trim_shownValue_ne {v : Text} (inLine : '\n' ∉ v) (noCall : '(' ∉ v) : trim (shownValue (quoteValue v)) ≠ v := by
  intro same
  rw [quoteValue_other noCall] at same
  have oneLine : '\n' ∉ '"' :: v ++ ['"'] := by simp [inLine]
  obtain ⟨-, shown⟩ | ⟨a, sign, b, rest, split, isSign, shown⟩ := shownValue_cases oneLine
  · rw [shown, trim_quoted] at same
    have size := congrArg List.length same
    simp only [List.length_append, List.length_cons, List.length_nil] at size
    omega
  · have before : trim (shownValue ('"' :: v ++ ['"'])) <+: shownValue ('"' :: v ++ ['"']) := by
      obtain ⟨more, quoted⟩ := shownValue_quoted (v ++ ['"'])
      rw [List.cons_append, quoted, trim_cons (by decide)]
      exact List.cons_prefix_cons.mpr ⟨rfl, dropEndWhile_isPrefix isBlank more⟩
    rw [same, shown] at before
    exact not_prefix_blanked isSign split before

/-- If a call comes back from its row, all of the row is the call. -/
theorem shownValue_of_read {v : Text} (read : unquote (trim (shownValue v)) = v) :
    shownValue v = v ∧ trim v = v ∧ unquote v = v := by
  have trimmed := byteSize_trim_le (shownValue v)
  have unquoted := byteSize_unquote_le (trim (shownValue v))
  rw [read] at unquoted
  rw [byteSize_shownValue] at trimmed
  have whole := trim_eq_self_of_byteSize (byteSize_shownValue v ▸ unquoted)
  have bare := unquote_eq_self_of_byteSize (by rw [read]; exact trimmed)
  have shown : shownValue v = v := by rw [← whole, ← bare, read]
  rw [shown] at whole read
  rw [whole] at read
  exact ⟨shown, whole, read⟩

/-- If a value in quotes comes back from its row, all of the row is the value in its quotes. -/
theorem shownValue_of_read_quoted {v : Text} (inLine : '\n' ∉ v) (noCall : '(' ∉ v)
    (read : unquote (trim (shownValue (quoteValue v))) = v) : shownValue (quoteValue v) = quoteValue v := by
  have cases := unquote_cases (trim (shownValue (quoteValue v)))
  rw [read] at cases
  have quoted := cases.resolve_left fun same => trim_shownValue_ne inLine noCall same.symm
  rw [← quoteValue_other noCall] at quoted
  have whole := trim_eq_self_of_byteSize (by rw [quoted, byteSize_shownValue])
  exact whole.symm.trans quoted

/-- A value is read as itself from what its row shows exactly if it is kept. -/
theorem unquote_shownValue_iff {v : Text} (inLine : '\n' ∉ v) :
    unquote (trim (shownValue (quoteValue v))) = v ↔ IsKeptValue v := by
  have oneLine := quoteValue_inLine inLine
  constructor
  · intro read
    obtain ⟨whole, bare⟩ : shownValue (quoteValue v) = quoteValue v ∧ ('(' ∈ v → trim v = v ∧ unquote v = v) := by
      by_cases call : '(' ∈ v
      · rw [quoteValue_call call] at read ⊢
        obtain ⟨shown, bare⟩ := shownValue_of_read read
        exact ⟨shown, fun _ => bare⟩
      · exact ⟨shownValue_of_read_quoted inLine call read, fun called => absurd called call⟩
    refine ⟨((shownValue_cases oneLine).resolve_right ?_).1, bare⟩
    rintro ⟨a, sign, b, rest, split, -, shown⟩
    rw [whole, split] at shown
    cases List.append_cancel_left shown
  · intro kept
    rw [kept.noComment.shownValue_eq oneLine]
    by_cases call : '(' ∈ v
    · rw [quoteValue_call call, (kept.bare call).1, (kept.bare call).2]
    · rw [quoteValue_other call, trim_quoted, unquote_quoted]

theorem mem_shownValue {v : Text} {c : Char} (member : c ∈ shownValue v) : c ∈ v ∨ c = ' ' := by
  have shown := (mem_shown member).symm
  rwa [written_scanFrom] at shown

/-- The key of a row is code, so that its value is shown behind code. -/
theorem strip_settingRow {key : Text} (word : IsWord key) (width : Nat) (v : Text) :
    strip (settingRow width key v) = settingRow width key (shownValue v) := by
  obtain ⟨front, atFront⟩ : ∃ front, front = txt "  " ++ padTo width key ++ [' '] := ⟨_, rfl⟩
  have row (value : Text) : settingRow width key value = front ++ ['='] ++ (' ' :: (value ++ ['\n'])) := by
    rw [atFront]
    simp [settingRow, txt]
  have lead : txt "  " ++ padTo width key ++ txt " = " = front ++ ['='] ++ [' '] := by
    rw [atFront]
    simp [txt]
  have noWhere {c : Char} (other : isWordChar c = false) (noSign : c ∉ [' ', '=']) : c ∉ front ++ ['='] := fun member =>
    not_mem_settingLead word width other noSign (lead ▸ List.mem_append_left [' '] member)
  have code := scanFrom_code (noWhere (c := '"') (by decide) (by decide))
    (commentFree_of_not_mem (noWhere (c := '/') (by decide) (by decide)))
    (isApart_cons (c := ' ') (by decide) (by decide) (v ++ ['\n'])) true
  have dark : blankAfter true (front ++ ['=']) = false := blankAfter_concat_visible true front (by decide)
  obtain ⟨role, items⟩ := scanFrom_concat_newline .code false v
  rw [row, row, strip, scan, code, dark, scanFrom_cons, ScanState.step_code_plain (by decide) (by decide),
    lineBlankAfter_space, items]
  change stripped (asCode (front ++ ['=']) ++ (' ', .code) :: (scanFrom .code false v ++ [('\n', role)])) = _
  rw [stripped_append, stripped_asCode, stripped_cons_kept (by decide), stripped_append, stripped_newline]
  rfl

theorem lineValue?_visible {v : Text} (inLine : '\n' ∉ v) {c : Char} (member : c ∈ v) (visible : isBlank c = false)
    (rest : Text) : lineValue? (' ' :: v ++ '\n' :: rest) = some (trim v) := by
  obtain ⟨d, more, shown⟩ : ∃ d more, trimStart v = d :: more := by
    refine List.exists_cons_of_ne_nil fun none => ?_
    rw [List.dropWhile_eq_nil_iff.mp none c member] at visible
    cases visible
  have dropped : (' ' :: v ++ '\n' :: rest).dropWhile isBlank = trimStart v ++ '\n' :: rest := by
    rw [List.cons_append, List.dropWhile_cons_of_pos (by decide), List.dropWhile_append]
    change (if (trimStart v).isEmpty then _ else trimStart v ++ _) = _
    rw [shown]
    rfl
  have oneLine : ∀ e ∈ trimStart v, decide (e ≠ '\n') = true := fun e inside => decide_eq_true fun newline =>
    inLine ((List.dropWhile_suffix isBlank).subset (newline ▸ inside))
  have taken : (trimStart v ++ '\n' :: rest).takeWhile (fun e => decide (e ≠ '\n')) = trimStart v :=
    takeWhile_append_stops oneLine (stops_cons rfl)
  rw [shown] at taken
  rw [lineValue?, dropped, shown, List.cons_append]
  rw [List.cons_append] at taken
  simp only [taken, trim, shown]

/-- Of a row that shows nothing some white space is read. -/
theorem lineValue?_blank {v : Text} (blank : ∀ c ∈ v, isBlank c) :
    ∃ c, isBlank c ∧ lineValue? (' ' :: v ++ ['\n']) = some [c] := by
  have dropped : (' ' :: v ++ ['\n']).dropWhile isBlank = [] := by
    refine List.dropWhile_eq_nil_iff.mpr fun c member => ?_
    simp only [List.cons_append, List.mem_cons, List.mem_append, List.not_mem_nil, or_false] at member
    rcases member with rfl | inside | rfl
    · decide
    · exact blank c inside
    · decide
  have last : ∃ c, (' ' :: v ++ ['\n']).reverse.find? (· ≠ '\n') = some c :=
    Option.isSome_iff_exists.mp (List.find?_isSome.mpr ⟨' ', by simp, by decide⟩)
  obtain ⟨c, found⟩ := last
  refine ⟨c, ?_, by rw [lineValue?, dropped]; simp only [found]; rfl⟩
  have member : c ∈ ' ' :: v ++ ['\n'] := List.mem_reverse.mp (List.mem_of_find?_eq_some found)
  exact List.dropWhile_eq_nil_iff.mp dropped c member

theorem shownValue_inLine {v : Text} (inLine : '\n' ∉ v) : '\n' ∉ shownValue v := fun member =>
  (mem_shownValue member).elim inLine (by decide)

/-- A value is read from its row, the last one of its block, exactly if it is kept. -/
theorem lineValue?_shownValue_iff {v : Text} (inLine : '\n' ∉ v) :
    (lineValue? (' ' :: shownValue (quoteValue v) ++ ['\n'])).map unquote = some v ↔ IsKeptValue v := by
  have oneLine := shownValue_inLine (quoteValue_inLine inLine)
  by_cases visible : ∃ c ∈ shownValue (quoteValue v), isBlank c = false
  · obtain ⟨c, member, visible⟩ := visible
    rw [lineValue?_visible oneLine member visible, Option.map_some, Option.some_inj, unquote_shownValue_iff inLine]
  · have blank : ∀ c ∈ shownValue (quoteValue v), isBlank c := by simpa using visible
    have call : '(' ∈ v := by
      by_contra noCall
      obtain ⟨rest, quoted⟩ := shownValue_quoted (v ++ ['"'])
      rw [quoteValue_other noCall, List.cons_append, quoted] at blank
      exact absurd (blank '"' List.mem_cons_self) (by decide)
    obtain ⟨c, space, read⟩ := lineValue?_blank blank
    refine iff_of_false (fun same => ?_) fun kept => ?_
    · have bare : unquote [c] = [c] := (unquote_cases [c]).resolve_right fun quoted => by
        have size := congrArg List.length quoted
        simp at size
      rw [read, Option.map_some, Option.some_inj, bare] at same
      rw [← same, List.mem_singleton] at call
      exact absurd space (by rw [← call]; decide)
    · have same := (unquote_shownValue_iff inLine).mpr kept
      have none : trim (shownValue (quoteValue v)) = [] := by
        rw [trim, trimStart, List.dropWhile_eq_nil_iff.mpr blank]
        rfl
      rw [none] at same
      rw [← same] at call
      cases call

/-- A provider without a parenthesis is printed in quotes and read from there. -/
theorem stringValue?_provider {provider : Text} (plain : IsPlainValue provider) (rest : Text) :
    stringValue? (' ' :: shownValue (quoteValue provider) ++ '\n' :: rest) = some provider := by
  have free : CommentFree .outside (quoteValue provider) := quoteValue_plain plain ▸ plain.commentFree
  rw [free.shownValue_eq (quoteValue_inLine plain.oneLine), stringValue?_quoted plain]

/-- A provider with a parenthesis is printed without quotes, where nothing reads it. -/
theorem stringValue?_call {provider rest : Text} (noQuote : '"' ∉ provider) (call : '(' ∈ provider)
    (noString : (rest.dropWhile isBlank).head? ≠ some '"') :
    stringValue? (' ' :: shownValue (quoteValue provider) ++ '\n' :: rest) = none := by
  rw [quoteValue_call call]
  obtain ⟨row, atRow⟩ : ∃ row, row = ' ' :: shownValue provider ++ ['\n'] := ⟨_, rfl⟩
  have whole : ' ' :: shownValue provider ++ '\n' :: rest = row ++ rest := by rw [atRow]; simp
  have bare : '"' ∉ row := by
    rw [atRow]
    simp only [List.cons_append, List.mem_cons, List.mem_append, List.not_mem_nil, or_false, not_or]
    exact ⟨by decide, fun member => (mem_shownValue member).elim noQuote (by decide), by decide⟩
  have head : ((row ++ rest).dropWhile isBlank).head? ≠ some '"' := by
    rw [List.dropWhile_append]
    split
    · exact noString
    · rename_i nonempty
      rw [List.head?_append_of_ne_nil _ (by simpa using nonempty)]
      exact fun quote => bare ((List.dropWhile_suffix isBlank).subset (List.mem_of_mem_head? quote))
  rw [whole, stringValue?, quotedContent?.eq_def]
  split
  · rename_i shown
    exact absurd (congrArg List.head? shown) head
  · rfl

end SchemaDiagram

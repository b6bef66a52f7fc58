import SchemaDiagram.Files.Basic
import SchemaDiagram.Proofs.BodyFields

namespace SchemaDiagram

open Text

/-- The name between the marks of a separator: what the padding encloses, or its last character if it encloses
nothing. -/
def markedName (inner : Text) : Option Text :=
  match dropEndWhile isPad (inner.dropWhile isPad) with
  | [] => inner.getLast?.map ([·])
  | name => some name

theorem separatorName_eq_some_iff {line name : Text} :
    separatorName line = some name ↔
      ∃ gap inner, trim line = txt "//" ++ (gap ++ (txt "===" ++ (inner ++ txt "==="))) ∧ (∀ c ∈ gap, isPad c) ∧
        '\n' ∉ inner ∧ markedName inner = some name := by
  have oneLine (inner : Text) : inner.contains '\n' = false ↔ '\n' ∉ inner := by
    rw [← Bool.not_eq_true, List.contains_iff_mem]
  constructor
  · intro announced
    simp only [separatorName, Option.bind_eq_bind, Option.bind_eq_some_iff] at announced
    obtain ⟨marked, slashes, opened, opening, inner, closing, read⟩ := announced
    have whole := isPrefixOf?_eq_some_iff.mp slashes
    have begins := isPrefixOf?_eq_some_iff.mp opening
    have ends := isSuffixOf?_eq_some_iff.mp closing
    split at read
    · cases read
    · rename_i inLine
      refine ⟨marked.takeWhile isPad, inner, ?_, fun c => List.mem_takeWhile_imp, ?_, read⟩
      · rw [← ends, ← begins, List.takeWhile_append_dropWhile, whole]
      · exact (oneLine inner).mp (by simpa using inLine)
  · rintro ⟨gap, inner, whole, pads, inLine, read⟩
    have padded : (gap ++ (txt "===" ++ (inner ++ txt "==="))).dropWhile isPad = txt "===" ++ (inner ++ txt "===") :=
      dropWhile_append_stops pads (stops_cons (by decide))
    simp only [separatorName, isPrefixOf?_eq_some_iff.mpr whole, padded, isPrefixOf?_eq_some_iff.mpr rfl,
      isSuffixOf?_eq_some_iff.mpr rfl, (oneLine inner).mpr inLine, Option.bind_eq_bind, Option.bind_some,
      Bool.false_eq_true, if_false]
    exact read

/-- Around the name there is padding only. -/
theorem markedName_eq_some {inner name : Text} (read : markedName inner = some name) :
    ∃ front back, inner = front ++ (name ++ back) ∧ (∀ c ∈ front, isPad c) ∧ ∀ c ∈ back, isPad c := by
  obtain ⟨back, rest, inBack⟩ := dropEndWhile_split isPad (inner.dropWhile isPad)
  have front := List.takeWhile_append_dropWhile (p := isPad) (l := inner)
  unfold markedName at read
  split at read
  · rename_i nothing
    obtain ⟨c, last, rfl⟩ := Option.map_eq_some_iff.mp read
    obtain ⟨u, rfl⟩ := List.getLast?_eq_some_iff.mp last
    have pads : ∀ d ∈ u ++ [c], isPad d := by
      rw [nothing, List.nil_append] at rest
      rw [rest] at front
      intro d member
      rw [← front] at member
      exact (List.mem_append.mp member).elim List.mem_takeWhile_imp (inBack d)
    exact ⟨u, [], rfl, fun d member => pads d (List.mem_append_left _ member), List.forall_mem_nil _⟩
  · obtain rfl := Option.some.inj read
    exact ⟨inner.takeWhile isPad, back, by rw [← rest, front], fun c => List.mem_takeWhile_imp, inBack⟩

theorem markedName_isSome_iff {inner : Text} : (markedName inner).isSome ↔ inner ≠ [] := by
  rcases inner with _ | ⟨c, inner⟩
  · exact iff_of_false (by decide) (by simp)
  refine iff_of_true ?_ (List.cons_ne_nil c inner)
  unfold markedName
  split
  · rw [List.getLast?_cons]
    rfl
  · rfl

/-- A character that a rule across the page is drawn with, or the padding in it. -/
def isRuleChar (c : Char) : Bool := c = '=' || isPad c

/-- A comment that is nothing but a rule across the page. -/
def IsRule (line : Text) : Prop := ∃ rest, trim line = txt "//" ++ rest ∧ ∀ c ∈ rest, isRuleChar c

theorem isRuleChar_of_isPad {c : Char} (pad : isPad c) : isRuleChar c := by
  rw [isRuleChar, pad, Bool.or_true]

/-- The name that a line announces says something exactly if the line does. -/
theorem isRule_iff_of_announced {line name : Text} (announced : separatorName line = some name) :
    (∀ c ∈ name, isRuleChar c) ↔ IsRule line := by
  obtain ⟨gap, inner, whole, pads, -, read⟩ := separatorName_eq_some_iff.mp announced
  obtain ⟨front, back, rfl, inFront, inBack⟩ := markedName_eq_some read
  constructor
  · intro rule
    refine ⟨_, whole, ?_⟩
    have marks : ∀ c ∈ txt "===", isRuleChar c := by decide
    simp only [List.forall_mem_append]
    exact ⟨fun c member => isRuleChar_of_isPad (pads c member), marks,
      ⟨fun c member => isRuleChar_of_isPad (inFront c member), rule,
        fun c member => isRuleChar_of_isPad (inBack c member)⟩, marks⟩
  · rintro ⟨rest, other, rule⟩ c member
    obtain rfl := List.append_cancel_left (other.symm.trans whole)
    exact rule c (by simp [member])

/-- A rule of six signs has the marks of a separator and nothing between them. What goes beyond them is a name. -/
theorem separatorName_of_rule {line gap : Text} {n : Nat} (pads : ∀ c ∈ gap, isPad c)
    (whole : trim line = txt "//" ++ (gap ++ List.replicate n '=')) :
    separatorName line = if n < 7 then none else some (List.replicate (n - 6) '=') := by
  have stops (m : Nat) : Stops isPad (List.replicate m '=') := by
    intro c head
    rw [List.eq_of_mem_replicate (List.mem_of_mem_head? head)]
    rfl
  have marks : txt "===" = List.replicate 3 '=' := rfl
  split
  · rename_i short
    refine Option.eq_none_iff_forall_not_mem.mpr fun name announced => ?_
    obtain ⟨gap', inner, whole', pads', -, read⟩ := separatorName_eq_some_iff.mp announced
    have same := congrArg (List.dropWhile isPad) (List.append_cancel_left (whole.symm.trans whole'))
    have visible : Stops isPad (txt "===" ++ (inner ++ txt "===")) := stops_cons rfl
    rw [dropWhile_append_stops pads (stops n), dropWhile_append_stops pads' visible] at same
    have size := congrArg List.length same
    simp only [marks, List.length_append, List.length_replicate] at size
    have empty : inner = [] := List.eq_nil_of_length_eq_zero (by omega)
    exact markedName_isSome_iff.mp (Option.isSome_of_mem read) empty
  · rename_i long
    have parts : List.replicate n '=' = txt "===" ++ (List.replicate (n - 6) '=' ++ txt "===") := by
      rw [marks, List.replicate_append_replicate, List.replicate_append_replicate]
      congr 1
      omega
    have oneLine : '\n' ∉ List.replicate (n - 6) '=' :=
      fun member => absurd (List.eq_of_mem_replicate member) (by decide)
    have bare : dropEndWhile isPad ((List.replicate (n - 6) '=').dropWhile isPad) = List.replicate (n - 6) '=' := by
      rw [dropWhile_eq_self (stops _)]
      exact dropEndWhile_eq_self (by rw [List.reverse_replicate]; exact stops _)
    refine separatorName_eq_some_iff.mpr ⟨gap, List.replicate (n - 6) '=', by rw [whole, parts], pads, oneLine, ?_⟩
    obtain ⟨m, size⟩ : ∃ m, n - 6 = m + 1 := ⟨n - 7, by omega⟩
    rw [markedName, bare, size, List.replicate_succ]

/-- Whoever draws a rule announces a file. The name that a line announces is made of the signs of a rule exactly if
the line is a rule, and a rule of more than six signs announces what it has beyond them. -/
theorem separatorName_rules (line : Text) :
    (∀ name, separatorName line = some name → ((∀ c ∈ name, isRuleChar c) ↔ IsRule line)) ∧
      ∀ gap n, (∀ c ∈ gap, isPad c) → trim line = txt "//" ++ (gap ++ List.replicate n '=') →
        separatorName line = if n < 7 then none else some (List.replicate (n - 6) '=') :=
  ⟨fun _ => isRule_iff_of_announced, fun _ _ => separatorName_of_rule⟩

theorem separatorName_rules_page :
    ((∀ c ∈ txt " ", isPad c) ∧ trim (txt " // =======\r\n") = txt "//" ++ (txt " " ++ List.replicate 7 '=')) ∧
      separatorName (txt " // =======\r\n") = some (txt "=") ∧ IsRule (txt " // =======\r\n") := by
  have pads : ∀ c ∈ txt " ", isPad c := by decide
  have whole : trim (txt " // =======\r\n") = txt "//" ++ (txt " " ++ List.replicate 7 '=') := by decide
  obtain ⟨rule, long⟩ := separatorName_rules (txt " // =======\r\n")
  have announced := long _ 7 pads whole
  exact ⟨⟨pads, whole⟩, announced, (rule _ announced).mp (by decide)⟩

/-- A rule between two models puts the second one into a file of its own, whose name is a rule. -/
theorem splitFiles_at_rule :
    splitFiles (txt "model A \x7b\n\x7d\n// ==========\nmodel B \x7b\n\x7d\n") =
        [⟨txt "schema.prisma", txt "model A \x7b\n\x7d\n"⟩, ⟨txt "====", txt "model B \x7b\n\x7d\n"⟩] ∧
      ¬ ∀ line name, separatorName line = some name → ∃ c ∈ name, ¬ isRuleChar c := by
  refine ⟨by decide +kernel, fun named => ?_⟩
  have announced : separatorName (txt "// ==========") = some (txt "====") := by decide +kernel
  obtain ⟨c, member, sign⟩ := named _ _ announced
  have rule : ∀ c ∈ txt "====", isRuleChar c := by decide
  exact sign (rule c member)

/-- A separator begins with two slashes on a line that is still blank. -/
theorem ScanState.step_apart {state : ScanState} {lineBlank : Bool} {c : Char} {t : Text}
    (other : state ≠ .lineComment .separator)
    (apart : state = .code → lineBlank = true → ¬ (c = '/' ∧ t.head? = some '/')) :
    (state.step lineBlank c t).1 ≠ .separator ∧ (state.step lineBlank c t).2 ≠ .lineComment .separator := by
  cases state with
  | code =>
    by_cases slash : c = '/'
    · subst slash
      by_cases line : t.head? = some '/'
      · obtain ⟨more, rfl⟩ := List.head?_eq_some_iff.mp line
        have begun : lineBlank = false := Bool.eq_false_iff.mpr fun blank => apart rfl blank ⟨rfl, line⟩
        simp [step, lineCommentRole, begun]
      by_cases block : t.head? = some '*'
      · obtain ⟨more, rfl⟩ := List.head?_eq_some_iff.mp block
        simp [step]
      · simp [step_code_slash line block]
    · simp only [step, if_neg slash]
      split <;> simp
  | lineComment role =>
    have plain : role ≠ .separator := fun same => other (by rw [same])
    simp only [step]
    split <;> simp [plain]
  | string | escape | commentOpening | blockComment | commentClosing =>
    simp only [step]
    repeat' split
    all_goals simp

theorem lineBlankAfter_visible {lineBlank : Bool} {c : Char} (inLine : c ≠ '\n')
    (begun : lineBlank = false ∨ isBlank c = false) : lineBlankAfter lineBlank c = false := by
  rcases begun with rfl | visible <;> simp [lineBlankAfter, *]

theorem lineBlankAfter_blank {c : Char} (blank : isBlank c) : lineBlankAfter true c = true := by
  simp [lineBlankAfter, blank]

/-- White space in front of code leaves the line blank. -/
theorem scanFrom_code_blank {c : Char} (blank : isBlank c) (u : Text) :
    scanFrom .code true (c :: u) = (c, .code) :: scanFrom .code true u := by
  have plain : ScanState.code.step true c u = (.code, .code) :=
    ScanState.step_code_plain (by rintro rfl; cases blank) (by rintro rfl; cases blank)
  rw [scanFrom_cons, plain, lineBlankAfter_blank blank]

theorem takeWhile_inLine {u : Text} (inLine : '\n' ∉ u) : u.takeWhile (· ≠ '\n') = u :=
  List.takeWhile_eq_self_iff.mpr fun _ member => decide_eq_true fun same => inLine (same ▸ member)

/-- On a line that has begun the scanner sees no separator any more. -/
theorem separator_not_mem_begun {state : ScanState} (other : state ≠ .lineComment .separator) {u : Text}
    (inLine : '\n' ∉ u) : Role.separator ∉ (scanFrom state false u).map Prod.snd := by
  induction u generalizing state with
  | nil => exact List.not_mem_nil
  | cons c u ih =>
    obtain ⟨visible, later⟩ := not_or.mp (mt List.mem_cons.mpr inLine)
    obtain ⟨role, next⟩ : (state.step false c u).1 ≠ .separator ∧ (state.step false c u).2 ≠ .lineComment .separator :=
      ScanState.step_apart other (by simp)
    rw [scanFrom_cons, lineBlankAfter_visible (Ne.symm visible) (Or.inl rfl), List.map_cons, List.mem_cons, not_or]
    exact ⟨role.symm, ih next later⟩

theorem separatorName_cons_blank {c : Char} (blank : isBlank c) (u : Text) :
    separatorName (c :: u) = separatorName u := by
  refine separatorName_congr ?_
  rw [trim, trimStart, List.dropWhile_cons_of_pos blank]
  rfl

theorem separatorName_slashes {c : Char} {u : Text} (visible : isBlank c = false)
    (announced : (separatorName (c :: u)).isSome) : c = '/' ∧ u.head? = some '/' := by
  obtain ⟨name, named⟩ := Option.isSome_iff_exists.mp announced
  obtain ⟨gap, inner, whole, -⟩ := separatorName_eq_some_iff.mp named
  obtain ⟨back, rest⟩ := dropEndWhile_isPrefix isBlank u
  rw [trim_cons visible] at whole
  obtain ⟨slash, later⟩ := List.cons_eq_cons.mp whole
  rw [trimEnd] at later
  rw [later] at rest
  exact ⟨slash, by rw [← rest]; rfl⟩

/-- At the start of a line that begins in code the scanner sees a separator exactly if the line by itself announces
a name. -/
theorem separator_mem_scanFrom_iff {u : Text} (inLine : '\n' ∉ u) :
    Role.separator ∈ (scanFrom .code true u).map Prod.snd ↔ (separatorName u).isSome := by
  induction u with
  | nil => exact iff_of_false List.not_mem_nil (by decide)
  | cons c u ih =>
    obtain ⟨newline, later⟩ := not_or.mp (mt List.mem_cons.mpr inLine)
    by_cases blank : isBlank c
    · rw [scanFrom_code_blank blank, List.map_cons, List.mem_cons, separatorName_cons_blank blank, ← ih later]
      exact or_iff_right Role.noConfusion
    have visible : isBlank c = false := Bool.eq_false_iff.mpr blank
    have begun : lineBlankAfter true c = false := lineBlankAfter_visible (Ne.symm newline) (Or.inr visible)
    rw [scanFrom_cons, begun, List.map_cons, List.mem_cons]
    by_cases slashes : c = '/' ∧ u.head? = some '/'
    · obtain ⟨rfl, head⟩ := slashes
      obtain ⟨more, rfl⟩ := List.head?_eq_some_iff.mp head
      have line : ('/' :: more).takeWhile (· ≠ '\n') = '/' :: more := takeWhile_inLine later
      have step : ScanState.code.step true '/' ('/' :: more) =
          (lineCommentRole true '/' ('/' :: more), .lineComment (lineCommentRole true '/' ('/' :: more))) := rfl
      rw [step, lineCommentRole, line, Bool.true_and]
      split
      · rename_i announced
        exact iff_of_true (Or.inl rfl) announced
      · rename_i silent
        have begun : Role.separator ∉ (scanFrom (.lineComment .comment) false ('/' :: more)).map Prod.snd :=
          separator_not_mem_begun (by decide) later
        exact iff_of_false (not_or.mpr ⟨Role.noConfusion, begun⟩) silent
    · have code : ScanState.code ≠ .lineComment .separator := ScanState.noConfusion
      obtain ⟨role, next⟩ := ScanState.step_apart code fun _ _ => slashes
      refine iff_of_false (not_or.mpr ⟨role.symm, separator_not_mem_begun next later⟩) fun announced => ?_
      exact slashes (separatorName_slashes visible announced)

theorem stripped_inLine (state : ScanState) (lineBlank : Bool) {u : Text} (inLine : '\n' ∉ u) :
    '\n' ∉ stripped (scanFrom state lineBlank u) := newline_not_mem_stripped (by rwa [written_scanFrom])

/-- A separator that the scanner sees stands alone on its line and loses nothing. -/
theorem stripped_separator {u : Text} (inLine : '\n' ∉ u) (announced : (separatorName u).isSome) :
    stripped (scanFrom .code true u) = u := by
  induction u with
  | nil => rfl
  | cons c u ih =>
    obtain ⟨newline, later⟩ := not_or.mp (mt List.mem_cons.mpr inLine)
    by_cases blank : isBlank c
    · rw [separatorName_cons_blank blank] at announced
      rw [scanFrom_code_blank blank, stripped_cons_kept (by decide), ih later announced]
    · have visible : isBlank c = false := Bool.eq_false_iff.mpr blank
      obtain ⟨rfl, head⟩ := separatorName_slashes visible announced
      obtain ⟨more, rfl⟩ := List.head?_eq_some_iff.mp head
      have line : ('/' :: more).takeWhile (· ≠ '\n') = '/' :: more := takeWhile_inLine later
      have step : ScanState.code.step true '/' ('/' :: more) = (.separator, .lineComment .separator) := by
        have role : lineCommentRole true '/' ('/' :: more) = .separator := by
          rw [lineCommentRole, line, announced]
          rfl
        simp only [ScanState.step, role]
        rfl
      rw [scanFrom_cons, step, stripped_cons_kept (by decide)]
      have announces : Role.separator ≠ .comment := Role.noConfusion
      have kept := takeWhile_stripped_lineComment announces (lineBlankAfter true '/') ('/' :: more)
      rw [takeWhile_inLine (stripped_inLine _ _ later), line] at kept
      rw [kept]

/-- In a line that begins in a block comment the scanner sees no separator. -/
theorem separator_not_mem_blockComment {u : Text} (inLine : '\n' ∉ u) :
    Role.separator ∉ (scanFrom .blockComment true u).map Prod.snd := by
  induction u with
  | nil => exact List.not_mem_nil
  | cons c u ih =>
    obtain ⟨newline, later⟩ := not_or.mp (mt List.mem_cons.mpr inLine)
    have comment : (ScanState.blockComment.step true c u).1 = .comment := rfl
    rw [scanFrom_cons, List.map_cons, List.mem_cons, comment, not_or]
    refine ⟨Role.noConfusion, ?_⟩
    by_cases blank : isBlank c
    · have inside : (ScanState.blockComment.step true c u).2 = .blockComment :=
        if_neg fun closing => by rw [closing.1] at blank; cases blank
      rw [inside, lineBlankAfter_blank blank]
      exact ih later
    · have begun : lineBlankAfter true c = false :=
        lineBlankAfter_visible (Ne.symm newline) (Or.inr (Bool.eq_false_iff.mpr blank))
      have next : (ScanState.blockComment.step true c u).2 ≠ .lineComment .separator :=
        (ScanState.step_apart ScanState.noConfusion ScanState.noConfusion).2
      rw [begun]
      exact separator_not_mem_begun next later

theorem separator_mem_settle_iff {items : List (Char × Role)} :
    Role.separator ∈ (items.flatMap settle).map Prod.snd ↔ Role.separator ∈ items.map Prod.snd := by
  have each (item : Char × Role) : Role.separator ∈ (settle item).map Prod.snd ↔ Role.separator = item.2 := by
    unfold settle
    split
    · rename_i comment
      rw [comment]
      split <;> simp
    · simp
  induction items with
  | nil => exact Iff.rfl
  | cons item items ih =>
    rw [List.flatMap_cons, List.map_append, List.mem_append, each, List.map_cons, List.mem_cons]
    exact or_congr_right ih

/-- A line is a separator of the stripped text exactly if it is one of the text and does not begin in a comment. -/
theorem separatorName_stripped_line {state : ScanState} (start : state = .code ∨ state = .blockComment) {u : Text}
    (inLine : '\n' ∉ u) :
    separatorName (stripped (scanFrom state true u)) = if state = .blockComment then none else separatorName u := by
  have oneLine := stripped_inLine state true inLine
  have settled : state.settled = .code := by rcases start with rfl | rfl <;> rfl
  have sees : (separatorName (stripped (scanFrom state true u))).isSome ↔
      Role.separator ∈ (scanFrom state true u).map Prod.snd := by
    rw [← separator_mem_scanFrom_iff oneLine, ← settled, scanFrom_stripped state id u, separator_mem_settle_iff]
  rcases start with rfl | rfl
  · rw [if_neg (by decide)]
    cases announced : separatorName u with
    | some name => rw [stripped_separator inLine (by rw [announced]; rfl), announced]
    | none =>
      rw [separator_mem_scanFrom_iff inLine, announced] at sees
      exact Option.not_isSome_iff_eq_none.mp (mt sees.mp (by decide))
  · rw [if_pos rfl]
    exact Option.not_isSome_iff_eq_none.mp (mt sees.mp (separator_not_mem_blockComment inLine))

/-- Whether a line of a text begins in a block comment. -/
def beginsInComment (t : Text) (i : Nat) : Bool := scanEnd .code true ((lines t).take i).flatten = .blockComment

theorem lines_row {r : Text} (inLine : '\n' ∉ r) (nonempty : r ≠ []) : lines r = [r] := by
  refine (lines_oneLine inLine).resolve_left fun none => nonempty ?_
  rw [← flatten_lines r, none, List.flatten_nil]

/-- The lines of a stripped text are as long as those of the text, and announce what these do unless they begin in a
comment. -/
theorem stripped_lines {state : ScanState} (start : state = .code ∨ state = .blockComment) (t : Text) :
    (lines (stripped (scanFrom state true t))).map byteSize = (lines t).map byteSize ∧
      ∀ i, (lines (stripped (scanFrom state true t)))[i]?.bind separatorName =
        if scanEnd state true ((lines t).take i).flatten = .blockComment then none
        else (lines t)[i]?.bind separatorName := by
  have size (state : ScanState) (r : Text) : byteSize (stripped (scanFrom state true r)) = byteSize r := by
    rw [byteSize_stripped, written_scanFrom]
  induction t using rows_induction generalizing state with
  | oneRow r inLine =>
    have line := separatorName_stripped_line start inLine
    have oneLine := stripped_inLine state true inLine
    by_cases empty : r = []
    · subst empty
      exact ⟨rfl, fun i => by simp [scanFrom, stripped, lines]⟩
    have some : stripped (scanFrom state true r) ≠ [] := by
      intro none
      exact empty (eq_nil_of_byteSize (by rw [← size state, none, byteSize_nil]))
    rw [lines_row inLine empty, lines_row oneLine some]
    refine ⟨congrArg (fun n => [n]) (size state r), ?_⟩
    rintro (_ | i)
    · exact line
    · simp
  | moreRows r t inLine ih =>
    have line := separatorName_stripped_line start inLine
    have oneLine := stripped_inLine state true inLine
    obtain ⟨sizes, names⟩ := ih (scanEnd_concat_newline state true r)
    obtain ⟨role, first⟩ := scanFrom_concat_newline state true r
    have split : stripped (scanFrom state true (r ++ '\n' :: t)) =
        stripped (scanFrom state true r) ++ '\n' :: stripped (scanFrom (scanEnd state true (r ++ ['\n'])) true t) := by
      rw [scanFrom_append_newline, first, stripped, List.flatMap_append, List.flatMap_append, List.flatMap_singleton,
        showOnly_newline, List.append_assoc]
      rfl
    have bare (u : Text) : separatorName (u ++ ['\n']) = separatorName u :=
      separatorName_congr (trim_append (List.forall_mem_nil _) u (by decide))
    rw [split, lines_append_newline oneLine, lines_append_newline inLine]
    constructor
    · rw [List.map_cons, List.map_cons, sizes, byteSize_append, byteSize_append, size]
    · rintro (_ | i)
      · rw [List.getElem?_cons_zero, List.getElem?_cons_zero, Option.bind_some, Option.bind_some, bare, bare]
        exact line
      · have later := scanEnd_append_newline state true r ((lines t).take i).flatten
        rw [List.take_succ_cons, List.flatten_cons, List.append_assoc, List.singleton_append, later]
        exact names i

/-- Stripping keeps every line in its place, and exactly the separators outside of block comments. A separator line
that begins in a block comment is blanked with it, so that only a reader of the raw text takes it for one. -/
theorem separatorName_strip_lines (t : Text) :
    (lines (strip t)).map byteSize = (lines t).map byteSize ∧
      ∀ i, (lines (strip t))[i]?.bind separatorName =
        if beginsInComment t i then none else (lines t)[i]?.bind separatorName := by
  obtain ⟨sizes, names⟩ := stripped_lines (Or.inl rfl) t
  refine ⟨sizes, fun i => ?_⟩
  simp only [beginsInComment, decide_eq_true_eq]
  exact names i

/-- A comment that holds a separator line is cut in two. -/
theorem splitFiles_in_comment :
    splitFiles (txt "model A \x7b\n\x7d\n/*\n// === a ===\n*/\nmodel B \x7b\n\x7d\n") =
        [⟨txt "schema.prisma", txt "model A \x7b\n\x7d\n/*\n"⟩, ⟨txt "a", txt "*/\nmodel B \x7b\n\x7d\n"⟩] ∧
      ¬ ∀ (t : Text) (i : Nat), (lines (strip t))[i]?.bind separatorName = (lines t)[i]?.bind separatorName := by
  refine ⟨by decide +kernel, fun same => ?_⟩
  have blanked := same (txt "/*\n// === a ===\n*/\n") 1
  exact absurd blanked (by decide +kernel)

end SchemaDiagram

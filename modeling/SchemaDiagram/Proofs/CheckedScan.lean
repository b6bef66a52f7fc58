import Mathlib.Data.List.Infix
import SchemaDiagram.Proofs.CheckedEdits
import SchemaDiagram.Proofs.CodeItems
import SchemaDiagram.Proofs.RowInsert

namespace SchemaDiagram

open Text

/-- The offset where a part of a text first begins. -/
def offsetOf? (part : Text) : Text → Option Nat
  | [] => if part.isEmpty then some 0 else none
  | c :: t => if part.isPrefixOf (c :: t) then some 0 else (offsetOf? part t).map (c.utf8Size + ·)

def keepOrBlank (keep : Bool) (part : Text) : Text :=
  if keep then part else part.flatMap fun c => if c = '\n' then [c] else List.replicate c.utf8Size ' '

/-- What a round of the scan shows, how many bytes it passes, and whether it ends in a string. -/
structure ScanRound where
  shown : Text
  size : Nat
  inString : Bool

/-- How many bytes are passed at once in a string. A backslash takes the character behind it along, but no newline. -/
def literalSize (t : Text) (i : Nat) (c : Char) : Option Nat :=
  if c = '\\' then do
    let after ← part? (i + 1) (byteSize t) t
    return 1 + ((after.head?.filter (· ≠ '\n')).map Char.utf8Size).getD 0
  else return c.utf8Size

/-- A round inside of a string. -/
def stringRound (keep : Role → Bool) (t : Text) (i : Nat) (c : Char) : Option ScanRound :=
  if c = '"' ∨ c = '\n' then some ⟨[c], c.utf8Size, false⟩
  else do
    let size ← literalSize t i c
    let part ← part? i (i + size) t
    return ⟨keepOrBlank (keep .literal) part, size, true⟩

/-- Whether all that stands in front of an offset on its line is blank. -/
def lineBlankAt (t : Text) (i : Nat) : Option Bool := do
  let before ← part? 0 i t
  let line ← part? (i - byteSize (lastLine before)) i t
  return (trim line).isEmpty

/-- A round over a line comment. -/
def lineCommentRound (keep : Role → Bool) (t : Text) (i : Nat) (rest : Text) : Option ScanRound := do
  let size := (offsetOf? (txt "\n") rest).getD (byteSize rest)
  let comment ← part? 0 size rest
  let role := if (← lineBlankAt t i) && (separatorName comment).isSome then .separator else .comment
  return ⟨keepOrBlank (keep role) comment, size, false⟩

/-- A round over a block comment. -/
def blockCommentRound (keep : Role → Bool) (rest : Text) : Option ScanRound := do
  let inner ← part? 2 (byteSize rest) rest
  let size := ((offsetOf? (txt "*/") inner).map (· + 4)).getD (byteSize rest)
  let comment ← part? 0 size rest
  return ⟨keepOrBlank (keep .comment) comment, size, false⟩

/-- A round outside of strings, where `c` and `later` are left of the text. -/
def codeRound (keep : Role → Bool) (t : Text) (i : Nat) (c : Char) (later : Text) : Option ScanRound :=
  if (txt "//").isPrefixOf (c :: later) then lineCommentRound keep t i (c :: later)
  else if (txt "/*").isPrefixOf (c :: later) then blockCommentRound keep (c :: later)
  else return ⟨[c], c.utf8Size, c = '"'⟩

def scanRound (keep : Role → Bool) (t : Text) (inString : Bool) (i : Nat) (c : Char) (later : Text) : Option ScanRound :=
  if inString then stringRound keep t i c else codeRound keep t i c later

/-- The scan of a text from an offset on, with every part cut out of the text where it begins and ends. It gives nothing
if it takes more than some rounds. -/
def checkedScan (keep : Role → Bool) (t : Text) (inString : Bool) (i : Nat) : Nat → Option Text
  | 0 => none
  | rounds + 1 => do
    match ← part? i (byteSize t) t with
    | [] => return []
    | c :: later =>
      let round ← scanRound keep t inString i c later
      return round.shown ++ (← checkedScan keep t round.inString (i + round.size) rounds)

theorem flatMap_showOnly_map (keep : Role → Bool) (role : Role) (part : Text) :
    (part.map (·, role)).flatMap (showOnly keep) = keepOrBlank (keep role) part := by
  rw [List.flatMap_map, keepOrBlank]
  cases kept : keep role with
  | true => simp [showOnly, kept]
  | false => simp [showOnly, kept]

/-- A text up to where a part of it first begins. -/
theorem offsetOf?_eq_some {part t : Text} {n : Nat} (nonempty : part ≠ []) (found : offsetOf? part t = some n) :
    ∃ front back, t = front ++ (part ++ back) ∧ byteSize front = n ∧ ¬ part <:+: front := by
  induction t generalizing n with
  | nil =>
    rw [offsetOf?, if_neg (by simpa using nonempty)] at found
    cases found
  | cons c t ih =>
    rw [offsetOf?] at found
    split at found
    · rename_i here
      obtain rfl := Option.some.inj found
      obtain ⟨back, whole⟩ := List.isPrefixOf_iff_prefix.mp here
      exact ⟨[], back, whole.symm, rfl, fun inside => nonempty (List.infix_nil.mp inside)⟩
    · rename_i notHere
      obtain ⟨m, later, rfl⟩ := Option.map_eq_some_iff.mp found
      obtain ⟨front, back, rfl, rfl, first⟩ := ih later
      refine ⟨c :: front, back, rfl, rfl, fun inside => ?_⟩
      rcases List.infix_cons_iff.mp inside with atStart | behind
      · exact notHere (List.isPrefixOf_iff_prefix.mpr (atStart.trans (List.prefix_append (c :: front) _)))
      · exact first behind

theorem offsetOf?_eq_none {part t : Text} (missing : offsetOf? part t = none) : ¬ part <:+: t := by
  induction t with
  | nil =>
    intro inside
    rw [List.infix_nil.mp inside] at missing
    cases missing
  | cons c t ih =>
    rw [offsetOf?] at missing
    split at missing
    · cases missing
    · rename_i notHere
      intro inside
      rcases List.infix_cons_iff.mp inside with atStart | behind
      · exact notHere (List.isPrefixOf_iff_prefix.mpr atStart)
      · exact ih (Option.map_eq_none_iff.mp missing) behind

theorem offsetOf?_newline (t : Text) :
    (offsetOf? (txt "\n") t).getD (byteSize t) = byteSize (t.takeWhile (· ≠ '\n')) := by
  induction t with
  | nil => rfl
  | cons c t ih =>
    have here : (txt "\n").isPrefixOf (c :: t) = true ↔ c = '\n' := by
      rw [List.isPrefixOf_iff_prefix]
      exact List.cons_prefix_cons.trans ((and_iff_left List.nil_prefix).trans eq_comm)
    by_cases newline : c = '\n'
    · rw [offsetOf?, if_pos (here.mpr newline), List.takeWhile_cons_of_neg (by simp [newline])]
      rfl
    · rw [offsetOf?, if_neg (mt here.mp newline), List.takeWhile_cons_of_pos (by simpa using newline), byteSize_cons,
        byteSize_cons, ← ih]
      cases offsetOf? (txt "\n") t <;> rfl

theorem blankAfter_eq_true_iff (front : Text) : blankAfter true front = true ↔ ∀ c ∈ lastLine front, isBlank c := by
  induction front using List.reverseRecOn with
  | nil => exact iff_of_true rfl (List.forall_mem_nil _)
  | append_singleton front c ih =>
    have last : blankAfter true (front ++ [c]) = lineBlankAfter (blankAfter true front) c := by
      rw [blankAfter, List.foldl_append]
      rfl
    rw [last, lineBlankAfter, Bool.or_eq_true, Bool.and_eq_true, ih, decide_eq_true_eq]
    by_cases newline : c = '\n'
    · subst newline
      rw [lastLine_append_newline]
      exact iff_of_true (Or.inl rfl) (List.forall_mem_nil _)
    · have inLine : '\n' ∉ [c] := fun member => newline (List.mem_singleton.mp member).symm
      rw [lastLine_append_row inLine, or_iff_right newline, List.forall_mem_append, List.forall_mem_singleton]

theorem lineBlankAt_eq (front rest : Text) :
    lineBlankAt (front ++ rest) (byteSize front) = some (blankAfter true front) := by
  obtain ⟨earlier, split⟩ := lastLine_isSuffix front
  have size : byteSize front - byteSize (lastLine front) = byteSize earlier := by
    have sizes := congrArg byteSize split
    rw [byteSize_append] at sizes
    omega
  have cutOut := part?_append earlier (lastLine front) rest
  rw [← byteSize_append, split] at cutOut
  have blank : (trim (lastLine front)).isEmpty = blankAfter true front := by
    rw [Bool.eq_iff_iff, List.isEmpty_iff, trim_eq_nil_iff, blankAfter_eq_true_iff]
  simp only [lineBlankAt, part?_front, size, cutOut, Option.bind_eq_bind, Option.bind_some, blank]
  rfl

/-- A line comment takes in the rest of its line. -/
theorem scanFrom_lineComment_append (role : Role) (lineBlank : Bool) {u v : Text} (inLine : '\n' ∉ u)
    (ends : v = [] ∨ ∃ w, v = '\n' :: w) :
    scanFrom (.lineComment role) lineBlank (u ++ v) = u.map (·, role) ++ scanFrom .code (blankAfter lineBlank u) v := by
  induction u generalizing lineBlank with
  | nil => rcases ends with rfl | ⟨w, rfl⟩ <;> rfl
  | cons c u ih =>
    obtain ⟨other, inLater⟩ := List.ne_and_not_mem_of_not_mem_cons inLine
    rw [List.cons_append, scanFrom_cons, ScanState.step_lineComment other.symm, ih _ inLater]
    rfl

/-- A block comment ends with the first sign that closes it, or else takes in all there is. -/
theorem scanFrom_blockComment_cases (lineBlank : Bool) (u : Text) :
    ∃ inner more, u = inner ++ more ∧
      ((offsetOf? (txt "*/") u).map (· + 4)).getD (2 + byteSize u) = 2 + byteSize inner ∧
      scanFrom .blockComment lineBlank u =
        inner.map (·, .comment) ++ scanFrom .code (blankAfter lineBlank inner) more := by
  cases found : offsetOf? (txt "*/") u with
  | none =>
    refine ⟨u, [], (List.append_nil u).symm, rfl, ?_⟩
    have all := scanFrom_blockComment (v := []) (offsetOf?_eq_none found) nofun lineBlank
    rwa [List.append_nil] at all
  | some n =>
    obtain ⟨front, back, rfl, rfl, first⟩ := offsetOf?_eq_some (show txt "*/" ≠ [] by decide) found
    refine ⟨front ++ txt "*/", back, (List.append_assoc _ _ _).symm, ?_, ?_⟩
    · rw [Option.map_some, Option.getD_some, byteSize_append, show byteSize (txt "*/") = 2 from rfl]
      omega
    · have apart : (txt "*/" ++ back).head? ≠ some '/' := fun slash => absurd (Option.some.inj slash) (by decide)
      rw [scanFrom_blockComment first apart, List.map_append, List.append_assoc, blankAfter,
        blankAfter, List.foldl_append]
      rfl

/-- The scanner between two rounds. -/
def roundState (inString : Bool) : ScanState := if inString then .string else .code

/-- A round passes some characters and shows them as the scanner does. -/
def ScanRound.Fits (round : ScanRound) (keep : Role → Bool) (state : ScanState) (lineBlank : Bool) (rest : Text) : Prop :=
  ∃ part more, rest = part ++ more ∧ part ≠ [] ∧ round.size = byteSize part ∧
    (scanFrom state lineBlank rest).flatMap (showOnly keep) = round.shown ++
      (scanFrom (roundState round.inString) (blankAfter lineBlank part) more).flatMap (showOnly keep)

theorem lineCommentRound_fits (keep : Role → Bool) (front u : Text) :
    ∃ round, lineCommentRound keep (front ++ '/' :: '/' :: u) (byteSize front) ('/' :: '/' :: u) = some round ∧
      round.Fits keep .code (blankAfter true front) ('/' :: '/' :: u) := by
  obtain ⟨line, atLine⟩ : ∃ line, line = u.takeWhile (· ≠ '\n') := ⟨_, rfl⟩
  have comment : ('/' :: '/' :: u).takeWhile (· ≠ '\n') = '/' :: '/' :: line := by
    rw [List.takeWhile_cons_of_pos (by decide), List.takeWhile_cons_of_pos (by decide), atLine]
  obtain ⟨more, atMore⟩ : ∃ more, more = u.dropWhile (· ≠ '\n') := ⟨_, rfl⟩
  have whole : u = line ++ more := by rw [atLine, atMore, List.takeWhile_append_dropWhile]
  have inLine : '\n' ∉ '/' :: line := by
    rw [List.mem_cons, atLine]
    rintro (same | member)
    · cases same
    · have other := List.mem_takeWhile_imp member
      exact of_decide_eq_true other rfl
  have ends : more = [] ∨ ∃ w, more = '\n' :: w := by
    rcases split : more with _ | ⟨c, w⟩
    · exact Or.inl rfl
    · have stops := stops_dropWhile (fun c => decide (c ≠ '\n')) u c (by rw [← atMore, split]; rfl)
      exact Or.inr ⟨w, by rw [of_not_not (of_decide_eq_false stops)]⟩
  have size := offsetOf?_newline ('/' :: '/' :: u)
  rw [comment] at size
  have cutOut := part?_front ('/' :: '/' :: line) more
  rw [List.cons_append, List.cons_append, ← whole] at cutOut
  have role : lineCommentRole (blankAfter true front) '/' ('/' :: u) =
      if blankAfter true front && (separatorName ('/' :: '/' :: line)).isSome then .separator else .comment := by
    rw [lineCommentRole, List.takeWhile_cons_of_pos (by decide), ← atLine]
  refine ⟨⟨keepOrBlank (keep (lineCommentRole (blankAfter true front) '/' ('/' :: u))) ('/' :: '/' :: line),
    byteSize ('/' :: '/' :: line), false⟩, ?_, '/' :: '/' :: line, more, by rw [whole]; rfl, List.cons_ne_nil _ _, rfl,
    ?_⟩
  · simp only [lineCommentRound, size, cutOut, lineBlankAt_eq, Option.bind_eq_bind, Option.bind_some, role]
    rfl
  · have behind := scanFrom_lineComment_append (lineCommentRole (blankAfter true front) '/' ('/' :: u))
      (lineBlankAfter (blankAfter true front) '/') inLine ends
    have items : scanFrom .code (blankAfter true front) ('/' :: '/' :: u) =
        ('/' :: '/' :: line).map (·, lineCommentRole (blankAfter true front) '/' ('/' :: u)) ++
          scanFrom .code (blankAfter (blankAfter true front) ('/' :: '/' :: line)) more := by
      rw [List.cons_append, ← whole] at behind
      exact congrArg (List.cons _) behind
    rw [items, List.flatMap_append, flatMap_showOnly_map]
    rfl

theorem blockCommentRound_fits (keep : Role → Bool) (lineBlank : Bool) (u : Text) :
    ∃ round, blockCommentRound keep ('/' :: '*' :: u) = some round ∧
      round.Fits keep .code lineBlank ('/' :: '*' :: u) := by
  obtain ⟨inner, more, rfl, size, items⟩ := scanFrom_blockComment_cases (blankAfter lineBlank ['/', '*']) u
  have total (v : Text) : byteSize ('/' :: '*' :: v) = 2 + byteSize v := by
    rw [byteSize_cons, byteSize_cons, show '/'.utf8Size = 1 from rfl, show '*'.utf8Size = 1 from rfl, ← Nat.add_assoc]
  have behind : part? 2 (2 + byteSize (inner ++ more)) ('/' :: '*' :: (inner ++ more)) = some (inner ++ more) := by
    rw [← total]
    exact part?_back ['/', '*'] (inner ++ more)
  have cutOut : part? 0 (2 + byteSize inner) ('/' :: '*' :: (inner ++ more)) = some ('/' :: '*' :: inner) := by
    rw [← total]
    exact part?_front ('/' :: '*' :: inner) more
  refine ⟨⟨keepOrBlank (keep .comment) ('/' :: '*' :: inner), byteSize ('/' :: '*' :: inner), false⟩, ?_,
    '/' :: '*' :: inner, more, rfl, List.cons_ne_nil _ _, rfl, ?_⟩
  · simp only [blockCommentRound, total, behind, size, cutOut, Option.bind_eq_bind, Option.bind_some]
    rfl
  · have opened : scanFrom .code lineBlank ('/' :: '*' :: (inner ++ more)) =
        ('/' :: '*' :: inner).map (·, .comment) ++
          scanFrom .code (blankAfter lineBlank ('/' :: '*' :: inner)) more :=
      congrArg (fun later => ('/', Role.comment) :: ('*', .comment) :: later) items
    rw [opened, List.flatMap_append, flatMap_showOnly_map]
    rfl

section

variable {keep : Role → Bool} (keepsCode : keep .code = true)

include keepsCode

theorem stringRound_fits (lineBlank : Bool) (front : Text) (c : Char) (later : Text) :
    ∃ round, stringRound keep (front ++ c :: later) (byteSize front) c = some round ∧
      round.Fits keep .string lineBlank (c :: later) := by
  by_cases ends : c = '"' ∨ c = '\n'
  · refine ⟨_, if_pos ends, [c], later, rfl, List.cons_ne_nil _ _, (Nat.add_zero _).symm, ?_⟩
    rw [scanFrom_cons, ScanState.step, if_pos ends, List.flatMap_cons, showOnly_kept keepsCode]
    rfl
  obtain ⟨noQuote, inLine⟩ := not_or.mp ends
  -- what is passed is a part of the literal
  have passes (part more : Text) (whole : c :: later = part ++ more) (nonempty : part ≠ [])
      (size : literalSize (front ++ c :: later) (byteSize front) c = some (byteSize part))
      (items : scanFrom .string lineBlank (c :: later) =
        part.map (·, .literal) ++ scanFrom .string (blankAfter lineBlank part) more) :
      ∃ round, stringRound keep (front ++ c :: later) (byteSize front) c = some round ∧
        round.Fits keep .string lineBlank (c :: later) := by
    have cutOut := part?_append front part more
    rw [List.append_assoc, ← whole] at cutOut
    refine ⟨⟨keepOrBlank (keep .literal) part, byteSize part, true⟩, ?_, part, more, whole, nonempty, rfl, ?_⟩
    · simp only [stringRound, if_neg ends, size, Option.bind_eq_bind, Option.bind_some, cutOut]
      rfl
    · rw [items, List.flatMap_append, flatMap_showOnly_map]
      rfl
  by_cases slash : c = '\\'
  · subst slash
    have behind : part? (byteSize front + 1) (byteSize (front ++ '\\' :: later)) (front ++ '\\' :: later) =
        some later := by
      have cutOut := part?_back (front ++ ['\\']) later
      rwa [byteSize_append, List.append_assoc] at cutOut
    have size : literalSize (front ++ '\\' :: later) (byteSize front) '\\' =
        some (1 + ((later.head?.filter (· ≠ '\n')).map Char.utf8Size).getD 0) := by
      rw [literalSize, if_pos rfl, behind]
      rfl
    rcases later with _ | ⟨d, more⟩
    · exact passes ['\\'] [] rfl (List.cons_ne_nil _ _) size rfl
    by_cases newline : d = '\n'
    · subst newline
      exact passes ['\\'] ('\n' :: more) rfl (List.cons_ne_nil _ _) size rfl
    · refine passes ['\\', d] more rfl (List.cons_ne_nil _ _) ?_ ?_
      · rw [size, List.head?_cons, Option.filter_some, if_pos (decide_eq_true newline)]
        rfl
      · rw [scanFrom_cons, ScanState.step, if_neg ends, if_pos rfl, scanFrom_cons, ScanState.step, if_neg newline]
        rfl
  · refine passes [c] later rfl (List.cons_ne_nil _ _) ?_ ?_
    · rw [literalSize, if_neg slash]
      rfl
    · rw [scanFrom_cons, ScanState.step, if_neg ends, if_neg slash]
      rfl

theorem codeRound_fits (front : Text) (c : Char) (later : Text) :
    ∃ round, codeRound keep (front ++ c :: later) (byteSize front) c later = some round ∧
      round.Fits keep .code (blankAfter true front) (c :: later) := by
  rw [codeRound]
  split
  · rename_i opens
    obtain ⟨rfl, second⟩ := (isPrefixOf_pair '/' '/' c later).mp opens
    obtain ⟨u, rfl⟩ := List.head?_eq_some_iff.mp second
    exact lineCommentRound_fits keep front u
  split
  · rename_i opens
    obtain ⟨rfl, second⟩ := (isPrefixOf_pair '/' '*' c later).mp opens
    obtain ⟨u, rfl⟩ := List.head?_eq_some_iff.mp second
    exact blockCommentRound_fits keep _ u
  · rename_i noLine noBlock
    refine ⟨_, rfl, [c], later, rfl, List.cons_ne_nil _ _, (Nat.add_zero _).symm, ?_⟩
    have step : ScanState.code.step (blankAfter true front) c later = (.code, roundState (c = '"')) := by
      by_cases quote : c = '"'
      · subst quote
        rfl
      have code : roundState (decide (c = '"')) = .code := by rw [decide_eq_false quote]; rfl
      rw [code]
      by_cases slash : c = '/'
      · subst slash
        exact ScanState.step_code_slash (fun second => noLine ((isPrefixOf_pair '/' '/' '/' later).mpr ⟨rfl, second⟩))
          (fun second => noBlock ((isPrefixOf_pair '/' '*' '/' later).mpr ⟨rfl, second⟩))
      · exact ScanState.step_code_plain quote slash
    rw [scanFrom_cons, step, List.flatMap_cons, showOnly_kept keepsCode]
    rfl

end

/-- The scan makes no more rounds than there are bytes left. -/
theorem checkedScan_eq (keep : Role → Bool) (keepsCode : keep .code = true) (inString : Bool) (front rest : Text)
    {rounds : Nat} (enough : byteSize rest < rounds) :
    checkedScan keep (front ++ rest) inString (byteSize front) rounds =
      some ((scanFrom (roundState inString) (blankAfter true front) rest).flatMap (showOnly keep)) := by
  induction rounds generalizing inString front rest with
  | zero => omega
  | succ rounds ih =>
    rw [checkedScan, part?_back]
    cases rest with
    | nil => rfl
    | cons c later =>
      have fits : ∃ round, scanRound keep (front ++ c :: later) inString (byteSize front) c later = some round ∧
          round.Fits keep (roundState inString) (blankAfter true front) (c :: later) := by
        cases inString with
        | true => exact stringRound_fits keepsCode _ front c later
        | false => exact codeRound_fits keepsCode front c later
      obtain ⟨round, made, part, more, whole, nonempty, size, shown⟩ := fits
      have positive : 0 < byteSize part := by
        obtain ⟨d, part, rfl⟩ := List.exists_cons_of_ne_nil nonempty
        exact Nat.lt_of_lt_of_le d.utf8Size_pos (Nat.le_add_right _ _)
      have smaller : byteSize more < rounds := by
        rw [whole, byteSize_append] at enough
        omega
      have next := ih round.inString (front ++ part) more smaller
      rw [List.append_assoc, ← whole, byteSize_append, ← size, blankAfter, List.foldl_append] at next
      simp only [Option.bind_eq_bind, Option.bind_some, made, next, shown]
      rfl

end SchemaDiagram

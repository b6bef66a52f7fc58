import SchemaDiagram.Proofs.ScanBlanks
import SchemaDiagram.Proofs.ScanStrip
import SchemaDiagram.Proofs.QuotedScan

namespace SchemaDiagram

open Text

/-- The text that was scanned. -/
def written (items : List (Char × Role)) : Text := items.map Prod.fst

/-- A scanned text of which only the code is left. -/
def masked (items : List (Char × Role)) : Text := items.flatMap (showOnly (· = .code))

@[simp] theorem written_nil : written [] = [] := rfl

@[simp] theorem written_cons (item : Char × Role) (items : List (Char × Role)) :
    written (item :: items) = item.1 :: written items := rfl

@[simp] theorem written_append (a b : List (Char × Role)) : written (a ++ b) = written a ++ written b :=
  List.map_append

theorem masked_append (a b : List (Char × Role)) : masked (a ++ b) = masked a ++ masked b := List.flatMap_append

theorem stripped_append (a b : List (Char × Role)) : stripped (a ++ b) = stripped a ++ stripped b :=
  List.flatMap_append

theorem written_scanFrom (state : ScanState) (lineBlank : Bool) (t : Text) :
    written (scanFrom state lineBlank t) = t := scanFrom_map_fst state lineBlank t

theorem byteSize_masked (items : List (Char × Role)) : byteSize (masked items) = byteSize (written items) :=
  byteSize_showOnly _ items

theorem byteSize_stripped (items : List (Char × Role)) : byteSize (stripped items) = byteSize (written items) :=
  byteSize_showOnly _ items

/-- Where the scanner can be in front of a text: between the two characters of a sign only if the second one is there. -/
def ScanState.Fits : ScanState → Text → Prop
  | .lineComment role, _ => role ≠ .code
  | .commentOpening, t => t.head? = some '*'
  | .commentClosing, t => t.head? = some '/'
  | _, _ => True

theorem ScanState.fits_code (t : Text) : code.Fits t := trivial

theorem ScanState.Fits.step {state : ScanState} {c : Char} {t : Text} (fits : state.Fits (c :: t)) (lineBlank : Bool) :
    (state.step lineBlank c t).2.Fits t := by
  cases state with
  | code =>
    simp only [ScanState.step]
    split
    · trivial
    split
    · split
      · simp only [ScanState.Fits, lineCommentRole]
        split <;> decide
      · rfl
      · trivial
    · trivial
  | string =>
    simp only [ScanState.step]
    split
    · trivial
    · split <;> trivial
  | escape =>
    simp only [ScanState.step]
    split <;> trivial
  | lineComment role =>
    simp only [ScanState.step]
    split
    · trivial
    · exact fits
  | commentOpening | commentClosing => trivial
  | blockComment =>
    simp only [ScanState.step]
    split
    · rename_i closes
      exact closes.2
    · trivial

/-- Whether the line is blank so far behind a text. -/
def blankAfter (lineBlank : Bool) (t : Text) : Bool := t.foldl lineBlankAfter lineBlank

theorem blankAfter_concat_visible (lineBlank : Bool) (u : Text) {c : Char} (visible : isBlank c = false) :
    blankAfter lineBlank (u ++ [c]) = false := by
  have inLine : c ≠ '\n' := by
    rintro rfl
    cases visible
  simp [blankAfter, lineBlankAfter, visible, inLine]

/-- Two texts whose first lines are the same up to the white space at their ends, whatever stands in front of them. -/
def EndsAlike (v v' : Text) : Prop :=
  ∀ u, trim (u ++ v.takeWhile (· ≠ '\n')) = trim (u ++ v'.takeWhile (· ≠ '\n'))

theorem endsAlike_of_eq {v v' : Text} (same : v.takeWhile (· ≠ '\n') = v'.takeWhile (· ≠ '\n')) : EndsAlike v v' := by
  intro u
  rw [same]

theorem endsAlike_of_blank {v v' : Text} (blank : ∀ c ∈ v.takeWhile (· ≠ '\n'), isBlank c)
    (blank' : ∀ c ∈ v'.takeWhile (· ≠ '\n'), isBlank c) : EndsAlike v v' := by
  intro u
  have dropped {w : Text} (white : ∀ c ∈ w, isBlank c) : trim (u ++ w) = trim u :=
    trim_append (List.forall_mem_nil _) u white
  rw [dropped blank, dropped blank']

/-- In front of one text or another the scanner takes the same step, unless the step opens a line comment whose line the
two texts end in different ways. -/
theorem ScanState.step_append_congr {state : ScanState} {lineBlank : Bool} {c : Char} {u v v' : Text} (apart : IsApart v)
    (apart' : IsApart v')
    (line : ∀ role, (state.step lineBlank c (u ++ v)).2 = .lineComment role → '\n' ∉ u → EndsAlike v v') :
    state.step lineBlank c (u ++ v) = state.step lineBlank c (u ++ v') := by
  have sameSign {d : Char} (sign : d = '/' ∨ d = '*') : (u ++ v).head? = some d ↔ (u ++ v').head? = some d := by
    cases u with
    | nil =>
      have noSign {w : Text} (isApart : IsApart w) : w.head? ≠ some d := by
        rcases sign with rfl | rfl
        · exact isApart.1
        · exact isApart.2
      exact iff_of_false (noSign apart) (noSign apart')
    | cons e u => exact Iff.rfl
  have slash := sameSign (Or.inl rfl)
  have star := sameSign (Or.inr rfl)
  cases state with
  | code =>
    by_cases quote : c = '"'
    · simp [step, quote]
    by_cases plain : c ≠ '/'
    · rw [step_code_plain quote plain, step_code_plain quote plain]
    obtain rfl : c = '/' := Decidable.not_not.mp plain
    by_cases opens : (u ++ v).head? = some '/'
    · have named : separatorName ('/' :: (u ++ v).takeWhile (· ≠ '\n')) =
          separatorName ('/' :: (u ++ v').takeWhile (· ≠ '\n')) := by
        by_cases newline : '\n' ∈ u
        · obtain ⟨front, back, rfl, inLine⟩ := List.eq_append_cons_of_mem newline
          simp [List.takeWhile_append]
        · obtain ⟨more, atMore⟩ := List.head?_eq_some_iff.mp opens
          have lines := line (lineCommentRole lineBlank '/' (u ++ v)) (by rw [atMore]; rfl) newline
          have all : ∀ d ∈ u, (decide (d ≠ '\n')) = true := by
            simpa using fun d member (same : d = '\n') => newline (same ▸ member)
          rw [List.takeWhile_append_of_pos all, List.takeWhile_append_of_pos all]
          exact separatorName_congr (lines ('/' :: u))
      exact step_congr_role (by rw [opens, slash.mp opens]) (by rw [lineCommentRole, lineCommentRole, named])
    by_cases blocks : (u ++ v).head? = some '*'
    · obtain ⟨more, atMore⟩ := List.head?_eq_some_iff.mp blocks
      obtain ⟨more', atMore'⟩ := List.head?_eq_some_iff.mp (star.mp blocks)
      rw [atMore, atMore']
      rfl
    · rw [step_code_slash opens blocks, step_code_slash (mt slash.mpr opens) (mt star.mpr blocks)]
  | blockComment => simp only [step, slash]
  | string | escape | lineComment | commentOpening | commentClosing => rfl

/-- A scan that is cut between two characters. The scanner goes on from some state, and what is in front of the cut is
scanned in the same way whatever stands behind, as long as no sign arises at the cut and no line comment is cut. -/
theorem scanFrom_cut {state : ScanState} {lineBlank : Bool} {t : Text} {earlier later : List (Char × Role)}
    (fits : state.Fits t) (items : scanFrom state lineBlank t = earlier ++ later) :
    ∃ here : ScanState, here.Fits (written later) ∧
      later = scanFrom here (blankAfter lineBlank (written earlier)) (written later) ∧
      (∀ role, state = .lineComment role → '\n' ∉ written earlier → here = .lineComment role) ∧
      ∀ v, IsApart (written later) → IsApart v →
        (∀ role, here = .lineComment role → EndsAlike (written later) v) →
        scanFrom state lineBlank (written earlier ++ v) =
          earlier ++ scanFrom here (blankAfter lineBlank (written earlier)) v := by
  induction earlier generalizing state lineBlank t with
  | nil =>
    obtain rfl : later = scanFrom state lineBlank t := items.symm
    rw [written_scanFrom]
    exact ⟨state, fits, rfl, fun role comment _ => comment, fun v _ _ _ => rfl⟩
  | cons item earlier ih =>
    rcases t with _ | ⟨c, t⟩
    · cases items
    rw [scanFrom_cons, List.cons_append] at items
    obtain ⟨rfl, rest⟩ := List.cons_eq_cons.mp items
    have whole : t = written earlier ++ written later := by
      rw [← written_append, ← rest, written_scanFrom]
    obtain ⟨here, fitsHere, atLater, comment, recut⟩ := ih (fits.step lineBlank) rest
    refine ⟨here, fitsHere, atLater, ?_, ?_⟩
    · rintro role rfl inLine
      obtain ⟨other, oneLine⟩ := List.ne_and_not_mem_of_not_mem_cons inLine
      exact comment role (by rw [ScanState.step_lineComment other.symm]) oneLine
    · intro v apart apart' line
      have step : state.step lineBlank c (written earlier ++ written later) =
          state.step lineBlank c (written earlier ++ v) := by
        refine ScanState.step_append_congr apart apart' fun role opened oneLine => line role ?_
        exact comment role (by rw [whole, opened]) oneLine
      rw [written_cons, List.cons_append, scanFrom_cons, ← step, ← whole, recut v apart apart' line]
      rfl

/-- Where the scanner is at the start of a line, from the role of the newline in front of it. -/
def lineStartState (role : Role) : ScanState := if role = .comment then .blockComment else .code

theorem fits_lineStartState (role : Role) (t : Text) : (lineStartState role).Fits t := by
  rw [lineStartState]
  split <;> trivial

theorem settled_lineStartState (role : Role) : (lineStartState role).settled = .code := by
  rw [lineStartState]
  split <;> rfl

/-- A scan that is cut behind a newline. -/
theorem scanFrom_cut_newline {state : ScanState} {lineBlank : Bool} {t : Text} {earlier later : List (Char × Role)}
    {role : Role} (fits : state.Fits t) (items : scanFrom state lineBlank t = earlier ++ ('\n', role) :: later) :
    later = scanFrom (lineStartState role) true (written later) ∧
      ∀ rest, scanFrom state lineBlank (written earlier ++ '\n' :: rest) =
        earlier ++ ('\n', role) :: scanFrom (lineStartState role) true rest := by
  obtain ⟨here, fitsHere, atLater, -, recut⟩ := scanFrom_cut fits items
  have newline (rest : Text) : IsApart ('\n' :: rest) := isApart_cons (by decide) (by decide) rest
  have step (rest : Text) : here.step (blankAfter lineBlank (written earlier)) '\n' rest = (role, lineStartState role) := by
    rw [written_cons, scanFrom_cons] at atLater
    have same := (Prod.mk.inj (List.cons_eq_cons.mp atLater).1).2
    cases here with
    | code | string | escape | lineComment =>
      obtain rfl : role = .code := same
      rfl
    | blockComment =>
      obtain rfl : role = .comment := same
      rfl
    | commentOpening | commentClosing => cases fitsHere
  have after (rest : Text) : scanFrom here (blankAfter lineBlank (written earlier)) ('\n' :: rest) =
      ('\n', role) :: scanFrom (lineStartState role) true rest := by
    rw [scanFrom_cons, step]
    rfl
  constructor
  · rw [written_cons, after] at atLater
    exact (List.cons_eq_cons.mp atLater).2
  · intro rest
    rw [recut _ (newline _) (newline rest) fun _ _ => endsAlike_of_eq (by simp), after]

/-- Only a quote, a newline and the end of a comment lead back into code. -/
theorem ScanState.Fits.eq_code_of_step {state : ScanState} {lineBlank : Bool} {c : Char} {t : Text}
    (fits : state.Fits (c :: t)) (next : (state.step lineBlank c t).2 = .code) (noQuote : c ≠ '"') (inLine : c ≠ '\n')
    (noSlash : c ≠ '/') : state = .code := by
  cases state with
  | code => rfl
  | string =>
    simp only [ScanState.step, noQuote, inLine, or_self, if_false] at next
    split at next <;> cases next
  | escape =>
    simp only [ScanState.step, inLine, if_false] at next
    cases next
  | lineComment role =>
    rw [step_lineComment inLine] at next
    cases next
  | commentOpening => cases next
  | blockComment =>
    simp only [ScanState.step] at next
    split at next <;> cases next
  | commentClosing => exact absurd (Option.some.inj fits) noSlash

/-- Code is read in code, all but the quote and the newline that end a string or a comment. -/
theorem ScanState.Fits.eq_code_of_role {state : ScanState} {lineBlank : Bool} {c : Char} {t : Text}
    (fits : state.Fits (c :: t)) (role : (state.step lineBlank c t).1 = .code) (noQuote : c ≠ '"') (inLine : c ≠ '\n') :
    state = .code := by
  cases state with
  | code => rfl
  | string =>
    simp only [ScanState.step, noQuote, inLine, or_self, if_false] at role
    cases role
  | escape =>
    simp only [ScanState.step, inLine, if_false] at role
    cases role
  | lineComment named =>
    rw [step_lineComment inLine] at role
    exact absurd role fits
  | commentOpening | blockComment | commentClosing => cases role

/-- In front of code on the same line, with nothing but white space in between, the scanner is in code. -/
theorem ScanState.Fits.eq_code {here : ScanState} {lineBlank : Bool} {gap later : List (Char × Role)} {c : Char}
    (fits : here.Fits (written (gap ++ (c, .code) :: later)))
    (items : gap ++ (c, Role.code) :: later = scanFrom here lineBlank (written (gap ++ (c, .code) :: later)))
    (blanks : ∀ d ∈ written gap, isBlank d ∧ d ≠ '\n') (noQuote : c ≠ '"') (inLine : c ≠ '\n') : here = .code := by
  induction gap generalizing here lineBlank with
  | nil =>
    have role := (Prod.mk.inj (List.cons_eq_cons.mp items).1).2
    exact fits.eq_code_of_role role.symm noQuote inLine
  | cons item gap ih =>
    obtain ⟨⟨blank, other⟩, later⟩ := List.forall_mem_cons.mp blanks
    have next := ih (fits.step lineBlank) (List.cons_eq_cons.mp items).2 later
    have plain : item.1 ≠ '"' ∧ item.1 ≠ '/' := by
      constructor <;> intro same <;> rw [same] at blank <;> cases blank
    exact fits.eq_code_of_step next plain.1 other plain.2

end SchemaDiagram

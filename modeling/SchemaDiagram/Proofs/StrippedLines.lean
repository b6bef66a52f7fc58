import SchemaDiagram.Proofs.QuotedScan
import SchemaDiagram.Proofs.ScanOffsets
import SchemaDiagram.Proofs.ScanStrip
import SchemaDiagram.Proofs.Spans

namespace SchemaDiagram

open Text

/-- From here on the scanner finds no comment. -/
def Uncommented (state : ScanState) (lineBlank : Bool) (t : Text) : Prop :=
  ∀ item ∈ scanFrom state lineBlank t, item.2 ≠ .comment

/-- A line comment is never code. -/
def ScanState.IsProper : ScanState → Prop
  | .lineComment role => role ≠ .code
  | _ => True

theorem uncommented_strip (t : Text) : Uncommented .code true (strip t) := by
  intro item member
  rw [show scanFrom .code true (strip t) = scan (strip t) from rfl, scan_strip, List.mem_flatMap] at member
  obtain ⟨original, -, settled⟩ := member
  unfold settle at settled
  split at settled
  · split at settled
    · rw [List.mem_singleton.mp settled]
      decide
    · rw [List.eq_of_mem_replicate settled]
      decide
  · rename_i kept
    rwa [List.mem_singleton.mp settled]

theorem ScanState.IsProper.step {state : ScanState} (proper : state.IsProper) (lineBlank : Bool) (c : Char)
    (t : Text) : (state.step lineBlank c t).2.IsProper := by
  cases state with
  | code =>
    simp only [ScanState.step]
    split
    · trivial
    split
    · split
      · simp only [ScanState.IsProper, lineCommentRole]
        split <;> decide
      · trivial
      · trivial
    · trivial
  | string =>
    simp only [ScanState.step]
    split
    · trivial
    · split <;> trivial
  | escape =>
    simp only [ScanState.step]
    split <;> trivial
  | lineComment role =>
    simp only [ScanState.step]
    split
    · trivial
    · exact proper
  | commentOpening | commentClosing => trivial
  | blockComment =>
    simp only [ScanState.step]
    split <;> trivial

/-- Every scanned character was scanned in some state. -/
theorem scanFrom_eq_append {state : ScanState} {lineBlank : Bool} {t : Text}
    {earlier later : List (Char × Role)} {c : Char} {role : Role} (proper : state.IsProper)
    (items : scanFrom state lineBlank t = earlier ++ (c, role) :: later) :
    ∃ (here : ScanState) (blank : Bool) (rest : Text),
      t = earlier.map Prod.fst ++ c :: rest ∧ here.IsProper ∧ (here.step blank c rest).1 = role ∧
      later = scanFrom (here.step blank c rest).2 (lineBlankAfter blank c) rest := by
  induction earlier generalizing state lineBlank t with
  | nil =>
    rcases t with _ | ⟨d, t⟩
    · cases items
    · rw [scanFrom_cons] at items
      cases items
      exact ⟨state, lineBlank, t, rfl, proper, rfl, rfl⟩
  | cons item earlier ih =>
    rcases t with _ | ⟨d, t⟩
    · cases items
    · rw [scanFrom_cons, List.cons_append] at items
      obtain ⟨first, items⟩ := List.cons_eq_cons.mp items
      obtain ⟨here, blank, rest, rfl, properHere, step, atLater⟩ := ih (proper.step _ _ _) items
      exact ⟨here, blank, rest, by rw [← first]; rfl, properHere, step, atLater⟩

section

variable {state : ScanState} {lineBlank : Bool} {c : Char} {t u : Text}

theorem uncommented_cons_iff : Uncommented state lineBlank (c :: t) ↔
    (state.step lineBlank c t).1 ≠ .comment ∧
      Uncommented (state.step lineBlank c t).2 (lineBlankAfter lineBlank c) t := by
  simp only [Uncommented, scanFrom_cons, List.forall_mem_cons]

/-- Without comments every line is entered in code. -/
theorem Uncommented.nextLine (free : Uncommented state lineBlank (u ++ '\n' :: t)) :
    Uncommented .code true t := by
  induction u generalizing state lineBlank with
  | nil =>
    obtain ⟨here, later⟩ := uncommented_cons_iff.mp free
    have next : (state.step lineBlank '\n' t).2 = .code := by
      cases state <;> first | rfl | exact absurd rfl here
    rw [next] at later
    exact later
  | cons d u ih => exact ih (uncommented_cons_iff.mp free).2

theorem Uncommented.dropBlanks (blanks : ∀ c ∈ u, isBlank c) (free : Uncommented .code lineBlank (u ++ t)) :
    ∃ lineBlank', Uncommented .code lineBlank' t := by
  induction u generalizing lineBlank with
  | nil => exact ⟨lineBlank, free⟩
  | cons d u ih =>
    have blank := blanks d List.mem_cons_self
    have noQuote : d ≠ '"' := by
      rintro rfl
      cases blank
    have noSlash : d ≠ '/' := by
      rintro rfl
      cases blank
    have later := (uncommented_cons_iff.mp free).2
    rw [ScanState.step_code_plain noQuote noSlash] at later
    exact ih (fun c member => blanks c (List.mem_cons_of_mem _ member)) later

/-- In a line that has begun, no sign of a comment is left outside of strings. -/
theorem Uncommented.commentFree {quoting : Quoting} (free : Uncommented quoting.state false (u ++ t))
    (inLine : '\n' ∉ u) : CommentFree quoting u := by
  induction u generalizing quoting with
  | nil => trivial
  | cons d u ih =>
    obtain ⟨other, oneLine⟩ := not_or.mp (mt List.mem_cons.mpr inLine)
    rw [List.cons_append] at free
    obtain ⟨here, later⟩ := uncommented_cons_iff.mp free
    have noSign : quoting = .outside → d = '/' → IsApart (u ++ t) := by
      rintro rfl rfl
      constructor
      · intro head
        obtain ⟨rest, atRest⟩ := List.head?_eq_some_iff.mp head
        rw [atRest] at here
        exact here rfl
      · intro head
        obtain ⟨rest, atRest⟩ := List.head?_eq_some_iff.mp head
        rw [atRest] at here
        exact here rfl
    have still : lineBlankAfter false d = false := by simpa [lineBlankAfter] using Ne.symm other
    rw [ScanState.step_state (Ne.symm other) noSign, still] at later
    refine ⟨?_, ih later oneLine⟩
    intro outside slash
    rcases u with _ | ⟨e, u⟩
    · simp
    · exact noSign outside slash

end

/-- The body of a block is entered in code, in a line that has begun. -/
theorem uncommented_block {t before after : Text} (free : Uncommented .code true t)
    (masked : mask t = before ++ '{' :: after) :
    ∃ front rest, t = front ++ '{' :: rest ∧ byteSize front = byteSize before ∧
      Uncommented .code false rest := by
  obtain ⟨earlier, role, later, items, rfl, kept⟩ := showOnly_split (by decide) masked
  have code : role = .code := by simpa using kept
  obtain ⟨here, blank, rest, rfl, proper, step, rfl⟩ := scanFrom_eq_append (by trivial) items
  refine ⟨_, rest, rfl, (byteSize_showOnly _ _).symm, ?_⟩
  have next : (here.step blank '{' rest).2 = .code := by
    rw [code] at step
    cases here with
    | code => rfl
    | lineComment role => exact absurd step proper
    | string | escape | commentOpening | blockComment | commentClosing => cases step
  have still : lineBlankAfter blank '{' = false := by cases blank <;> rfl
  rw [next, still] at items
  intro item member
  exact free item (by rw [show scanFrom .code true _ = scan _ from rfl, items]; simp [member])

end SchemaDiagram

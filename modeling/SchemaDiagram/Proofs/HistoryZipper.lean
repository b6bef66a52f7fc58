import Mathlib.Data.List.DropRight
import SchemaDiagram.History

namespace SchemaDiagram

/-- What can be done with a history. -/
inductive History.Step (α : Type u)
  | push (entry : α)
  | undo
  | redo
  | clear

/-- The history after a step. -/
def History.step (h : History α) : History.Step α → History α
  | .push entry => h.push entry
  | .undo => h.undo.2
  | .redo => h.redo.2
  | .clear => h.clear

def History.run (h : History α) (steps : List (History.Step α)) : History α := steps.foldl History.step h

/-- The states before the present one, oldest first, the present one, and those that were undone, next
first. -/
structure Zipper (α : Type u) where
  past : List α := []
  present : Option α := none
  future : List α := []

namespace Zipper

def entries (z : Zipper α) : List α := z.past ++ z.present.toList ++ z.future

/-- The present state moves into the past, of which the newest stay, and what was undone is lost. -/
def push (capacity : Nat) (z : Zipper α) (entry : α) : Zipper α where
  past := (z.past ++ z.present.toList).rtake (capacity - 1)
  present := some entry
  future := []

/-- Moves the newest state of the past across the present one. -/
def undo (z : Zipper α) : Option α × Zipper α :=
  match z.past.getLast?, z.present with
  | some before, some now => (some before, ⟨z.past.dropLast, some before, now :: z.future⟩)
  | _, _ => (none, z)

/-- Moves the next state of the future across the present one. -/
def redo (z : Zipper α) : Option α × Zipper α :=
  match z.present, z.future with
  | some now, next :: later => (some next, ⟨z.past ++ [now], some next, later⟩)
  | _, _ => (none, z)

def step (capacity : Nat) (z : Zipper α) : History.Step α → Zipper α
  | .push entry => z.push capacity entry
  | .undo => z.undo.2
  | .redo => z.redo.2
  | .clear => {}

def run (capacity : Nat) (z : Zipper α) (steps : List (History.Step α)) : Zipper α :=
  steps.foldl (Zipper.step capacity) z

end Zipper

/-- The history keeps the states of the zipper, with the cursor at the present one. -/
structure History.Keeps (h : History α) (z : Zipper α) : Prop where
  entries : h.entries = z.entries
  cursor : h.cursor = z.present.map fun _ => z.past.length
  alone : z.present = none → z.past = [] ∧ z.future = []
  room : z.entries.length ≤ h.capacity
  positive : 0 < h.capacity

/-- Whatever can be seen of the history is what the zipper shows. -/
structure History.AnswersAs (h : History α) (z : Zipper α) : Prop where
  undo : h.undo.1 = z.undo.1
  redo : h.redo.1 = z.redo.1
  current : h.current = z.present
  size : h.size = z.entries.length
  isEmpty : h.isEmpty = z.entries.isEmpty
  canUndo : h.canUndo = !z.past.isEmpty
  canRedo : h.canRedo = !z.future.isEmpty

section

variable {h : History α} {z : Zipper α}

/-- To make room for one more entry is to keep the newest ones that fit beside it. -/
theorem tail_eq_rtake {kept : List α} {capacity : Nat} (room : kept.length ≤ capacity) (positive : 0 < capacity) :
    (if kept.length = capacity then kept.tail else kept) = kept.rtake (capacity - 1) := by
  rw [List.rtake]
  split
  case isTrue full => rw [show kept.length - (capacity - 1) = 1 by omega, List.drop_one]
  case isFalse => rw [show kept.length - (capacity - 1) = 0 by omega, List.drop_zero]

theorem keeps_empty (requested : Nat) : (History.withCapacity requested : History α).Keeps {} where
  entries := rfl
  cursor := rfl
  alone := fun _ => ⟨rfl, rfl⟩
  room := Nat.zero_le _
  positive := by simp only [History.withCapacity]; omega

namespace History.Keeps

variable (keeps : h.Keeps z)

include keeps

/-- Either nothing is kept, or there is a present state. -/
theorem cases_present : (z = {} ∧ h.entries = [] ∧ h.cursor = none) ∨
    ∃ now, z.present = some now ∧ h.entries = z.past ++ now :: z.future ∧ h.cursor = some z.past.length := by
  obtain ⟨past, present, future⟩ := z
  cases present with
  | none =>
    obtain ⟨rfl, rfl⟩ := keeps.alone rfl
    exact Or.inl ⟨rfl, keeps.entries, keeps.cursor⟩
  | some now =>
    refine Or.inr ⟨now, rfl, ?_, keeps.cursor⟩
    simpa only [Zipper.entries, Option.toList_some, List.append_assoc, List.singleton_append] using keeps.entries

theorem reached_eq : h.reached = (z.past ++ z.present.toList).length := by
  rcases keeps.cases_present with ⟨rfl, -, cursor⟩ | ⟨now, present, -, cursor⟩
  · simp only [History.reached, cursor, Option.map_none, Option.getD_none, Option.toList_none, List.append_nil,
      List.length_nil]
  · simp only [History.reached, cursor, present, Option.map_some, Option.getD_some, Option.toList_some,
      List.length_append, List.length_singleton]

theorem take_reached : h.entries.take h.reached = z.past ++ z.present.toList := by
  rw [keeps.reached_eq, keeps.entries, Zipper.entries, List.take_left]

theorem drop_reached : h.entries.drop h.reached = z.future := by
  rw [keeps.reached_eq, keeps.entries, Zipper.entries, List.drop_left]

theorem push (entry : α) : (h.push entry).Keeps (z.push h.capacity entry) := by
  have within : (z.past ++ z.present.toList).length ≤ h.capacity := by
    have room := keeps.room
    rw [Zipper.entries, List.length_append] at room
    omega
  have past := tail_eq_rtake within keeps.positive
  constructor
  · simp only [History.push, keeps.take_reached, past, Zipper.push, Zipper.entries, Option.toList_some, List.append_nil]
  · simp only [History.push, keeps.take_reached, past, Zipper.push, Option.map_some]
  · intro none
    cases none
  · have positive := keeps.positive
    simp only [Zipper.entries, Zipper.push, History.push, List.rtake, Option.toList_some, List.length_append,
      List.length_drop, List.length_singleton, List.length_nil]
    omega
  · exact keeps.positive

/-- To move the cursor is to move across states that are kept. -/
theorem moveTo {moved : Zipper α} {now : α} (same : moved.entries = z.entries) (present : moved.present = some now) :
    { h with cursor := some moved.past.length }.Keeps moved where
  entries := keeps.entries.trans same.symm
  cursor := by rw [present, Option.map_some]
  alone none := by
    rw [present] at none
    cases none
  room := same ▸ keeps.room
  positive := keeps.positive

theorem undo : h.undo.2.Keeps z.undo.2 ∧ h.undo.1 = z.undo.1 := by
  rcases keeps.cases_present with ⟨rfl, -, cursor⟩ | ⟨now, present, entries, cursor⟩
  · have stays : h.undo = (none, h) := by simp only [History.undo, cursor]
    rw [stays]
    exact ⟨keeps, rfl⟩
  rcases List.eq_nil_or_concat z.past with first | ⟨older, before, concat⟩
  · have stays : h.undo = (none, h) := by simp only [History.undo, cursor, first, List.length_nil]
    have edge : z.undo = (none, z) := by simp only [Zipper.undo, first, List.getLast?_nil]
    rw [stays, edge]
    exact ⟨keeps, rfl⟩
  · rw [List.concat_eq_append] at concat
    have length : z.past.length = older.length + 1 := by rw [concat, List.length_append, List.length_singleton]
    have found : h.entries[older.length]? = some before := by
      rw [entries, concat, List.append_assoc, List.getElem?_append_right (Nat.le_refl _), Nat.sub_self]
      rfl
    have stepped : h.undo = (some before, { h with cursor := some older.length }) := by
      simp only [History.undo, cursor, length, found]
    have moved : z.undo = (some before, ⟨older, some before, now :: z.future⟩) := by
      simp only [Zipper.undo, present, concat, List.getLast?_concat, List.dropLast_concat]
    have same : (⟨older, some before, now :: z.future⟩ : Zipper α).entries = z.entries := by
      simp only [Zipper.entries, concat, present, Option.toList_some, List.append_assoc, List.cons_append,
        List.nil_append]
    rw [stepped, moved]
    exact ⟨keeps.moveTo same rfl, rfl⟩

theorem redo : h.redo.2.Keeps z.redo.2 ∧ h.redo.1 = z.redo.1 := by
  have behind := keeps.drop_reached
  cases future : z.future with
  | nil =>
    have newest : ¬ h.reached < h.entries.length := by
      rw [future, List.drop_eq_nil_iff] at behind
      omega
    have stays : h.redo = (none, h) := by rw [History.redo, if_neg newest]
    have edge : z.redo = (none, z) := by
      rw [Zipper.redo, future]
      cases z.present <;> rfl
    rw [stays, edge]
    exact ⟨keeps, rfl⟩
  | cons next later =>
    rcases keeps.cases_present with ⟨rfl, -, -⟩ | ⟨now, present, entries, cursor⟩
    · cases future
    have reached : h.reached = z.past.length + 1 := by
      simp only [History.reached, cursor, Option.map_some, Option.getD_some]
    have found : h.entries[h.reached]? = some next := by
      rw [← List.head?_drop, behind, future, List.head?_cons]
    have older : h.reached < h.entries.length := (List.getElem?_eq_some_iff.mp found).1
    have stepped : h.redo = (some next, { h with cursor := some (z.past ++ [now]).length }) := by
      rw [History.redo, if_pos older, found, reached, List.length_append, List.length_singleton]
    have moved : z.redo = (some next, ⟨z.past ++ [now], some next, later⟩) := by
      simp only [Zipper.redo, present, future]
    have same : (⟨z.past ++ [now], some next, later⟩ : Zipper α).entries = z.entries := by
      simp only [Zipper.entries, future, present, Option.toList_some, List.append_assoc, List.cons_append,
        List.nil_append]
    rw [stepped, moved]
    exact ⟨keeps.moveTo same rfl, rfl⟩

/-- Each step of the history is the step of the zipper. -/
theorem step (s : History.Step α) : (h.step s).Keeps (z.step h.capacity s) ∧ (h.step s).capacity = h.capacity := by
  cases s with
  | push entry => exact ⟨keeps.push entry, rfl⟩
  | undo =>
    refine ⟨keeps.undo.1, ?_⟩
    simp only [History.step, History.undo]
    split <;> rfl
  | redo =>
    refine ⟨keeps.redo.1, ?_⟩
    simp only [History.step, History.redo]
    split <;> rfl
  | clear => exact ⟨⟨rfl, rfl, fun _ => ⟨rfl, rfl⟩, Nat.zero_le _, keeps.positive⟩, rfl⟩

theorem run (steps : List (History.Step α)) : (h.run steps).Keeps (z.run h.capacity steps) ∧
    (h.run steps).capacity = h.capacity := by
  induction steps generalizing h z with
  | nil => exact ⟨keeps, rfl⟩
  | cons s steps ih =>
    obtain ⟨next, capacity⟩ := keeps.step s
    have later := ih next
    rw [capacity] at later
    exact later

theorem answersAs : h.AnswersAs z := by
  have behind := keeps.drop_reached
  refine ⟨keeps.undo.2, keeps.redo.2, ?_, ?_, ?_, ?_, ?_⟩
  · rcases keeps.cases_present with ⟨rfl, -, cursor⟩ | ⟨now, present, entries, cursor⟩
    · simp only [History.current, cursor, Option.bind_none]
    · rw [History.current, cursor, Option.bind_some, entries, present, List.getElem?_append_right (Nat.le_refl _),
        Nat.sub_self]
      rfl
  · rw [History.size, keeps.entries]
  · rw [History.isEmpty, keeps.entries]
  · rcases keeps.cases_present with ⟨rfl, -, cursor⟩ | ⟨now, -, -, cursor⟩
    · simp only [History.canUndo, cursor, Option.any_none, List.isEmpty_nil, Bool.not_true]
    · rw [History.canUndo, cursor, Option.any_some]
      cases z.past <;> simp
  · rw [History.canRedo, ← behind]
    by_cases older : h.reached < h.entries.length
    · simp [older]
    · simp [older, Nat.not_lt.mp older]

end History.Keeps

end

/-- However a history was moved, it is a zipper whose past forgets its oldest states: whatever can be seen of
it is what the zipper shows, and what it holds are the states of the zipper, no more than fit, with the cursor
behind the past. -/
theorem history_follows_zipper (requested : Nat) (steps : List (History.Step α)) :
    let h := (History.withCapacity requested : History α).run steps
    let z := ({} : Zipper α).run (max requested 1) steps
    h.AnswersAs z ∧ h.entries = z.past ++ z.present.toList ++ z.future ∧ (h.cursor = none ↔ h.entries = []) ∧
      (∀ c, h.cursor = some c → c = z.past.length) ∧ h.entries.length ≤ max requested 1 := by
  intro h z
  obtain ⟨keeps, capacity⟩ := (keeps_empty requested (α := α)).run steps
  have room := keeps.room
  rw [capacity, ← keeps.entries] at room
  refine ⟨keeps.answersAs, keeps.entries, ?_, ?_, room⟩
  · rcases keeps.cases_present with ⟨-, entries, cursor⟩ | ⟨now, -, entries, cursor⟩
    · exact ⟨fun _ => entries, fun _ => cursor⟩
    · constructor
      · intro none
        rw [cursor] at none
        cases none
      · intro empty
        rw [entries] at empty
        simp at empty
  · intro c found
    rcases keeps.cases_present with ⟨-, -, cursor⟩ | ⟨now, -, -, cursor⟩
    · rw [cursor] at found
      cases found
    · rw [cursor] at found
      exact (Option.some.inj found).symm

-- A third state in a history of two makes it forget the first one.
example : ((History.withCapacity 2 : History Nat).run [.push 1, .push 2, .push 3, .undo]).undo.1 = none ∧
    ((History.withCapacity 2 : History Nat).run [.push 1, .push 2, .push 3, .undo]).current = some 2 := by decide

end SchemaDiagram

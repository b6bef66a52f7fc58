import SchemaDiagram.Command.Arguments

namespace SchemaDiagram

open Text

namespace ArgumentState

/-- Each value that has been read can stand for its option, and so can the one that is still to come. -/
structure Accepted (s : ArgumentState) : Prop where
  values : ∀ item ∈ s.options, acceptsValue item.1 item.2
  waiting : ∀ form ∈ s.waiting, form.hasValue

theorem accepted_empty : ({} : ArgumentState).Accepted where
  values := List.forall_mem_nil _
  waiting := fun _ waits => nomatch waits

variable {s next : ArgumentState}

theorem Accepted.give {form : OptionForm} {value : Text} (accepted : s.Accepted)
    (sound : form.hasValue ∨ acceptsValue form.purpose value) (given : s.give form value = some next) :
    next.Accepted := by
  rw [ArgumentState.give] at given
  split at given
  · cases given
  rename_i fine
  obtain rfl := Option.some.inj given
  simp only [Bool.or_eq_true, Bool.and_eq_true, Bool.not_eq_true', not_or, not_and, Bool.not_eq_false] at fine
  refine ⟨fun item member => ?_, fun _ waits => nomatch waits⟩
  rcases List.mem_append.mp member with old | new
  · exact accepted.values item old
  · rw [List.mem_singleton.mp new]
    exact sound.elim fine.2 id

theorem Accepted.wait {form : OptionForm} (accepted : s.Accepted) (valued : form.hasValue) :
    { s with waiting := some form }.Accepted where
  values := accepted.values
  waiting := fun _ waits => Option.some.inj waits ▸ valued

theorem Accepted.readWord (accepted : s.Accepted) (argument : Text) : (s.readWord argument).Accepted :=
  ⟨accepted.values, accepted.waiting⟩

section

variable {forms : List OptionForm} (sound : ∀ form ∈ forms, form.hasValue ∨ acceptsValue form.purpose [])

include sound

theorem Accepted.readLong {argument : Text} (accepted : s.Accepted) (read : readLong forms s argument = some next) :
    next.Accepted := by
  obtain ⟨form, found, rest⟩ := Option.bind_eq_some_iff.mp read
  split at rest
  · split at rest
    · exact accepted.give (Or.inl ‹_›) rest
    · cases rest
  · split at rest
    · obtain rfl := Option.some.inj rest
      exact accepted.wait ‹_›
    · exact accepted.give (sound form (List.mem_of_find?_eq_some found)) rest

theorem Accepted.readLetters {letters : List Char} (accepted : s.Accepted)
    (read : readLetters forms s letters = some next) : next.Accepted := by
  induction letters generalizing s with
  | nil => exact Option.some.inj read ▸ accepted
  | cons c rest ih =>
    obtain ⟨form, found, later⟩ := Option.bind_eq_some_iff.mp read
    split at later
    · rename_i valued
      split at later
      · obtain rfl := Option.some.inj later
        exact accepted.wait valued
      · exact accepted.give (Or.inl valued) later
      · exact accepted.give (Or.inl valued) later
    have plain := sound form (List.mem_of_find?_eq_some found)
    split at later
    · exact accepted.give plain later
    · obtain ⟨mid, given, rest⟩ := Option.bind_eq_some_iff.mp later
      exact ih (accepted.give plain given) rest

theorem Accepted.read {argument : Text} (accepted : s.Accepted) (read : s.read forms argument = some next) :
    next.Accepted := by
  rw [ArgumentState.read.eq_def] at read
  split at read
  · exact Option.some.inj read ▸ accepted.readWord argument
  split at read
  · cases read
  · exact accepted.give (Or.inl (accepted.waiting _ ‹s.waiting = some _›)) read
  · exact Option.some.inj read ▸ ⟨accepted.values, accepted.waiting⟩
  · exact accepted.readLong sound read
  · exact accepted.readLetters sound read
  · exact Option.some.inj read ▸ accepted.readWord _

end

theorem Accepted.value? (accepted : s.Accepted) {purpose : Purpose} {value : Text}
    (known : s.value? purpose = some value) : acceptsValue purpose value := by
  obtain ⟨item, found, rfl⟩ := Option.map_eq_some_iff.mp known
  obtain rfl : item.1 = purpose := by simpa using List.find?_some found
  exact accepted.values item (List.mem_of_find?_eq_some found)

end ArgumentState

open ArgumentState

/-- The directory that a task splits a schema into can stand for one. -/
def Invocation.DirectoryAccepted : Invocation → Prop
  | .run (.split _ directory) _ => acceptsValue .directory directory
  | _ => True

theorem value?_directory_of_task? {name : TaskName} {s : ArgumentState} {input directory : Text}
    (described : name.task? s = some (.split input directory)) : s.value? .directory = some directory := by
  obtain ⟨word, -, rest⟩ := Option.bind_eq_some_iff.mp described
  cases name with
  | split =>
    obtain ⟨value, known, same⟩ := Option.map_eq_some_iff.mp rest
    obtain ⟨-, rfl⟩ := Task.split.inj same
    exact known
  | relate =>
    simp only [Option.bind_eq_bind] at rest
    split at rest
    · cases rest
    · simp [Option.bind_eq_some_iff] at rest
  | _ => cases rest

theorem readTask_directory {name : TaskName} {before s : ArgumentState} {arguments : List Text}
    {invocation : Invocation} (accepted : s.Accepted) (read : readTask name before s arguments = some invocation) :
    invocation.DirectoryAccepted := by
  have sound : ∀ form ∈ name.options, form.hasValue ∨ acceptsValue form.purpose [] := by
    cases name <;> decide
  induction arguments generalizing s with
  | nil =>
    rw [readTask] at read
    split at read
    · cases read
    obtain ⟨task, described, rfl⟩ := Option.map_eq_some_iff.mp read
    cases task with
    | split => exact accepted.value? (value?_directory_of_task? described)
    | _ => trivial
  | cons argument later ih =>
    obtain ⟨next, taken, rest⟩ := Option.bind_eq_some_iff.mp read
    split at rest
    · cases rest
    split at rest
    · obtain rfl := Option.some.inj rest
      trivial
    · exact ih (accepted.read sound taken) rest

theorem readInvocation_directory {s : ArgumentState} {arguments : List Text} {invocation : Invocation}
    (accepted : s.Accepted) (read : readInvocation s arguments = some invocation) :
    invocation.DirectoryAccepted := by
  have sound : ∀ form ∈ programOptions, form.hasValue ∨ acceptsValue form.purpose [] := by decide
  induction arguments generalizing s with
  | nil => cases read
  | cons argument later ih =>
    obtain ⟨next, taken, rest⟩ := Option.bind_eq_some_iff.mp read
    split at rest
    · obtain rfl := Option.some.inj rest
      trivial
    split at rest
    · obtain rfl := Option.some.inj rest
      trivial
    split at rest
    · exact ih (accepted.read sound taken) rest
    split at rest
    · cases rest
    split at rest
    · obtain ⟨subject, -, rfl⟩ := Option.map_eq_some_iff.mp rest
      trivial
    · obtain ⟨name, -, described⟩ := Option.bind_eq_some_iff.mp rest
      exact readTask_directory accepted_empty described

/-- No schema is split into a directory without a name. -/
theorem directory_ne_nil {arguments : List Text} {input directory : Text} {output : Option Text}
    (asked : Invocation.ofArguments arguments = some (.run (.split input directory) output)) : directory ≠ [] := by
  have accepted := readInvocation_directory accepted_empty asked
  rintro rfl
  exact Bool.false_ne_true accepted

end SchemaDiagram

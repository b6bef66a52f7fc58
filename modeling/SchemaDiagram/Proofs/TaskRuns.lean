import SchemaDiagram.Command.Run
import SchemaDiagram.Proofs.WrittenPlaces

namespace SchemaDiagram

open Text

/-- A task that starts on a tree comes to a result, and leaves another tree. -/
def Returns {α : Type} (task : ExceptT Failure (StateM FileTree) α) (tree : FileTree) (result : α)
    (after : FileTree) : Prop :=
  task.run.run tree = (.ok result, after)

/-- A failure ends a task, and the tree stays as it is then. -/
theorem run_bind {α β : Type} (task : ExceptT Failure (StateM FileTree) α)
    (next : α → ExceptT Failure (StateM FileTree) β) (tree : FileTree) :
    (task >>= next).run.run tree =
      match task.run.run tree with
      | (.ok value, mid) => (next value).run.run mid
      | (.error failure, mid) => (.error failure, mid) := by
  change (ExceptT.bindCont next (task.run.run tree).1 : StateM FileTree _) (task.run.run tree).2 = _
  rcases task.run.run tree with ⟨_ | _, mid⟩ <;> rfl

theorem returns_bind_iff {α β : Type} {task : ExceptT Failure (StateM FileTree) α}
    {next : α → ExceptT Failure (StateM FileTree) β} {tree after : FileTree} {result : β} :
    Returns (task >>= next) tree result after ↔
      ∃ value mid, Returns task tree value mid ∧ Returns (next value) mid result after := by
  simp only [Returns, run_bind]
  constructor
  · intro ran
    split at ran
    · rename_i value mid first
      exact ⟨value, mid, first, ran⟩
    · cases ran
  · rintro ⟨value, mid, first, second⟩
    rw [first]
    exact second

theorem returns_pure_iff {α : Type} {value result : α} {tree after : FileTree} :
    Returns (pure value) tree result after ↔ value = result ∧ tree = after := by
  change ((Except.ok value, tree) : Except Failure α × FileTree) = (.ok result, after) ↔ _
  rw [Prod.mk.injEq, Except.ok.injEq]

theorem run_lift {α : Type} (action : StateM FileTree α) (tree : FileTree) :
    (liftM action : ExceptT Failure (StateM FileTree) α).run.run tree = (.ok (action tree).1, (action tree).2) := rfl

theorem returns_lift_iff {α : Type} {action : StateM FileTree α} {tree after : FileTree} {result : α} :
    Returns (liftM action) tree result after ↔ action tree = (result, after) := by
  rw [Returns, run_lift, Prod.mk.injEq, Except.ok.injEq, Prod.ext_iff]

theorem not_returns_throw {α : Type} {failure : Failure} {tree after : FileTree} {result : α} :
    ¬ Returns (throw failure) tree result after := by
  intro ran
  cases ran

theorem run_readSchema (path : Text) (tree : FileTree) :
    (readSchema FileTree.access path).run.run tree = ((tree.read path).mapError (Failure.unreadable path), tree) := by
  have answer : FileTree.access.read path tree = (tree.read path, tree) := rfl
  rw [readSchema, run_bind, run_lift, answer]
  cases tree.read path <;> rfl

theorem returns_readSchema_iff {path content : Text} {tree after : FileTree} :
    Returns (readSchema FileTree.access path) tree content after ↔ tree.read path = .ok content ∧ tree = after := by
  rw [Returns, run_readSchema, Prod.mk.injEq]
  cases tree.read path with
  | error e => exact and_congr_left fun _ => iff_of_false nofun nofun
  | ok found => exact and_congr_left fun _ => by rw [Except.mapError, Except.ok.injEq, Except.ok.injEq]

/-- Where a file cannot be written, nothing changes. -/
theorem run_writeOutput (path content : Text) (tree : FileTree) :
    (writeOutput FileTree.access path content).run.run tree =
      match tree.write path content with
      | .ok written => (.ok (), written)
      | .error e => (.error (.unwritable path e), tree) := by
  have answer : FileTree.access.write path content tree =
      match tree.write path content with
      | .ok written => (.ok (), written)
      | .error e => (.error e, tree) := rfl
  rw [writeOutput, run_bind, run_lift, answer]
  cases tree.write path content <;> rfl

theorem returns_writeOutput_iff {path content : Text} {tree after : FileTree} :
    Returns (writeOutput FileTree.access path content) tree () after ↔ tree.write path content = .ok after := by
  rw [Returns, run_writeOutput]
  cases tree.write path content with
  | error e => exact iff_of_false nofun nofun
  | ok written => rw [Prod.mk.injEq, and_iff_right rfl, Except.ok.injEq]

theorem Failure.exitCode_ne_zero (failure : Failure) : failure.outcome.exitCode ≠ 0 := by
  rw [Failure.outcome.eq_def]
  split <;> exact Nat.succ_ne_zero _

/-- What a run leaves once its task came to an end. -/
def Outcome.ofResult : Except Failure Text → Outcome
  | .ok printed => { exitCode := 0, printed }
  | .error failure => failure.outcome

theorem run_runCommand {arguments : List Text} {task : Task} {output : Option Text}
    (asked : Invocation.ofArguments arguments = some (.run task output)) (tree : FileTree) :
    (runCommand FileTree.access arguments).run tree =
      ((runTask FileTree.access output task).run.run tree).map Outcome.ofResult id := by
  have outcomes : runCommand FileTree.access arguments =
      (runTask FileTree.access output task).run >>= fun result => pure (Outcome.ofResult result) := by
    simp only [runCommand, asked]
    refine congrArg _ (funext fun result => ?_)
    cases result <;> rfl
  rw [outcomes]
  rfl

/-- The program exits with zero where its task comes to a result, and the tree that it leaves is that of the task. -/
theorem exitCode_eq_zero_iff {arguments : List Text} {task : Task} {output : Option Text} {tree : FileTree}
    (asked : Invocation.ofArguments arguments = some (.run task output)) :
    ((runCommand FileTree.access arguments).run tree).1.exitCode = 0 ↔
      ∃ printed, Returns (runTask FileTree.access output task) tree printed
        ((runCommand FileTree.access arguments).run tree).2 := by
  simp only [Returns, run_runCommand asked]
  rcases (runTask FileTree.access output task).run.run tree with ⟨failure | printed, after⟩
  · constructor
    · intro exits
      exact absurd exits failure.exitCode_ne_zero
    · rintro ⟨_, ran⟩
      cases ran
  · constructor
    · intro _
      exact ⟨printed, rfl⟩
    · intro _
      rfl

end SchemaDiagram

import SqlTemplate.Statement.Rendering

/-!
# Runners

Every execution of a statement borrows a runner, which holds what the execution makes. Runners
that are given back are emptied and lent again, the last one first.
-/

set_option autoImplicit false

namespace SqlTemplate

/-- A runner, known by its number. -/
structure Runner where
  number : Nat
  made : Rendering

/-- The runners of a statement: those that are not on loan, and how many there are in all. -/
structure RunnerPool where
  idle : List Runner
  count : Nat

namespace RunnerPool

/-- No runners. -/
def empty : RunnerPool := ⟨[], 0⟩

/-- Lends a runner, a new one if none is idle. -/
def acquire (pool : RunnerPool) : Runner × RunnerPool :=
  match pool.idle with
  | runner :: rest => (runner, { pool with idle := rest })
  | [] => (⟨pool.count, .empty⟩, { pool with count := pool.count + 1 })

/-- Takes a runner back and empties it. -/
def release (runner : Runner) (pool : RunnerPool) : RunnerPool :=
  { pool with idle := { runner with made := .empty } :: pool.idle }

end RunnerPool

end SqlTemplate

import GoPlanner.BuildError
import GoPlanner.Options

/-!
# Computations That Tell

Planning tells the user what it does, and it may end in an error. What was told before an
error stays told.

## Main definitions

* `Telling`: a computation with its notices.
* `Telling.tell`: gives a notice.
* `Telling.orRefused`: a file operation as a step of planning.
-/

namespace GoPlanner

/-- **A computation that gives notices** and may end in an error. -/
abbrev Telling (α : Type) : Type :=
  ExceptT BuildError (StateM (List Notice)) α

namespace Telling

/-- **Gives a notice.** -/
def tell (n : Notice) : Telling Unit :=
  modify (fun told => told ++ [n])

/-- Gives a notice if a condition holds. -/
def tellIf (condition : Bool) (n : Notice) : Telling Unit :=
  if condition then tell n else pure ()

/-- **A file operation** on a path; its fault ends the computation. -/
def orRefused {α : Type} (path : Path) : Except Fault α → Telling α
  | .ok a => pure a
  | .error fault => throw (.refused path fault)

/-- The outcome of a computation, with everything that was told. -/
def outcome {α : Type} (c : Telling α) : Except BuildError α × List Notice :=
  Id.run (StateT.run (ExceptT.run c) [])

end Telling

end GoPlanner

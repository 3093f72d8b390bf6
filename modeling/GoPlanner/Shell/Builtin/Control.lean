import GoPlanner.Shell.Builtin.Basic

/-!
# Builtin Commands That Leave

## Main definitions

* `Shell.Builtin.breakFrom`, `Shell.Builtin.continueWith`: the ends of loops.
* `Shell.Builtin.returnFrom`: the end of a function.
* `Shell.Builtin.exit`: the end of the shell.
-/

namespace GoPlanner

namespace Shell

namespace Builtin

/-- The number of loops to leave, of those that are run. -/
def loopCount (arguments : List String) : Action Nat := do
  let n ← match arguments with
    | [] => pure 1
    | a :: _ => do
      let n ← numberOf a
      if n = 0 then fail ("Illegal number: " ++ a) else pure n
  pure (min n (← get).loopDepth)

/-- **Leaves loops;** outside of loops nothing happens. -/
def breakFrom : Builtin := fun _ arguments => do
  let n ← loopCount arguments
  setStatus 0
  if n = 0 then pure () else throw (.breaks n)

/-- **Leaves loops,** and goes on with the outermost of them. -/
def continueWith : Builtin := fun _ arguments => do
  let n ← loopCount arguments
  setStatus 0
  if n = 0 then pure () else throw (.continues n)

/-- **Leaves a function** or a script. -/
def returnFrom : Builtin := fun _ arguments => do
  match arguments with
  | [] => pure ()
  | a :: _ => setStatus (← numberOf a)
  throw .returns

/-- **Leaves the shell.** In a trap the status is the one in front of it, unless another
one is given. -/
def exit : Builtin := fun _ arguments => do
  match arguments with
  | [] => modify (fun s => { s with status := s.trappedStatus.getD s.status })
  | a :: _ => setStatus (← numberOf a)
  throw .leaves

end Builtin

end Shell

end GoPlanner

import GoPlanner.Shell.Builtin.Basic
import GoPlanner.Shell.Variable

/-!
# Builtin Commands for the Working Directory

A shell keeps the path of its working directory as it was asked for: two dots take back
the last step of that path, even if that step was a link.

## Main definitions

* `Shell.Builtin.cd`: changes the working directory.
* `Shell.Builtin.pwd`: prints its path.
-/

namespace GoPlanner

namespace Shell

namespace Builtin

/-- The path of the working directory without links. -/
def physicalPath (s : State) : String :=
  Octets.ofText s.tree.cwd.path.text

/-- Goes to a directory, and tells whether that could be done. -/
def goTo (isPhysical : Bool) (path : String) : Action Bool := do
  let s ← get
  let logical := pathFrom s.directory path
  match s.tree.find (pathOf (if isPhysical then path else logical)) with
  | .ok (place, .directory) => do
    let tree := { s.tree with cwd := place }
    let here := if isPhysical then Octets.ofText place.path.text else logical
    set { ({ s with tree := tree, directory := here }.assign "OLDPWD" s.directory true).assign
      "PWD" here true with status := 0 }
    pure true
  | _ => pure false

/-- The directories that are tried for a path, each with whether its path is printed. -/
def triedFor (s : State) (path : String) : List (String × Bool) :=
  let isPlain := path.startsWith "/" || path = "." || path = ".." || path.startsWith "./" ||
    path.startsWith "../"
  match s.valueOf? "CDPATH" with
  | some directories =>
    if isPlain then [(path, false)]
    else
      (pieces ':' directories).map (fun d =>
        if d = "" then (path, false) else (d ++ "/" ++ path, true)) ++ [(path, false)]
  | none => [(path, false)]

/-- Goes to the first directory that is there. -/
def goToFirst (isPhysical isPrinted : Bool) (path : String) :
    List (String × Bool) → Action Unit
  | [] => fail ("can\x27t cd to " ++ path)
  | (tried, isFound) :: others => do
    if ← goTo isPhysical tried then
      if isPrinted || isFound then print ((← get).directory ++ "\n")
    else goToFirst isPhysical isPrinted path others

/-- **Changes the working directory.** -/
def cd : Builtin := fun _ arguments => do
  let (options, operands) ← optionsOf "LP" "" arguments
  let s ← get
  let isPhysical := (options.getLast?.map (·.1)) = some 'P'
  let (path, isPrinted) := match operands with
    | [] => ((s.valueOf? "HOME").getD "", false)
    | "-" :: _ => ((s.valueOf? "OLDPWD").getD "", true)
    | path :: _ => (path, false)
  let path := if path = "" then "." else path
  goToFirst isPhysical isPrinted path (triedFor s path)

/-- **Prints the path** of the working directory. -/
def pwd : Builtin := fun _ arguments => do
  let (options, _) ← optionsOf "LP" "" arguments
  let s ← get
  setStatus 0
  print ((if (options.getLast?.map (·.1)) = some 'P' then physicalPath s
    else s.directory) ++ "\n")

end Builtin

end Shell

end GoPlanner

import GoPlanner.Shell.Run

/-!
# Launching Programs

A program is named by a path, which is read in the directory it is started in, or by a
plain name that is looked for in the usual directories. It begins with the usual
variables, and nothing to read.

## Main definitions

* `Shell.usualPath`: the directories in which programs are looked for.
* `Shell.launcher`: how programs are run.
-/

namespace GoPlanner

namespace Shell

/-- The directories in which programs are looked for. -/
def usualPath : String :=
  "/usr/local/sbin:/usr/local/bin:/usr/sbin:/usr/bin:/sbin:/bin"

/-- The variables that programs begin with. -/
def usualVariables : List (String × Variable) :=
  [("HOME", { value := some "/root", isExported := true }),
    ("PATH", { value := some usualPath, isExported := true })]

/-- The state in which a program begins in a directory. -/
def initial (t : FileTree) (place : Place) : State where
  tree := { withSystem t with cwd := place }
  name := "sh"
  arguments := []
  bindings := usualVariables

/-- What a program made of the files and printed, and how it ended. -/
def launched (t : FileTree) (s : State) (ending : Except Fault Ending) : Launched where
  ending := ending
  tree := { withoutSystem t s.tree with cwd := t.cwd }
  output := [.childOutput (Octets.toText s.output), .childError (Octets.toText s.complaints)]

/-- **Starts the program of a name.** The shell does not help: a file that names no
interpreter is no program. -/
def startAlone (name : String) (arguments : List String) : Action (Option Fault) := do
  let s ← get
  let start (path : String) : Action (Option Fault) :=
    match resolveExecutable s.tree maxInterpreters name path arguments with
    | .error fault => pure (some fault)
    | .ok _ => launch maxStarts inner name path arguments
  if name = "" then pure (some .noEntry)
  else if name.contains '/' then start name
  else if FileTree.maxName < name.length then pure (some .nameTooLong)
  else startFirst start .noEntry ((searchPath s).map (inDirectory name))

/-- **How programs are run.** -/
def launcher : Launcher := fun t directory program arguments =>
  if program.contains '\x00' || arguments.any (·.contains '\x00') then
    ⟨.error (.other "nul byte found in provided data"), t, []⟩
  else
    match t.find directory with
    | .error fault => ⟨.error fault, t, []⟩
    | .ok (place, .directory) =>
      let action := startAlone (Octets.ofText program) (arguments.map Octets.ofText)
      match action.outcome (initial t place) with
      | (.ok (some fault), _) => ⟨.error fault, t, []⟩
      | (.error (.killed _), s) => launched t s (.ok .killed)
      | (_, s) => launched t s (.ok (.status (s.status % 256)))
    | .ok _ => ⟨.error .notDirectory, t, []⟩

end Shell

end GoPlanner

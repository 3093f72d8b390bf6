import GoPlanner.Shell.Builtin.Control
import GoPlanner.Shell.Builtin.Directory
import GoPlanner.Shell.Builtin.Names
import GoPlanner.Shell.Builtin.Processes
import GoPlanner.Shell.Builtin.Reading
import GoPlanner.Shell.Builtin.Variables

/-!
# Builtin Commands by Name

Some programs are builtin commands as well. A script may also be run within the shell: its
changes stay, and the end of the script is the end of the command.

## Main definitions

* `Shell.Builtin.eval`, `Shell.Builtin.source`: scripts within the shell.
* `Shell.Builtin.ofName?`: the builtin command of a name.
-/

namespace GoPlanner

namespace Shell

namespace Builtin

/-- The complaints of the command that is run begin with this text. -/
def withStart (p : String → Program) : Builtin := fun _ arguments => do
  let s ← get
  let ((), scene) := (p (← complaintStart) arguments).run
    { tree := s.tree, environment := s.environment, holdsBack := true }
  setStatus scene.status
  scene.all.forM (fun text => do
    if text.1 then do
      let _ ← write 2 text.2
    else print text.2)

/-- **Prints a text into which its arguments are put.** -/
def printf : Builtin := fun inner arguments => do
  let (_, operands) ← optionsOf "" "" arguments
  withStart (fun start => Program.printf start) inner operands

/-- **Runs its arguments as a script.** -/
def eval (isTested : Bool) : Builtin := fun inner arguments => do
  if arguments.isEmpty then setStatus 0
  else inner.script isTested (" ".intercalate arguments)

/-- The path of a script by its name. -/
def scriptPath (s : State) (name : String) : Option String :=
  if name.contains '/' then some name
  else
    ((searchPath s).map (inDirectory name)).find? (fun path => s.tree.isFile (pathOf path))

/-- **Runs the script in a file.** -/
def source : Builtin := fun inner arguments => do
  let (_, operands) ← optionsOf "" "" arguments
  match operands with
  | [] => setStatus 0
  | name :: _ => do
    let s ← get
    match scriptPath s name with
    | none => fail (name ++ ": not found")
    | some path =>
      match s.tree.find (pathOf path) with
      | .error fault => fail ("cannot open " ++ path ++ ": " ++ faultText fault "No such file")
      | .ok (place, _) => do
        set { s with command := some path }
        match ← attempt (inner.script false (octetsAt s.tree place)) with
        | .error .returns => pure ()
        | other => resume other

/-- **The builtin command of a name.** It may matter whether its failure is asked for. -/
def ofName? (isTested : Bool) (name : String) : Option Builtin :=
  match name with
  | "." => some source
  | ":" => some nothing
  | "[" => some (withStart (fun start => Program.test start true))
  | "alias" => some «alias»
  | "bg" => some control
  | "break" => some breakFrom
  | "cd" => some cd
  | "chdir" => some cd
  | "command" => some command
  | "continue" => some continueWith
  | "echo" => some (withStart (fun _ => Program.shellEcho))
  | "eval" => some (eval isTested)
  | "exit" => some exit
  | "export" => some exportTo
  | "false" => some (fun _ _ => setStatus 1)
  | "fg" => some control
  | "getopts" => some getopts
  | "hash" => some hash
  | "jobs" => some jobs
  | "kill" => some kill
  | "local" => some localTo
  | "printf" => some printf
  | "pwd" => some pwd
  | "read" => some read
  | "readonly" => some readonly
  | "return" => some returnFrom
  | "set" => some setOptions
  | "shift" => some shift
  | "test" => some (withStart (fun start => Program.test start false))
  | "times" => some times
  | "trap" => some trap
  | "true" => some nothing
  | "type" => some type
  | "ulimit" => some ulimit
  | "umask" => some umask
  | "unalias" => some unalias
  | "unset" => some unset
  | "wait" => some wait
  | _ => none

end Builtin

end Shell

end GoPlanner

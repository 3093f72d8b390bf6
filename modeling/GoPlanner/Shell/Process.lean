import GoPlanner.Shell.Setting
import GoPlanner.Shell.Signal
import GoPlanner.Shell.System

/-!
# Processes

A command that is neither a function nor built in is a program. It is named by a path, or
looked for in the directories of a variable. A file is a program if it may be executed
and its first line names the program that runs it.

## Main definitions

* `Shell.Executable`: what can be started.
* `Shell.executable`: what a path names.
* `Shell.pathsOf`: the paths of a name.
* `Shell.runProgram`: runs a program of the system.
* `Shell.runShell`: runs a shell within the run.
-/

namespace GoPlanner

namespace Shell

/-! ### What can be started -/

/-- **What can be started.** -/
inductive Executable where
  /-- A program of the system, by its name. -/
  | system (name : String)
  /-- A file, which the program at a path runs, with an argument for it. -/
  | script (interpreter : String) (argument : Option String)
deriving DecidableEq, Inhabited

/-- The interpreter that the first line of a file names, and the argument for it. -/
def interpreter? (content : String) : Option (String × Option String) :=
  match content.toList with
  | '#' :: '!' :: rest =>
    let isSpace (c : Char) : Bool := c == ' ' || c == '\t'
    let line := (rest.takeWhile (fun c => c != '\n')).dropWhile isSpace
    let path := line.takeWhile (fun c => !isSpace c)
    let behind := (line.dropWhile (fun c => !isSpace c)).dropWhile isSpace
    let argument := String.ofList (behind.reverse.dropWhile isSpace).reverse
    if path.isEmpty then none
    else some (String.ofList path, if argument = "" then none else some argument)
  | _ => none

/-- **What a path names.** -/
def executable (t : FileTree) (path : String) : Except Fault Executable :=
  match t.find (pathOf path) with
  | .error fault => .error fault
  | .ok (_, .file c isExecutable) =>
    if !isExecutable then .error .denied
    else
      let octets := Octets.ofContent c
      match imageName? octets, interpreter? octets with
      | some name, _ => .ok (.system name)
      | none, some (interpreter, argument) => .ok (.script interpreter argument)
      | none, none => .error .badFormat
  | .ok _ => .error .denied

/-- How many files may run each other. -/
def maxInterpreters : Nat := 5

/-- **A program of the system that is to be started.** -/
structure Start where
  /-- The name of the program. -/
  program : String
  /-- The name by which it is called. -/
  called : String
  /-- Its arguments. -/
  arguments : List String

/-- **What is started for a path** that is called by a name. A file is an argument for the
program that runs it. -/
def resolveExecutable (t : FileTree) :
    Nat → String → String → List String → Except Fault Start
  | 0, _, _, _ => .error .tooManyLinks
  | n + 1, name, path, arguments =>
    match executable t path with
    | .error fault => .error fault
    | .ok (.system program) => .ok ⟨program, name, arguments⟩
    | .ok (.script interpreter argument) =>
      resolveExecutable t n interpreter interpreter (argument.toList ++ path :: arguments)

/-! ### Looking for names -/

/-- The directories in which programs are looked for. -/
def searchPath (s : State) : List String :=
  pieces ':' ((s.valueOf? "PATH").getD "")

/-- The path of a name in a directory. -/
def inDirectory (name directory : String) : String :=
  if directory = "" then name else directory ++ "/" ++ name

/-- **Looks for a file** in directories; the answer is its path and those of the same name
in the directories behind it. Only files are found, and what stands in front of them may
be the reason why there is none. -/
def search (t : FileTree) (name : String) (reason : Fault) :
    List String → Except Fault (List String)
  | [] => .error reason
  | directory :: others =>
    let path := inDirectory name directory
    match t.find (pathOf path) with
    | .ok (_, .file _ _) => .ok (path :: others.map (inDirectory name))
    | .ok _ => search t name .denied others
    | .error fault =>
      search t name (if fault = .noEntry || fault = .notDirectory then reason else fault) others

/-- **The paths that a command may have** by its name. A name with a slash is a path. -/
def pathsOf (s : State) (name : String) : Except Fault (List String) :=
  if name.contains '/' then .ok [name]
  else if name = "" then .error .denied
  else search s.tree name .noEntry (searchPath s)

/-- **Starts the first program that can be started** of some paths. -/
def startFirst (start : String → Action (Option Fault)) (reason : Fault) :
    List String → Action (Option Fault)
  | [] => pure (some reason)
  | path :: others => do
    match ← start path with
    | none => pure none
    | some fault =>
      startFirst start (if fault = .noEntry || fault = .notDirectory then reason else fault) others

/-! ### Starting programs -/

/-- Whether the input of a shell is a file. -/
def State.readsFile (s : State) : Bool :=
  match (s.streamOf? 0).bind (s.streams[·]?) with
  | some (.file _ _ _) => true
  | _ => false

/-- **Runs a program** on the files and channels of the shell. It has a name, and is called
by a name. -/
def runProgram (p : Program) (name called : String) (arguments : List String) :
    Action Unit := do
  let s ← get
  let input ← readable 0
  let ((), scene) := (p arguments).run
    { name := name, called := called, tree := s.tree, environment := s.environment, input := input, isFile := s.readsFile }
  modify (fun s => { s with tree := { scene.tree with cwd := s.tree.cwd } })
  scene.all.forM (fun text => do
    let _ ← write (if text.1 then 2 else 1) text.2)
  if scene.readsInput then
    consume 0 (String.ofList (input.toList.take (input.length - scene.input.length)))
  setStatus scene.status

/-- The variables that a new process begins with. -/
def inherited (environment : List (String × String)) : List (String × Variable) :=
  environment.filterMap (fun v =>
    if isName v.1 then some (v.1, { value := some v.2, isExported := true }) else none)

/-- The variables that every shell has. -/
def withDefaults (directory : String) (bindings : List (String × Variable)) :
    List (String × Variable) :=
  let defaults := [("IFS", " \t\n"), ("OPTIND", "1"), ("PS1", "# "), ("PS2", "> "), ("PS4", "+ ")]
  let kept := bindings.filter (fun b => b.1 != "IFS" && b.1 != "OPTIND" && b.1 != "PWD")
  let missing := defaults.filter (fun d => (kept.lookup d.1).isNone)
  kept ++ missing.map (fun d => (d.1, { value := some d.2 })) ++
    [("PWD", { value := some directory, isExported := true })]

/-- The state in which another shell begins. -/
def State.newShell (s : State) (name : String) (arguments : List String) (options : List Char) :
    State :=
  let here := Octets.ofText s.tree.cwd.path.text
  { tree := s.tree, streams := s.streams, output := s.output, complaints := s.complaints
    signals := s.signals, process := s.nextProcess, nextProcess := s.nextProcess + 1
    channels := s.channels, name := name, arguments := arguments, options := options
    directory := here
    traps := s.traps.filter (fun t => t.2 == "" && t.1 != 0)
    bindings := withDefaults here (inherited s.environment) }

/-- **Runs a script in a new shell.** -/
def runShellScript (inner : Inner) (script name : String) (arguments : List String)
    (options : List Char) : Action Unit := do
  let s ← get
  let (result, s') := (leaving inner (inner.script false script)).outcome
    (s.newShell name arguments options)
  set (s.afterShell s')
  match result with
  | .error (.killed n) => throw (.killed n)
  | _ => setStatus (s'.status % 256)

/-- **Runs a shell** with arguments. -/
def runShell (inner : Inner) (name : String) (arguments : List String) : Action Unit := do
  let complainAs (text : String) : Action Unit := do
    let _ ← write 2 (name ++ ": 0: " ++ text ++ "\n")
    setStatus 2
  match Settings.read true arguments with
  | .error text => complainAs text
  | .ok wanted =>
    let options := wanted.applyTo []
    match wanted.hasScript, wanted.operands.getD [] with
    | true, [] => complainAs "-c requires an argument"
    | true, script :: more => runShellScript inner script (more.headD name) more.tail options
    | false, operands =>
      match options.contains 's', operands with
      | false, path :: more =>
        match (← get).tree.find (pathOf path) with
        | .ok (_, .file c _) => runShellScript inner (Octets.ofContent c) path more options
        | .ok _ => setStatus 0
        | .error fault =>
          complainAs ("cannot open " ++ path ++ ": " ++ faultText fault "No such file")
      | _, more => do
        let script ← readable 0
        consume 0 script
        runShellScript inner script name more ('s' :: options)

end Shell

end GoPlanner

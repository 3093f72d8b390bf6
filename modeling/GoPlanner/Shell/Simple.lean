import GoPlanner.Shell.Builtin.Named
import GoPlanner.Shell.Redirect
import GoPlanner.Shell.Starter

/-!
# Simple Commands

A simple command is expanded from left to right; the first word that is left over names
it. Then its redirections are made, its variables are set, and it is run: as a builtin
command, as a function, or as a program. Variables in front of a command end with it,
except in front of special builtin commands.

## Main definitions

* `Shell.Call`: simple commands behind their expansion.
* `Shell.runProgramNamed`, `Shell.runFunction`, `Shell.runBuiltin`: the ways to run them.
* `Shell.runSimple`: runs a simple command.
-/

namespace GoPlanner

namespace Shell

/-! ### Running by name -/

/-- How many programs may start each other. -/
def maxStarts : Nat := 16

/-- Starts the program of a name; the answer is why it cannot be started, and the status
of that. -/
def startNamed (inner : Inner) (name : String) (arguments : List String) :
    Action (Option (Fault × Nat)) := do
  match pathsOf (← get) name with
  | .error fault => pure (some (fault, 127))
  | .ok paths => do
    if !name.contains '/' then Builtin.remember name (paths.headD name)
    let start (path : String) := launch maxStarts inner name path arguments
    match ← startFirst start .noEntry paths with
    | none => pure none
    | some fault => pure (some (fault, refusedStatus fault))

/-- Complains about a program that cannot be started. -/
def refuseProgram (name : String) (fault : Fault) (status : Nat) : Action Unit := do
  complain (name ++ ": " ++ faultText fault "not found")
  setStatus status

/-- **Runs the program of a name.** -/
def runProgramNamed (inner : Inner) (name : String) (arguments : List String) : Action Unit := do
  match ← attempt (startNamed inner name arguments) with
  | .ok none => pure ()
  | .ok (some (fault, status)) => refuseProgram name fault status
  | .error (.killed n) => died n
  | .error jump => throw jump

/-- **Runs a program in the stead of the shell.** -/
def replaceShell (inner : Inner) (name : String) (arguments : List String) : Action Unit := do
  match ← startNamed inner name arguments with
  | none => modify (fun s => { s with traps := s.traps.filter (fun t => t.1 != 0) })
  | some (fault, status) => refuseProgram name fault status
  throw .leaves

/-- How many functions may be run within each other. -/
def maxFunctions : Nat := 1000

/-- **Runs a function.** It has arguments of its own, and loops around it cannot be left
from it. -/
def runFunction (inner : Inner) (isTested : Bool) (body : Command) (arguments : List String) :
    Action Unit := do
  let s ← get
  if maxFunctions ≤ s.functionDepth then
    fail ("Maximum function recursion depth (" ++ toString maxFunctions ++ ") reached")
  else do
    set { s with
      arguments := arguments
      optionIndex := 1
      optionPosition := none
      functionDepth := s.functionDepth + 1
      loopDepth := 0 }
    let result ← attempt (inner.run isTested body)
    modify (fun s' => { s' with
      arguments := s.arguments
      optionIndex := s.optionIndex
      optionPosition := s.optionPosition
      functionDepth := s.functionDepth
      loopDepth := s.loopDepth })
    match result with
    | .error .returns => pure ()
    | other => resume other

/-- **Runs a builtin command.** Its errors are errors of the shell if it is special. -/
def runBuiltin (inner : Inner) (b : Builtin) (isSpecial : Bool) (name : String)
    (arguments : List String) : Action Unit := do
  let run := during (·.command) (fun c s => { s with command := c }) (fun _ => some name)
    (b inner arguments)
  match ← attempt run with
  | .error .fails => if isSpecial then throw .fails else pure ()
  | other => resume other

/-! ### Expansion -/

/-- **A simple command behind its expansion.** -/
structure Call where
  /-- Its name and its arguments; if there are none, nothing is run. -/
  fields : List String := []
  /-- Whether the command is no function, and its errors are not errors of the shell. -/
  isPlain : Bool := false
deriving Inhabited

/-- The builtin commands whose arguments are assignments, which are not divided. -/
def assigningNames : List String :=
  ["alias", "export", "local", "readonly"]

/-- Whether a name is the one of a builtin command in a call. -/
def isBuiltin (s : State) (isPlain : Bool) (name : String) : Bool :=
  Builtin.names.contains name && (isPlain || (s.functions.lookup name).isNone)

/-- The fields of words; assignments among them may count as such. -/
def expandArguments (inner : Inner) (assigns : Bool) (words : List Word) :
    Action (List String) := do
  let fields ← words.mapM (fun w => do
    match assigns, assignment? w with
    | true, some (name, value) => pure [name ++ "=" ++ (← expandAssigned inner value)]
    | _, _ => expandFields inner w)
  pure fields.flatten

/-- What stands behind the name of the command that runs a plain one. -/
inductive Behind where
  /-- The plain command. -/
  | plain (fields : List String)
  /-- Something else: the command is to be run itself. -/
  | other
  /-- Nothing so far. -/
  | nothing

/-- What stands in fields behind the name of the command that runs a plain one. -/
def behindCommand : List String → Behind
  | [] => .nothing
  | "--" :: fields => if fields.isEmpty then .nothing else .plain fields
  | "command" :: fields => behindCommand fields
  | field :: fields =>
    match field.toList with
    | '-' :: c :: cs => if (c :: cs).all (· == 'p') then behindCommand fields else .other
    | _ => .plain (field :: fields)

/-- A call of a plain command, of which the first fields are given. -/
def plainCall (inner : Inner) (fields : List String) (words : List Word) : Action Call := do
  let assigns := assigningNames.contains (fields.headD "")
  pure ⟨fields ++ (← expandArguments inner assigns words), true⟩

/-- The call that a command for a plain one makes, with the fields behind its name so far
and the words behind them. -/
def expandPlain (inner : Inner) (fields : List String) (words : List Word) : Action Call :=
  match behindCommand fields, words with
  | .plain fields, words => plainCall inner fields words
  | .nothing, w :: words => do
    expandPlain inner (fields ++ (← expandFields inner w)) words
  | _, words => plainCall inner ("command" :: fields) words

/-- **Expands the words of a simple command.** -/
def expandCall (inner : Inner) : List Word → Action Call
  | [] => pure {}
  | w :: words => do
    match ← expandFields inner w with
    | [] => expandCall inner words
    | name :: more => do
      let isOwn := isBuiltin (← get) false name
      if isOwn && name = "command" then expandPlain inner more words
      else do
        let assigns := isOwn && assigningNames.contains name
        pure ⟨name :: more ++ (← expandArguments inner assigns words), false⟩

/-! ### Running -/

/-- Sets the variables in front of a command; the answer is what they are set to. -/
def setVariables (inner : Inner) (isKept isExported : Bool) (assignments : List (String × Word)) :
    Action (List String) :=
  assignments.mapM (fun a => do
    let value ← expandAssigned inner a.2
    if !isKept then saveLocally a.1
    assign a.1 value (isExported || !isKept)
    pure (a.1 ++ "=" ++ value))

/-- Shows a command before it is run. -/
def showCommand (stream? : Option Nat) (start : String) (fields : List String) : Action Unit :=
  modify (fun s =>
    match stream? with
    | some n => (s.writeTo? n (start ++ " ".intercalate fields ++ "\n")).getD s
    | none => s)

/-- The text in front of commands that are shown. -/
def traceStart : Action String := do
  pure (((← get).valueOf? "PS4").getD "")

/-- Runs a call, of whose name is known whether it is special. -/
def runCall (inner : Inner) (isTested isSpecial : Bool) (call : Call) : Action Unit := do
  let s ← get
  match call.fields with
  | [] => setStatus s.innerStatus
  | name :: arguments =>
    if isBuiltin s call.isPlain name then
      if name = "exec" then
        if arguments.isEmpty then setStatus 0
        else
          match arguments with
          | [] => setStatus 0
          | name :: arguments =>
            runBuiltin inner (fun inner _ => replaceShell inner name arguments) isSpecial "exec" []
      else
        match Builtin.ofName? isTested name with
        | some b => runBuiltin inner b isSpecial name arguments
        | none => runProgramNamed inner name arguments
    else
      match call.isPlain, s.functions.lookup name with
      | false, some body => runFunction inner isTested body arguments
      | _, _ => runProgramNamed inner name arguments

/-- **Runs a simple command.** -/
def runSimple (inner : Inner) (isTested : Bool) (line : Nat)
    (assignments : List (String × Word)) (words : List Word) (redirections : List Redirection) :
    Action Unit := do
  modify (fun s => { s with line := line, innerStatus := 0 })
  let call ← expandCall inner words
  let s ← get
  let name := call.fields.headD ""
  let isOwn := isBuiltin s call.isPlain name
  let isSpecial := !call.isPlain && specialNames.contains name
  let isLeft := call.fields.isEmpty || isSpecial
  let isExec := isOwn && name = "exec"
  let body : Action Unit := do
    if ← redirect inner redirections then do
      let shown ← setVariables inner isLeft (isExec && 1 < call.fields.length) assignments
      if ← hasOption 'x' then
        showCommand (s.streamOf? 2) (← traceStart) (shown ++ call.fields)
      runCall inner isTested isSpecial call
    else if isSpecial then throw .fails
  let result ← attempt (if isLeft then body else inScope body)
  if !isExec then modify (fun s' => { s' with channels := s.channels })
  resume result

end Shell

end GoPlanner

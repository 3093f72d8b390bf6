import GoPlanner.FileTree.Write
import GoPlanner.Telling

/-!
# Sessions

A session is what a run can change: the files, and what has been printed so far. Nothing
is taken back when a run ends in an error.

## Main definitions

* `Output`: a piece of what is printed.
* `Session`: files and output.
* `Session.stdout`, `Session.stderr`: the printed texts.
* `Acting`: a computation that changes a session.
* `Launcher`: how programs are run.
-/

namespace GoPlanner

/-- **A piece of what is printed.** -/
inductive Output where
  /-- A notice, which may not be shown. -/
  | notice (n : Notice)
  /-- A text on the standard output. -/
  | printed (text : String)
  /-- What a program wrote to its standard output. -/
  | childOutput (text : String)
  /-- What a program wrote to its standard error. -/
  | childError (text : String)
deriving DecidableEq, Inhabited

namespace Output

/-- The part of a piece on the standard output. -/
def onStdout : Output → String
  | printed text => text
  | childOutput text => text
  | _ => ""

/-- The part of a piece on the standard error: notices only if they are shown. -/
def onStderr (options : Options) (color : Bool) : Output → String
  | notice n => if options.shows n then n.line color ++ "\n" else ""
  | childError text => text
  | _ => ""

end Output

/-- **A session.** -/
structure Session where
  /-- The files. -/
  tree : FileTree := {}
  /-- What has been printed, in order. -/
  output : List Output := []
deriving Inhabited

namespace Session

/-- **The standard output.** -/
def stdout (s : Session) : String :=
  String.join (s.output.map Output.onStdout)

/-- **The standard error** under the given options. -/
def stderr (s : Session) (options : Options) (color : Bool) : String :=
  String.join (s.output.map (Output.onStderr options color))

end Session

/-- **A computation that changes a session** and may end in an error. -/
abbrev Acting (α : Type) : Type :=
  ExceptT BuildError (StateM Session) α

namespace Acting

/-- Prints a piece. -/
def emit (o : Output) : Acting Unit :=
  modify (fun s => { s with output := s.output ++ [o] })

/-- Gives a notice. -/
def tell (n : Notice) : Acting Unit :=
  emit (.notice n)

/-- Prints a text on the standard output. -/
def print (text : String) : Acting Unit :=
  emit (.printed text)

/-- The files as they are. -/
def files : Acting FileTree := do
  pure (← get).tree

/-- **A computation that only tells,** as part of a session. -/
def saying {α : Type} (c : Telling α) : Acting α := do
  let (result, notices) := c.outcome
  modify (fun s => { s with output := s.output ++ notices.map .notice })
  match result with
  | .ok a => pure a
  | .error e => throw e

/-- **Changes the files;** a fault is one of the given path. -/
def changeFiles (path : Path) (change : FileTree → Except Fault FileTree) : Acting Unit := do
  match change (← files) with
  | .ok t => modify (fun s => { s with tree := t })
  | .error fault => throw (.refused path fault)

/-- **Makes a directory** and its missing ancestors; those that were made before a fault
stay. -/
def makeDirectories (path : Path) : Acting Unit := do
  match (← files).makeBelow path path.ancestors with
  | .ok t => modify (fun s => { s with tree := t })
  | .error (fault, t) =>
    modify (fun s => { s with tree := t })
    throw (.refused path fault)

/-- Writes a text to a file. -/
def writeText (path : Path) (text : String) : Acting Unit :=
  changeFiles path (fun t => t.write path (.text text))

/-- The outcome of a computation, with the session behind it. -/
def outcome {α : Type} (c : Acting α) (s : Session) : Except BuildError α × Session :=
  Id.run (StateT.run (ExceptT.run c) s)

end Acting

/-! ### Programs -/

/-- How a program ended. -/
inductive Ending where
  /-- It gave a status; zero means that all went well. -/
  | status (code : Nat)
  /-- A signal ended it. -/
  | killed
deriving DecidableEq, Inhabited

/-- What became of a program: how it ended, or why it could not be started; the files
behind it, and what it printed. -/
structure Launched where
  /-- How it ended, if it could be started. -/
  ending : Except Fault Ending
  /-- The files behind it. -/
  tree : FileTree
  /-- What it printed. -/
  output : List Output := []
deriving Inhabited

/-- **How programs are run:** in a directory, by name, with arguments. -/
abbrev Launcher : Type :=
  FileTree → Path → String → List String → Launched

end GoPlanner

import GoPlanner.CommandLine.Arguments
import GoPlanner.CommandLine.Run
import GoPlanner.FileTree.Archive
import GoPlanner.Shell.Launch

/-!
# The Program

The program reads a text archive from its standard input, plans the build that its
arguments ask for, prints what the run printed, and writes the files of the plan. An
error is printed in red and ends the program with status one.

## Main definitions

* `GoPlanner.variableNames`: the variables of the process environment that count.
* `main`: the program.
-/

namespace GoPlanner

/-- **The variables** of the process environment that count. -/
def variableNames : List String :=
  ["GOOS", "GOARCH", "GOROOT", "GOPATH", "CGO_ENABLED", "HOME", "ALSO_EXECUTE_COMMANDS"]

/-- The line that an error is printed on. -/
def errorLine (message : String) : String :=
  "\x1b[1;31mError:\x1b[0m " ++ message

/-- The text of an input, up to its end. -/
partial def readAll (input : IO.FS.Stream) (before : String) : IO String := do
  let line ← input.getLine
  if line.isEmpty then
    pure before
  else
    readAll input (before ++ line)

/-- Writes files to their places. -/
def writeFiles (files : List (Place × Content)) : IO Unit :=
  files.forM (fun f => do
    IO.FS.createDirAll (Place.path f.1.dropLast).text
    IO.FS.writeBinFile (Place.path f.1).text f.2.toBytes.toByteArray)

/-- Runs a command line and tells what came of it. -/
def runCommandLine (c : CommandLine) : IO UInt32 := do
  let here ← IO.currentDir
  let values ← variableNames.mapM (fun n => do pure ((← IO.getEnv n).map (n, ·)))
  let lookup (name : String) : Option String := (values.filterMap id).lookup name
  let archive ← readAll (← IO.getStdin) ""
  let place := (pieces '/' here.toString).filter (· != "")
  let tree := { FileTree.ofArchive place archive with clock := 1 }
  let (result, session) := c.run Shell.launcher lookup { tree := tree }
  IO.print session.stdout
  IO.eprint (session.stderr (c.options lookup) true)
  writeFiles (session.tree.changedSince 0)
  match result with
  | .ok _ => pure 0
  | .error e => do
    IO.eprintln (errorLine e.message)
    pure 1

end GoPlanner

/-- **The program.** -/
def main (arguments : List String) : IO UInt32 :=
  match GoPlanner.CommandLine.ofArguments arguments with
  | .ok c => GoPlanner.runCommandLine c
  | .error e => do
    IO.eprintln (GoPlanner.errorLine e.message)
    pure 2

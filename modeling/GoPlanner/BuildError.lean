import GoPlanner.FileTree.Fault
import GoPlanner.Path

/-!
# Why a Build Cannot Be Planned

Every error ends planning; no part of a plan is handed out after one.

## Main definitions

* `BuildError`: the causes.
* `BuildError.message`: the text for the user.
* `BuildError.endless`: planning that does not end.
-/

namespace GoPlanner

/-- **Why a build cannot be planned or run.** -/
inductive BuildError where
  /-- An import path leads to no location. -/
  | importNotFound (importPath : String) (importer : Path)
  /-- Several packages lie in one directory, and none has the expected name. -/
  | ambiguousPackage (importPath : String) (directory : Path) (candidates : List String)
  /-- No package lies in a directory. -/
  | emptyPackage (importPath : String) (directory : Path)
  /-- All files of a package belong to other targets. -/
  | noCompilableSources (importPath : String)
  /-- Packages import each other in a circle; its first package is named again last. -/
  | importCycle (importPaths : List String)
  /-- A file operation was refused. -/
  | refused (path : Path) (fault : Fault)
  /-- A source file has a malformed header or constraint. -/
  | malformed (path : Path) (detail : String)
  /-- A command did not end well: it gave a status, or a signal ended it. -/
  | commandFailed (command : String) (status : Option Int)
deriving DecidableEq, Inhabited

namespace BuildError

/-- **The message for the user.** -/
def message : BuildError → String
  | importNotFound importPath importer =>
    "import \"" ++ importPath ++ "\" not found in standard locations (imported from '" ++
      importer.text ++ "')"
  | ambiguousPackage importPath directory candidates =>
    "more than one package found in '" ++ directory.text ++ "' for import \"" ++ importPath ++
      "\": " ++ ", ".intercalate candidates
  | emptyPackage importPath directory =>
    "import \"" ++ importPath ++ "\" had no matching packages in expected directory '" ++
      directory.text ++ "'"
  | noCompilableSources importPath =>
    "no .go files to compile in package " ++ importPath ++
      ", check build tags and update vendored dependencies"
  | importCycle importPaths =>
    "import cycle not allowed: " ++ " -> ".intercalate importPaths
  | refused path fault => "failed to read '" ++ path.text ++ "': " ++ fault.message
  | malformed path detail => "failed to parse '" ++ path.text ++ "': " ++ detail
  | commandFailed command (some status) =>
    "command `" ++ command ++ "` exited with status " ++ toString status
  | commandFailed command none => "command `" ++ command ++ "` was terminated by a signal"

/-- **What stands for planning that does not end.** A run never gets to it: it goes on until
its stack is used up. -/
def endless : BuildError :=
  refused ⟨""⟩ (.other "the imports lead around in a circle")

/-- The fault behind a refused file operation. -/
def fault? : BuildError → Option Fault
  | refused _ fault => some fault
  | _ => none

end BuildError

end GoPlanner

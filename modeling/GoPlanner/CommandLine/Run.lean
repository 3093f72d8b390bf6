import GoPlanner.Build
import GoPlanner.CommandLine.Basic

/-!
# Running a Command Line

A run puts the settings together and builds the input with them. Settings come from the
command line, from the project file, and from the process environment; the working
directory is that of the session.

## Main definitions

* `RunError`: why a run ended early.
* `CommandLine.run`: runs a command line.
-/

namespace GoPlanner

/-- **Why a run ended early.** -/
inductive RunError where
  /-- The working directory is gone. -/
  | noWorkingDirectory (fault : Fault)
  /-- Something is wrong with the project. -/
  | project (error : ProjectError)
  /-- The build failed. -/
  | build (error : BuildError)
deriving Inhabited

/-- **The message for the user.** -/
def RunError.message : RunError → String
  | noWorkingDirectory fault => fault.message
  | project error => error.message
  | build error => error.message

namespace CommandLine

/-- The settings of a command line in a working directory. -/
def settings (c : CommandLine) (t : FileTree) (lookup : String → Option String) (cwd : Path) :
    Except ProjectError Settings :=
  match t.discoverProject (cwd.join c.input) c.projectFile with
  | .error e => .error e
  | .ok project =>
    Settings.resolve t c.input project c.overrides (Target.ofVariables lookup) cwd

/-- **Runs a command line** in a session. -/
def run (c : CommandLine) (launch : Launcher) (lookup : String → Option String) (s : Session) :
    Except RunError Unit × Session :=
  match s.tree.workingDirectory with
  | .error fault => (.error (.noWorkingDirectory fault), s)
  | .ok cwd =>
    match c.settings s.tree lookup cwd with
    | .error e => (.error (.project e), s)
    | .ok settings =>
      match Acting.outcome
          (runBuild launch settings.input settings.buildDir settings.target (c.options lookup)) s
        with
      | (.ok _, s) => (.ok (), s)
      | (.error e, s) => (.error (.build e), s)

end CommandLine

end GoPlanner

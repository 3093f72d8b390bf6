import GoPlanner.Options
import GoPlanner.Project.Settings

/-!
# The Command Line

What the user gives on the command line is in part settings, which hide those of the
project file and of the process environment, and in part options that say what a run
prints and executes.

## Main definitions

* `CommandLine`: what was given.
* `CommandLine.overrides`, `CommandLine.options`: the two parts.
* `CommandLineError`: why a command line is refused.
-/

namespace GoPlanner

/-- **A command line.** -/
structure CommandLine where
  /-- The input: a package directory, or a single file. -/
  input : Path
  /-- The build directory. -/
  buildDir : Option Path := none
  /-- Tags given behind the build directory. -/
  tagList : List String := []
  /-- Tags given as an option. -/
  tags : List String := []
  /-- The operating system. -/
  goos : Option String := none
  /-- The architecture. -/
  goarch : Option String := none
  /-- The directory of the Go distribution. -/
  goroot : Option Path := none
  /-- Directories in which packages are searched. -/
  gopath : List Path := []
  /-- The tag `cgo` holds. -/
  cgo : Bool := false
  /-- The tag `cgo` does not hold. -/
  noCgo : Bool := false
  /-- The highest `N` for which the tag `go1.N` holds. -/
  goMinor : Option Nat := none
  /-- The project file. -/
  projectFile : Option Path := none
  /-- Commands are executed. -/
  execute : Bool := false
  /-- The program that runs the commands. -/
  goTool : String := "go"
  /-- Reports to print. -/
  reports : List Report := []
  /-- Everything is traced. -/
  debug : Bool := false
  /-- Parts to trace. -/
  traces : List Part := []
  /-- No notices are printed. -/
  quiet : Bool := false
  /-- How often more messages were asked for. -/
  verbose : Nat := 0
deriving DecidableEq, Inhabited

namespace CommandLine

/-- All tags, those of the option first; without any, nothing is said about tags. -/
def allTags (c : CommandLine) : Option (List String) :=
  if c.tags.isEmpty && c.tagList.isEmpty then none else some (c.tags ++ c.tagList)

/-- What is said about the tag `cgo`. -/
def cgoOverride (c : CommandLine) : Option Bool :=
  if c.cgo then some true else if c.noCgo then some false else none

/-- **The settings** on the command line. -/
def overrides (c : CommandLine) : Overrides where
  buildDir := c.buildDir
  tags := c.allTags
  goos := c.goos
  goarch := c.goarch
  goroot := c.goroot
  gopath := if c.gopath.isEmpty then none else some c.gopath
  cgo := c.cgoOverride
  goMinor := c.goMinor

/-- The variable that asks for execution when it is set to anything. -/
def executeVariable : String :=
  "ALSO_EXECUTE_COMMANDS"

/-- **The options** on the command line; execution can also be asked for by a variable. -/
def options (c : CommandLine) (lookup : String → Option String) : Options where
  debug := c.debug
  traces := c.traces
  quiet := c.quiet
  verbose := c.verbose
  reports := c.reports
  execute := c.execute || (lookup executeVariable).any (fun v => v != "")
  goTool := c.goTool

end CommandLine

/-- **Why a command line is refused,** or what it asks for in place of a run. -/
inductive CommandLineError where
  /-- The input is missing. -/
  | missingInput
  /-- There is no such option. -/
  | unknownArgument
  /-- A value is missing, is empty where it may not be, or is none of those possible. -/
  | invalidValue
  /-- A value is no number, or one out of range. -/
  | invalidNumber
  /-- A flag is given a value. -/
  | unneededValue
  /-- Arguments exclude each other, or may not be repeated. -/
  | conflict
  /-- The user asks how the program is used. -/
  | helpWanted
  /-- The user asks for the version. -/
  | versionWanted
deriving DecidableEq, Inhabited

/-- The message for the user. -/
def CommandLineError.message : CommandLineError → String
  | missingInput => "the input is missing"
  | unknownArgument => "unexpected argument"
  | invalidValue => "missing or invalid value"
  | invalidNumber => "invalid number"
  | unneededValue => "unexpected value for a flag"
  | conflict => "arguments cannot be used together"
  | helpWanted => "usage: [OPTIONS] <INPUT> [BUILD_DIR] [TAG_LIST]..."
  | versionWanted => "0.1.0"

end GoPlanner

/-!
# Options and Notices

A run tells the user what it does by notices. Which of them are shown is a matter of the
options alone: a notice is recorded with its kind, and the options decide when it is
printed. So the options that control printing cannot influence what is planned.

## Main definitions

* `Options`: what the user asks a run to print and to execute.
* `Notice`: a message with its kind.
* `Options.shows`: whether a notice is printed.
* `Notice.line`: the printed line.
-/

namespace GoPlanner

/-- Parts of the planner that can be traced. -/
inductive Part where
  | resolve
  | scan
  | cache
  | plan
  | link
  | exec
deriving DecidableEq, Inhabited

namespace Part

/-- All parts, in the order in which they take part in a run. -/
def all : List Part :=
  [resolve, scan, cache, plan, link, exec]

/-- The name of a part. -/
def name : Part → String
  | resolve => "resolve"
  | scan => "scan"
  | cache => "cache"
  | plan => "plan"
  | link => "link"
  | exec => "exec"

/-- The part of a name. -/
def ofName? (s : String) : Option Part :=
  all.find? (fun p => p.name == s)

end Part

/-- Reports that can be printed besides the commands. -/
inductive Report where
  /-- The table of packages. -/
  | packages
  /-- The final import configuration. -/
  | importcfg
deriving DecidableEq, Inhabited

namespace Report

/-- All reports. -/
def all : List Report :=
  [packages, importcfg]

/-- The name of a report. -/
def name : Report → String
  | packages => "packages"
  | importcfg => "importcfg"

/-- The report of a name. -/
def ofName? (s : String) : Option Report :=
  all.find? (fun r => r.name == s)

end Report

/-- **The options of a run.** -/
structure Options where
  /-- Trace everything. -/
  debug : Bool := false
  /-- Parts to trace. -/
  traces : List Part := []
  /-- Print no notices at all. -/
  quiet : Bool := false
  /-- How often more messages were asked for, at most 255 times. -/
  verbose : Nat := 0
  /-- Reports to print. -/
  reports : List Report := []
  /-- Run every command after it is printed. -/
  execute : Bool := false
  /-- The program that runs the commands. -/
  goTool : String := "go"
deriving DecidableEq, Inhabited

/-- Options that print no notices. -/
def Options.silent : Options :=
  { quiet := true }

/-- How many `-v` a message needs. -/
inductive Level where
  | info
  | debug
  | trace
deriving DecidableEq, Inhabited

namespace Level

/-- The levels, the most important first. -/
def all : List Level :=
  [info, debug, trace]

/-- The number of a level. -/
def number : Level → Nat
  | info => 1
  | debug => 2
  | trace => 3

/-- The word in front of messages of the level. -/
def name : Level → String
  | info => "info"
  | debug => "debug"
  | trace => "trace"

end Level

/-- **Notices.** -/
inductive Notice where
  /-- A planning step starts. -/
  | step (message : String)
  /-- A planning step is done. -/
  | done (message : String)
  /-- A problem that planning survives. -/
  | warning (message : String)
  /-- A message for a level of verbosity. -/
  | atLevel (level : Level) (message : String)
  /-- A message about the work of one part. -/
  | ofPart (part : Part) (message : String)
deriving DecidableEq, Inhabited

namespace Options

/-- **The verbosity in effect:** none when quiet, and at least 2 when everything is
traced. -/
def effectiveVerbose (o : Options) : Nat :=
  if o.quiet then 0
  else if o.debug && o.verbose < 2 then 2
  else o.verbose

/-- Whether messages of a level are printed. -/
def showsLevel (o : Options) (level : Level) : Bool :=
  level.number ≤ o.effectiveVerbose

/-- Whether messages about a part are printed. -/
def showsPart (o : Options) (part : Part) : Bool :=
  !o.quiet && (o.debug || o.traces.contains part)

/-- **Whether a notice is printed.** -/
def shows (o : Options) : Notice → Bool
  | .step _ => !o.quiet
  | .done _ => !o.quiet
  | .warning _ => !o.quiet
  | .atLevel level _ => o.showsLevel level
  | .ofPart part _ => o.showsPart part

/-- Whether a report is asked for. -/
def wants (o : Options) (report : Report) : Bool :=
  o.reports.contains report

/-- The options as they are without any control over what is printed. -/
def actions (o : Options) : Options :=
  { reports := o.reports, execute := o.execute, goTool := o.goTool }

end Options

/-- The arrow in front of steps, bright and bold in the given colour if colours are on. -/
def arrow (color : Bool) (code : String) : String :=
  if color then "\x1b[1;" ++ code ++ "m-->\x1b[0m" else "-->"

/-- **The printed line** of a notice. -/
def Notice.line (color : Bool) : Notice → String
  | step message => "    " ++ arrow color "92" ++ " " ++ message
  | done message => arrow color "92" ++ " " ++ message
  | warning message => arrow color "93" ++ " " ++ message
  | atLevel level message => level.name ++ ": " ++ message
  | ofPart part message => "debug[" ++ part.name ++ "]: " ++ message

end GoPlanner

import GoPlanner.Discovery.Walk
import GoPlanner.Plan
import GoPlanner.Report
import GoPlanner.Session
import GoPlanner.StandardLibrary
import GoPlanner.Text.Json

/-!
# Planning and Running a Build

A build is planned in three steps: the package graph is discovered, the commands are
generated, and the link is added. Discovery changes no file; generation makes the build
directory and writes the import configuration. A run also prints the commands, executes
them if asked to, and records the plan at last, when no command has failed.

## Main definitions

* `Build`: a package graph with its plan.
* `generate`: the plan of a graph, with its import configuration on disk.
* `planBuild`: plans the build of an input.
* `runBuild`: plans, prints, executes and records.
-/

namespace GoPlanner

/-- **A planned build.** -/
structure Build where
  /-- The packages. -/
  graph : PackageGraph
  /-- The plan. -/
  plan : Plan
  /-- The build directory. -/
  layout : Layout
deriving DecidableEq, Inhabited

open Acting

/-! ### Generating the commands -/

/-- **Registers the standard library:** every archive in a directory. The number of
archives is given with the import configuration. -/
def registerStandardLibrary (t : FileTree) (directory : Path) (c : ImportConfig) :
    Telling (Nat × ImportConfig) := do
  let archives ← Telling.orRefused directory (t.archivesIn directory)
  Telling.tell (.ofPart .plan ("registered " ++ toString archives.length ++
    " standard library archives from " ++ directory.text))
  pure (archives.length, archives.foldl (fun c a => c.register a.1 a.2) c)

/-- Writes an import configuration to its file. -/
def flush (c : ImportConfig) : Acting Unit :=
  writeText c.path c.render

/-- **The plan of a package graph.** The build directory is made, and the import
configuration is written twice: empty before anything else, and complete at the end. -/
def generate (g : PackageGraph) (buildDir : Path) (target : Target) : Acting Plan := do
  let c : PlanContext := ⟨⟨buildDir⟩, target⟩
  makeDirectories buildDir
  flush (Plan.empty c.layout).importcfg
  let plan ← saying (Plan.ofGraph c g)
  let importcfg ←
    if g.precompiled then do
      let (_, importcfg) ← saying
        (registerStandardLibrary (← files) target.archiveDir plan.importcfg)
      pure importcfg
    else pure plan.importcfg
  flush importcfg
  pure { plan with importcfg := importcfg }

/-! ### Planning -/

/-- The absolute form of a path. -/
def absolutePath (p : Path) : Acting Path := do
  if p.isAbsolute then
    pure p
  else
    match (← files).workingDirectory with
    | .ok here => pure (here.join p)
    | .error fault => throw (.refused p fault)

/-- **Plans the build** of an input, a directory or a single file. -/
def planBuild (input buildDir : Path) (target : Target) : Acting Build := do
  let buildDir ← absolutePath buildDir
  tell (.step ("Resolving imports of " ++ input.text ++ " for " ++ target.platform))
  let graph ← saying (discover (← files) input buildDir target)
  tell (.atLevel .debug ("resolved " ++ toString graph.size ++ " packages"))
  tell (.step ("Generating commands in " ++ buildDir.text))
  let plan ← generate graph buildDir target
  let plan ← saying (plan.linked ⟨buildDir⟩)
  pure ⟨graph, plan, ⟨buildDir⟩⟩

/-! ### Running -/

/-- Prints the reports that are asked for. -/
def printReports (b : Build) (options : Options) : Acting Unit := do
  if options.wants .packages then
    print b.graph.table
  if options.wants .importcfg then
    tell (.step (b.plan.importcfg.path.text ++ " (" ++ toString b.plan.importcfg.size ++
      " packages)"))
    print b.plan.importcfg.render

/-- **Executes an invocation** in the build directory. -/
def execute (launch : Launcher) (layout : Layout) (goTool : String) (i : Invocation) :
    Acting Unit := do
  tell (.ofPart .exec (goTool ++ " tool " ++ i.display))
  let launched := launch (← files) layout.base goTool ("tool" :: i.argv)
  modify (fun s => { s with tree := launched.tree, output := s.output ++ launched.output })
  match launched.ending with
  | .error fault => throw (.refused ⟨goTool⟩ fault)
  | .ok (.status 0) => pure ()
  | .ok (.status code) => throw (.commandFailed i.display (some code))
  | .ok .killed => throw (.commandFailed i.display none)

/-- Prints a command, and executes it if asked to. -/
def perform (launch : Launcher) (layout : Layout) (options : Options) (i : Invocation) :
    Acting Unit := do
  print ("Command: " ++ i.display ++ "\n")
  if options.execute then
    execute launch layout options.goTool i

/-- **Records a plan** in a file. -/
def record (commands : List Invocation) (path : Path) : Acting Unit :=
  writeText path (Json.indented (commands.map Invocation.argv))

/-- **Plans, prints, executes and records** the build of an input. -/
def runBuild (launch : Launcher) (input buildDir : Path) (target : Target)
    (options : Options) : Acting Build := do
  let b ← planBuild input buildDir target
  printReports b options
  b.plan.invocations.forM (perform launch b.layout options)
  record b.plan.invocations b.layout.commands
  tell (.done (toString b.plan.invocations.length ++ " commands written to " ++
    b.layout.commands.text))
  pure b

end GoPlanner

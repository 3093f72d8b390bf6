import GoPlanner.Graph.Order
import GoPlanner.ImportConfig
import GoPlanner.Invocation
import GoPlanner.Layout
import GoPlanner.Target
import GoPlanner.Telling

/-!
# Plans

A plan lists the invocations that build a program, in an order in which they can be run.
Every package contributes one block: a package without assembly is compiled; for one with
assembly files the symbols are collected first, and after the compilation every file is
assembled and packed into the archive. Packages with an archive contribute nothing but
their entry in the import configuration.

## Main definitions

* `Plan`: invocations, import configuration, and the archives to be linked.
* `Block.ofPackage`: the invocations for one package.
* `Planning.visit`: plans a package after the packages that it imports.
* `Plan.ofGraph`: the plan of a package graph, without the standard library and the link.
* `Plan.linked`: the plan with the link at its end.
-/

namespace GoPlanner

/-- **A plan.** -/
structure Plan where
  /-- The import configuration. -/
  importcfg : ImportConfig
  /-- The invocations, in order. -/
  invocations : List Invocation := []
  /-- The archives that are handed to the linker. -/
  linkArchives : List Path := []
deriving DecidableEq, Inhabited

/-- What the invocations of a plan depend on besides the packages. -/
structure PlanContext where
  /-- The build directory. -/
  layout : Layout
  /-- The target. -/
  target : Target
deriving Inhabited

namespace Block

/-! ### The invocations for one package -/

/-- Packages of the distribution that are compiled as parts of the runtime. -/
def isRuntime (p : Package) : Bool :=
  p.isInternal && startsWith "runtime" p.importPath && p.importPath != "runtime/trace"

/-- What every invocation of the assembler for a package starts with. -/
def assembler (c : PlanContext) (p : Package) : Invocation :=
  ⟨.asm, ["-p", p.importPath, "-I", c.layout.base.text, "-I", c.target.includeDir.text,
    "-D", "GOOS_" ++ c.target.goos, "-D", "GOARCH_" ++ c.target.goarch]⟩

/-- The flag for assembly files of the distribution. -/
def internalFlag (p : Package) : List String :=
  if p.isInternal then ["-compiling-runtime"] else []

/-- **Collecting the symbols** of all assembly files. -/
def symbols (c : PlanContext) (p : Package) : Invocation :=
  ((assembler c p).adding
    (["-gensymabis", "-o", (c.layout.symbols p.importPath).text] ++ internalFlag p)).addingPaths
      p.asmPaths

/-- The flags that tell the compiler about assembly files, or that there are none. -/
def assemblyFlags (c : PlanContext) (p : Package) : List String :=
  if p.hasAssembly then
    ["-symabis", (c.layout.symbols p.importPath).text, "-asmhdr", c.layout.assemblyHeader.text]
  else if p.isInternal then []
  else ["-complete"]

/-- **Compiling** the Go files. -/
def compile (c : PlanContext) (p : Package) : Invocation :=
  Invocation.addingPaths
    ⟨.compile, ["-o", (c.layout.archive p.importPath).text, "-p", p.importPath,
      "-buildid", hashName p.importPath, "-importcfg", c.layout.importcfg.text] ++
      (if isRuntime p then ["-std", "-+"] else []) ++ assemblyFlags c p⟩
    p.goPaths

/-- **Assembling** one file. -/
def assemble (c : PlanContext) (p : Package) (file : String) : Invocation :=
  (((assembler c p).adding (["-o", (c.layout.object p.importPath file).text] ++
    internalFlag p)).addingPaths [p.directory.child file])

/-- **Packing** the assembled files into the archive. -/
def pack (c : PlanContext) (p : Package) : Invocation :=
  Invocation.addingPaths ⟨.pack, ["r", (c.layout.archive p.importPath).text]⟩
    (p.asmFiles.map (c.layout.object p.importPath))

/-- **The block** of a package that is built. -/
def ofPackage (c : PlanContext) (p : Package) : List Invocation :=
  if p.hasAssembly then
    [symbols c p, compile c p] ++ p.asmFiles.map (assemble c p) ++ [pack c p]
  else [compile c p]

end Block

namespace Plan

open Telling

/-- An empty plan for a build directory. -/
def empty (layout : Layout) : Plan :=
  ⟨.empty layout.importcfg, [], []⟩

/-! ### Packages -/

/-- The plan in which a package has its entries in the import configuration: its import
path and its aliases stand for the archive in use, or else for the one to be built. -/
def withEntries (plan : Plan) (c : PlanContext) (p : Package) : Plan :=
  let archive := p.cachedArchive.getD (c.layout.archive p.importPath)
  { plan with importcfg := plan.importcfg.registerAll p.importPaths archive }

/-- The plan in which the archive of the root is handed to the linker. -/
def withLinkArchive (plan : Plan) (archive : Path) : Plan :=
  { plan with linkArchives := plan.linkArchives ++ [archive] }

/-- Adds invocations at the end of a plan. -/
def withInvocations (plan : Plan) (block : List Invocation) : Plan :=
  { plan with invocations := plan.invocations ++ block }

/-- The notice about a package that is being planned. -/
def progress (p : Package) : Notice :=
  .atLevel .info ("processing " ++ p.importPath ++ " (" ++ p.directory.text ++
    ") internal = " ++ toString p.isInternal ++ ", cached = " ++ toString p.isCached)

/-- **Plans one package.** A package that has to be built needs Go files. -/
def addPackage (c : PlanContext) (g : PackageGraph) (plan : Plan) (id : PackageId) :
    Telling Plan := do
  match g.package? id with
  | none => pure plan
  | some p =>
    let plan := if id = PackageGraph.root then
        plan.withLinkArchive (c.layout.archive p.importPath)
      else plan
    let plan := plan.withEntries c p
    tell (progress p)
    if p.isCached then
      pure plan
    else if p.goFiles.isEmpty then
      throw (.noCompilableSources p.importPath)
    else
      let block := Block.ofPackage c p
      block.forM (fun i => tell (.ofPart .plan i.display))
      pure (plan.withInvocations block)

end Plan

/-! ### The walk through a graph -/

/-- **What planning carries along:** the packages that it has met, and the plan so far. -/
structure Planning where
  /-- The packages that have been met. -/
  met : List PackageId := []
  /-- The plan so far. -/
  plan : Plan
deriving DecidableEq, Inhabited

/-- **Plans a package** after the packages that it imports, unless it has been met. The
packages on the way to it have all been met. -/
def Planning.visit (c : PlanContext) (g : PackageGraph) (way : List PackageId) (id : PackageId)
    (s : Planning) : Telling Planning :=
  if _h : id < g.size ∧ id ∉ way ∧ id ∉ s.met then do
    let s ← (g.importsOf id).foldlM (fun s dependency => visit c g (id :: way) dependency s)
      { s with met := id :: s.met }
    let plan ← Plan.addPackage c g s.plan id
    pure { s with plan := plan }
  else pure s
termination_by (g.offWay way).length
decreasing_by exact PackageGraph.offWay_cons_lt _h.1 _h.2.1

namespace Plan

open Telling

/-- **The plan of a package graph:** the root is visited, and through its imports all
packages that it leads to. -/
def ofGraph (c : PlanContext) (g : PackageGraph) : Telling Plan := do
  let s ← Planning.visit c g [] PackageGraph.root { plan := empty c.layout }
  pure s.plan

/-! ### The link -/

/-- **Linking** the program. -/
def link (plan : Plan) (layout : Layout) : Invocation :=
  Invocation.addingPaths
    ⟨.link, ["-o", layout.executable.text, "-buildmode=exe",
      "-importcfg", plan.importcfg.path.text]⟩
    plan.linkArchives

/-- **The plan with the link at its end.** -/
def linked (plan : Plan) (layout : Layout) : Telling Plan := do
  let last := plan.link layout
  tell (.ofPart .link last.display)
  pure (plan.withInvocations [last])

end Plan

end GoPlanner

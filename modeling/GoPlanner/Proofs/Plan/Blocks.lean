import GoPlanner.Plan
import Mathlib.Data.List.Forall2

/-!
# The Block of a Package

A package without assembly files is compiled. One with assembly files is compiled between
two passes of the assembler: the first one collects the symbols that the compiler reads,
the second one makes an object of each file, and the objects are packed at last.

## Main definitions

* `Invocation.Passes`: an invocation with a path behind a flag.
* `Block.Compiles`, `Block.Assembles`: what two kinds of invocations do for a package.
* `Block.Builds`: the invocations that build a package.

## Main results

* `Block.builds_ofPackage`: the block of every package builds it.
-/

namespace GoPlanner

/-- **A path is passed** behind a flag. -/
def Invocation.Passes (i : Invocation) (flag : String) (path : Path) : Prop :=
  [flag, path.text] <:+: i.args

/-- The last arguments of an invocation are the given paths. -/
def Invocation.EndsWith (i : Invocation) (paths : List Path) : Prop :=
  paths.map (·.text) <:+ i.args

namespace Block

variable {c : PlanContext} {p : Package}

/-- **Compiling a package:** its Go files become its archive. -/
structure Compiles (c : PlanContext) (p : Package) (i : Invocation) : Prop where
  /-- The compiler is run. -/
  tool : i.tool = .compile
  /-- The archive is written. -/
  archive : i.Passes "-o" (c.layout.archive p.importPath)
  /-- The Go files are read. -/
  files : i.EndsWith p.goPaths

/-- **Assembling a file** of a package to its object. -/
structure Assembles (c : PlanContext) (p : Package) (file : String) (i : Invocation) : Prop where
  /-- The assembler is run. -/
  tool : i.tool = .asm
  /-- The object is written. -/
  object : i.Passes "-o" (c.layout.object p.importPath file)
  /-- The file is read. -/
  files : i.EndsWith [p.directory.child file]

/-- **Collecting the symbols** of a package in a file. -/
structure Collects (p : Package) (symbols : Path) (i : Invocation) : Prop where
  /-- The assembler is run. -/
  tool : i.tool = .asm
  /-- It is to collect symbols only. -/
  pass : "-gensymabis" ∈ i.args
  /-- The symbols are written. -/
  symbols : i.Passes "-o" symbols
  /-- The assembly files are read. -/
  files : i.EndsWith p.asmPaths

/-- **The invocations that build a package.** -/
inductive Builds (c : PlanContext) (p : Package) : List Invocation → Prop
  | plain (i : Invocation) (hplain : p.asmFiles = []) (hcompile : Compiles c p i) :
      Builds c p [i]
  | assembly (symbols : Path) (first i : Invocation) (assembled : List Invocation)
      (hassembly : p.asmFiles ≠ []) (hfirst : Collects p symbols first)
      (hcompile : Compiles c p i) (hsymbols : i.Passes "-symabis" symbols)
      (hassembled : List.Forall₂ (Assembles c p) p.asmFiles assembled) :
      Builds c p (first :: i :: assembled ++ [⟨.pack, ["r", (c.layout.archive p.importPath).text] ++
        p.asmFiles.map (fun file => (c.layout.object p.importPath file).text)⟩])

/-! ### The invocations of a block -/

theorem compiles_compile (c : PlanContext) (p : Package) : Compiles c p (compile c p) where
  tool := rfl
  archive := ⟨[], _, rfl⟩
  files := List.suffix_append _ _

theorem collects_symbols (c : PlanContext) (p : Package) :
    Collects p (c.layout.symbols p.importPath) (symbols c p) where
  tool := rfl
  pass := by simp [symbols, Invocation.adding, Invocation.addingPaths]
  symbols := by
    refine ⟨(assembler c p).args ++ ["-gensymabis"], internalFlag p ++ p.asmPaths.map (·.text), ?_⟩
    simp [symbols, Invocation.adding, Invocation.addingPaths]
  files := List.suffix_append _ _

theorem assembles_assemble (c : PlanContext) (p : Package) (file : String) :
    Assembles c p file (assemble c p file) where
  tool := rfl
  object := by
    refine ⟨(assembler c p).args, internalFlag p ++ [(p.directory.child file).text], ?_⟩
    simp [assemble, Invocation.adding, Invocation.addingPaths]
  files := List.suffix_append _ _

/-- The compiler is told where the symbols are. -/
theorem passes_symbols (c : PlanContext) (h : p.hasAssembly = true) :
    (compile c p).Passes "-symabis" (c.layout.symbols p.importPath) := by
  refine ⟨["-o", (c.layout.archive p.importPath).text, "-p", p.importPath,
      "-buildid", hashName p.importPath, "-importcfg", c.layout.importcfg.text] ++
      (if isRuntime p then ["-std", "-+"] else []),
    ["-asmhdr", c.layout.assemblyHeader.text] ++ p.goPaths.map (·.text), ?_⟩
  simp [compile, assemblyFlags, h, Invocation.adding, Invocation.addingPaths]

/-- **The block of every package builds it.** -/
theorem builds_ofPackage (c : PlanContext) (p : Package) : Builds c p (ofPackage c p) := by
  rw [ofPackage]
  split
  · rename_i h
    have hassembly : p.asmFiles ≠ [] := by simpa [Package.hasAssembly] using h
    have hassembled : List.Forall₂ (Assembles c p) p.asmFiles (p.asmFiles.map (assemble c p)) := by
      rw [List.forall₂_map_right_iff]
      exact List.forall₂_same.2 (fun file _ => assembles_assemble c p file)
    have hbuilds := Builds.assembly (c := c) _ _ _ _ hassembly (collects_symbols c p)
      (compiles_compile c p) (passes_symbols c h) hassembled
    simpa [pack, Invocation.addingPaths, Invocation.adding, Function.comp_def] using hbuilds
  · rename_i h
    have hplain : p.asmFiles = [] := by simpa [Package.hasAssembly] using h
    exact Builds.plain _ hplain (compiles_compile c p)

end Block

end GoPlanner

import GoPlanner.Proofs.Build.Outputs
import GoPlanner.Proofs.FileTree.Absolute

/-!
# Paths Among Arguments

The tools read a path behind some of their flags, and take every argument from the first one that
is no flag as a path. In the invocations for a package all of these lie in the build directory or
in the directory of the package, except for one: the assembler also includes headers of the
distribution.

## Main definitions

* `Invocation.pathOperands`: the paths that an invocation is given.
* `Plan.paths`: the paths of a plan.

## Main results

* `Block.pathOperands_symbols`, `Block.pathOperands_compile`, `Block.pathOperands_assemble`,
  `Block.pathOperands_pack`: the paths of the invocations for a package.
* `Block.isAbsolute_or_eq_includeDir`: which of them are absolute.
-/

namespace GoPlanner

/-! ### Reading arguments -/

namespace Invocation

/-- The flags that take a path. -/
def pathFlags : List String :=
  ["-o", "-I", "-importcfg", "-symabis", "-asmhdr"]

/-- Whether an argument is a flag. -/
def isFlag (argument : String) : Bool :=
  startsWith "-" argument

/-- **The paths among arguments:** those that flags take, and all from the first argument that is
no flag. -/
def pathsIn : List String → List String
  | [] => []
  | [argument] => if isFlag argument then [] else [argument]
  | argument :: value :: rest =>
    if argument ∈ pathFlags then value :: pathsIn rest
    else if argument ∈ valueFlags then pathsIn rest
    else if isFlag argument then pathsIn (value :: rest)
    else argument :: value :: rest

/-- **The paths that an invocation is given.** The first argument for packing says what to do. -/
def pathOperands (i : Invocation) : List Path :=
  (if i.tool = .pack then i.args.drop 1 else pathsIn i.args).map Path.mk

variable {argument value : String} {rest : List String} {paths : List Path}

theorem isFlag_of_mem_valueFlags (h : argument ∈ valueFlags) : isFlag argument = true := by
  revert argument
  decide

theorem pathFlags_subset : pathFlags ⊆ valueFlags := by
  decide

theorem pathsIn_of_mem_pathFlags (h : argument ∈ pathFlags) :
    pathsIn (argument :: value :: rest) = value :: pathsIn rest := by
  rw [pathsIn, if_pos h]

theorem pathsIn_of_mem_valueFlags (h : argument ∈ valueFlags) (hpath : argument ∉ pathFlags) :
    pathsIn (argument :: value :: rest) = pathsIn rest := by
  rw [pathsIn, if_neg hpath, if_pos h]

theorem pathsIn_of_isFlag (h : isFlag argument = true) (hvalue : argument ∉ valueFlags) :
    pathsIn (argument :: rest) = pathsIn rest := by
  cases rest with
  | nil => simp [pathsIn, h]
  | cons value rest =>
      rw [pathsIn, if_neg fun hpath => hvalue (pathFlags_subset hpath), if_neg hvalue, if_pos h]

theorem pathsIn_of_not_isFlag (h : isFlag argument = false) :
    pathsIn (argument :: rest) = argument :: rest := by
  have hvalue : argument ∉ valueFlags := fun hmem => by
    simp [isFlag_of_mem_valueFlags hmem] at h
  cases rest with
  | nil => simp [pathsIn, h]
  | cons value rest =>
      rw [pathsIn, if_neg fun hpath => hvalue (pathFlags_subset hpath), if_neg hvalue,
        if_neg (by simp [h])]

theorem not_isFlag_of_isAbsolute {p : Path} (h : p.isAbsolute = true) :
    isFlag p.text = false := by
  rw [Path.isAbsolute, startsWith] at h
  obtain ⟨cs, hcs⟩ := List.isPrefixOf_iff_prefix.1 h
  rw [isFlag, startsWith, ← hcs]
  rfl

/-- Absolute paths are all taken as paths. -/
theorem pathsIn_map_text (h : ∀ o ∈ paths, o.isAbsolute = true) :
    pathsIn (paths.map (·.text)) = paths.map (·.text) := by
  cases paths with
  | nil => rfl
  | cons o paths => exact pathsIn_of_not_isFlag (not_isFlag_of_isAbsolute (h o List.mem_cons_self))

theorem map_mk_text (paths : List Path) : (paths.map (·.text)).map Path.mk = paths := by
  simp [Function.comp_def]

/-- The paths of an invocation that does not pack. -/
theorem pathOperands_eq {i : Invocation} (htool : (i.tool == .pack) = false)
    (h : pathsIn i.args = paths.map (·.text)) : i.pathOperands = paths := by
  rw [pathOperands, if_neg (beq_eq_false_iff_ne.1 htool), h, map_mk_text]

end Invocation

/-- **The paths of a plan:** those that its commands are given, and the archives of its import
configuration. -/
def Plan.paths (plan : Plan) : List Path :=
  plan.invocations.flatMap Invocation.pathOperands ++ plan.importcfg.entries.map (·.2)

/-! ### The invocations for a package -/

namespace Block

open Invocation

variable {c : PlanContext} {p : Package} {i : Invocation} {o : Path} {file : String}

/-- The paths of an invocation of the assembler. -/
theorem pathsIn_assembler (rest : List String) :
    pathsIn ((assembler c p).args ++ rest) =
      c.layout.base.text :: c.target.includeDir.text :: pathsIn rest := by
  rw [assembler]
  simp only [List.cons_append, List.nil_append]
  rw [pathsIn_of_mem_valueFlags (by decide) (by decide), pathsIn_of_mem_pathFlags (by decide),
    pathsIn_of_mem_pathFlags (by decide), pathsIn_of_mem_valueFlags (by decide) (by decide),
    pathsIn_of_mem_valueFlags (by decide) (by decide)]

theorem pathsIn_internalFlag (rest : List String) :
    pathsIn (internalFlag p ++ rest) = pathsIn rest := by
  rw [internalFlag]
  split
  · exact pathsIn_of_isFlag (by decide) (by decide)
  · rfl

theorem pathOperands_symbols (h : ∀ o ∈ p.asmPaths, o.isAbsolute = true) :
    (symbols c p).pathOperands =
      [c.layout.base, c.target.includeDir, c.layout.symbols p.importPath] ++ p.asmPaths := by
  have hargs : (symbols c p).args = (assembler c p).args ++ "-gensymabis" :: "-o" ::
      (c.layout.symbols p.importPath).text :: (internalFlag p ++ p.asmPaths.map (·.text)) := by
    simp [symbols, adding, addingPaths]
  refine pathOperands_eq rfl ?_
  rw [hargs, pathsIn_assembler, pathsIn_of_isFlag (by decide) (by decide),
    pathsIn_of_mem_pathFlags (by decide), pathsIn_internalFlag, pathsIn_map_text h]
  simp

theorem pathOperands_assemble (h : (p.directory.child file).isAbsolute = true) :
    (assemble c p file).pathOperands =
      [c.layout.base, c.target.includeDir, c.layout.object p.importPath file,
        p.directory.child file] := by
  have hargs : (assemble c p file).args = (assembler c p).args ++ "-o" ::
      (c.layout.object p.importPath file).text ::
        (internalFlag p ++ [p.directory.child file].map (·.text)) := by
    simp [assemble, adding, addingPaths]
  refine pathOperands_eq rfl ?_
  rw [hargs, pathsIn_assembler, pathsIn_of_mem_pathFlags (by decide), pathsIn_internalFlag,
    pathsIn_map_text (by simpa using h)]
  simp

/-- The paths about assembly files that the compiler is given. -/
def assemblyPaths (c : PlanContext) (p : Package) : List Path :=
  if p.hasAssembly then [c.layout.symbols p.importPath, c.layout.assemblyHeader] else []

theorem pathsIn_assemblyFlags (rest : List String) :
    pathsIn (assemblyFlags c p ++ rest) = (assemblyPaths c p).map (·.text) ++ pathsIn rest := by
  rw [assemblyFlags, assemblyPaths]
  split
  · simp only [List.cons_append, List.nil_append]
    rw [pathsIn_of_mem_pathFlags (by decide), pathsIn_of_mem_pathFlags (by decide)]
    rfl
  · split
    · rfl
    · exact pathsIn_of_isFlag (by decide) (by decide)

theorem pathOperands_compile (h : ∀ o ∈ p.goPaths, o.isAbsolute = true) :
    (compile c p).pathOperands =
      [c.layout.archive p.importPath, c.layout.importcfg] ++ assemblyPaths c p ++ p.goPaths := by
  have hargs : (compile c p).args = "-o" :: (c.layout.archive p.importPath).text :: "-p" ::
      p.importPath :: "-buildid" :: hashName p.importPath :: "-importcfg" ::
        c.layout.importcfg.text :: ((if isRuntime p then ["-std", "-+"] else []) ++
          (assemblyFlags c p ++ p.goPaths.map (·.text))) := by
    simp [compile, adding, addingPaths]
  have hruntime (rest : List String) :
      pathsIn ((if isRuntime p then ["-std", "-+"] else []) ++ rest) = pathsIn rest := by
    split
    · exact (pathsIn_of_isFlag (by decide) (by decide)).trans
        (pathsIn_of_isFlag (by decide) (by decide))
    · rfl
  refine pathOperands_eq rfl ?_
  rw [hargs, pathsIn_of_mem_pathFlags (by decide),
    pathsIn_of_mem_valueFlags (by decide) (by decide),
    pathsIn_of_mem_valueFlags (by decide) (by decide), pathsIn_of_mem_pathFlags (by decide),
    hruntime, pathsIn_assemblyFlags, pathsIn_map_text h]
  simp

theorem pathOperands_pack :
    (pack c p).pathOperands =
      c.layout.archive p.importPath :: p.asmFiles.map (c.layout.object p.importPath) := by
  have htool : (pack c p).tool = .pack := rfl
  have hargs : (pack c p).args = "r" ::
      (c.layout.archive p.importPath :: p.asmFiles.map (c.layout.object p.importPath)).map
        (·.text) := by
    simp [pack, adding, addingPaths]
  rw [pathOperands, if_pos htool, hargs, List.drop_one, List.tail_cons, map_mk_text]

theorem pathOperands_linkOf {layout : Layout} {importPath : String}
    (h : (layout.archive importPath).isAbsolute = true) :
    (linkOf layout importPath).pathOperands =
      [layout.executable, layout.importcfg, layout.archive importPath] := by
  refine pathOperands_eq rfl ?_
  rw [linkOf, pathsIn_of_mem_pathFlags (by decide), pathsIn_of_isFlag (by decide) (by decide),
    pathsIn_of_mem_pathFlags (by decide), pathsIn_of_not_isFlag (not_isFlag_of_isAbsolute h)]
  simp

/-- **The paths of a package** are absolute if its directory and the build directory are. Only the
assembler is given another one, the headers of the distribution. -/
theorem isAbsolute_or_eq_includeDir (hbase : c.layout.base.isAbsolute = true)
    (hdirectory : p.directory.isAbsolute = true) (hi : i ∈ ofPackage c p)
    (ho : o ∈ i.pathOperands) :
    o.isAbsolute = true ∨ (o = c.target.includeDir ∧ p.hasAssembly = true) := by
  have hfile (file : String) : (p.directory.child file).isAbsolute = true :=
    Path.isAbsolute_child_of_left hdirectory file
  have hbuilt (name : String) : (c.layout.base.child name).isAbsolute = true :=
    Path.isAbsolute_child_of_left hbase name
  have hgo : ∀ o ∈ p.goPaths, o.isAbsolute = true := by
    simp [Package.goPaths, hfile]
  have hasm : ∀ o ∈ p.asmPaths, o.isAbsolute = true := by
    simp [Package.asmPaths, hfile]
  have hcompile (ho : o ∈ (compile c p).pathOperands) : o.isAbsolute = true := by
    rw [pathOperands_compile hgo, List.mem_append, List.mem_append, List.mem_pair] at ho
    rcases ho with ((rfl | rfl) | ho) | ho
    · exact hbuilt _
    · exact hbuilt _
    · rw [assemblyPaths] at ho
      split at ho
      · rcases List.mem_pair.1 ho with rfl | rfl <;> exact hbuilt _
      · cases ho
    · exact hgo o ho
  rw [ofPackage] at hi
  split at hi
  · rename_i hassembly
    simp only [List.mem_append, List.mem_cons, List.mem_map, List.not_mem_nil, or_false] at hi
    rcases hi with ((rfl | rfl) | ⟨file, -, rfl⟩) | rfl
    · rw [pathOperands_symbols hasm, List.mem_append] at ho
      simp only [List.mem_cons, List.not_mem_nil, or_false] at ho
      rcases ho with (rfl | rfl | rfl) | ho
      · exact Or.inl hbase
      · exact Or.inr ⟨rfl, hassembly⟩
      · exact Or.inl (hbuilt _)
      · exact Or.inl (hasm o ho)
    · exact Or.inl (hcompile ho)
    · rw [pathOperands_assemble (hfile file)] at ho
      simp only [List.mem_cons, List.not_mem_nil, or_false] at ho
      rcases ho with rfl | rfl | rfl | rfl
      · exact Or.inl hbase
      · exact Or.inr ⟨rfl, hassembly⟩
      · exact Or.inl (hbuilt _)
      · exact Or.inl (hfile file)
    · rw [pathOperands_pack, List.mem_cons, List.mem_map] at ho
      rcases ho with rfl | ⟨file, -, rfl⟩ <;> exact Or.inl (hbuilt _)
  · obtain rfl := List.mem_singleton.1 hi
    exact Or.inl (hcompile ho)

/-- **With assembly files** the headers of the distribution are included. -/
theorem exists_includeDir_mem (hdirectory : p.directory.isAbsolute = true)
    (hassembly : p.hasAssembly = true) :
    ∃ i ∈ ofPackage c p, c.target.includeDir ∈ i.pathOperands := by
  have hasm : ∀ o ∈ p.asmPaths, o.isAbsolute = true := by
    simp [Package.asmPaths, Path.isAbsolute_child_of_left hdirectory]
  refine ⟨symbols c p, ?_, ?_⟩
  · rw [ofPackage, if_pos hassembly]
    simp
  · rw [pathOperands_symbols hasm]
    simp

end Block

end GoPlanner

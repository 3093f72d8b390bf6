import GoPlanner.Proofs.Build.Closure
import GoPlanner.Proofs.Discovery.Contents
import GoPlanner.Proofs.Layout
import Mathlib.Data.List.Pairwise

/-!
# No Two Commands Write One File

The files that the commands of a build write are named by the import paths of packages, and
these differ, as an import path stands for one package. The root is an exception. It is given
its import path, and nothing keeps another package from having the same one. That package is
compiled to the archive that the root is compiled to.

## Main definitions

* `Invocation.operand?`: the argument that a flag takes.
* `Plan.outputs`: the files that a plan writes.
* `Package.artifacts`: the files that are written for a package.

## Main results

* `Plan.outputs_final`: the files that the plan of a graph writes.
* `Sifts.eq_of_importPath_eq`, `Sifts.hashName_ne_iff`: packages that have one import path.
* `Sifts.pairwise_path_iff`: files that have different paths.
* `planBuild_outputs`: when no two commands of a build write one file.
-/

namespace GoPlanner

open Acting PackageGraph Discovery Telling

/-! ### Operands -/

namespace Invocation

/-- The flags that take an argument. -/
def valueFlags : List String :=
  ["-o", "-p", "-I", "-D", "-buildid", "-importcfg", "-symabis", "-asmhdr"]

/-- The argument that a flag takes. An argument that another flag takes is no flag. -/
def operandIn (flag : String) : List String → Option String
  | argument :: operand :: rest =>
    if argument = flag then some operand
    else if argument ∈ valueFlags then operandIn flag rest
    else operandIn flag (operand :: rest)
  | _ => none

/-- **The argument that a flag takes** in an invocation. -/
def operand? (i : Invocation) (flag : String) : Option String :=
  operandIn flag i.args

/-- **The files that invocations write.** Packing changes an archive that is there. -/
def outputs (invocations : List Invocation) : List Path :=
  (invocations.filter (fun i => i.tool ≠ .pack)).filterMap (fun i => (i.operand? "-o").map Path.mk)

theorem outputs_append {first second : List Invocation} :
    outputs (first ++ second) = outputs first ++ outputs second := by
  rw [outputs, List.filter_append, List.filterMap_append]
  rfl

/-- An invocation that does not pack writes the file behind its flag. -/
theorem outputs_singleton {i : Invocation} {o : Path} (htool : i.tool ≠ .pack)
    (ho : i.operand? "-o" = some o.text) : outputs [i] = [o] := by
  simp [outputs, htool, ho]

end Invocation

/-- **The files that a plan writes.** -/
def Plan.outputs (plan : Plan) : List Path :=
  Invocation.outputs plan.invocations

/-- **The files that are written for a package.** -/
def Package.artifacts (p : Package) : List Artifact :=
  if p.hasAssembly then
    [.symbols p.importPath, .archive p.importPath] ++ p.asmFiles.map (.object p.importPath)
  else [.archive p.importPath]

namespace Block

variable {c : PlanContext} {p : Package} {i : Invocation}

theorem operand?_symbols :
    (symbols c p).operand? "-o" = some (c.layout.symbols p.importPath).text := by
  simp [symbols, assembler, Invocation.operand?, Invocation.operandIn, Invocation.valueFlags,
    Invocation.adding, Invocation.addingPaths]

theorem operand?_assemble {file : String} :
    (assemble c p file).operand? "-o" = some (c.layout.object p.importPath file).text := by
  simp [assemble, assembler, Invocation.operand?, Invocation.operandIn, Invocation.valueFlags,
    Invocation.adding, Invocation.addingPaths]

theorem operand?_compile :
    (compile c p).operand? "-o" = some (c.layout.archive p.importPath).text :=
  rfl

/-- The invocations for a package write its files. -/
theorem outputs_ofPackage (c : PlanContext) (p : Package) :
    Invocation.outputs (ofPackage c p) = p.artifacts.map (Artifact.path c.layout) := by
  have hsymbols : Invocation.outputs [symbols c p] = [c.layout.symbols p.importPath] :=
    Invocation.outputs_singleton (by nofun) operand?_symbols
  have hcompile : Invocation.outputs [compile c p] = [c.layout.archive p.importPath] :=
    Invocation.outputs_singleton (by nofun) operand?_compile
  have hpack : Invocation.outputs [pack c p] = [] := rfl
  have hassembled : Invocation.outputs (p.asmFiles.map (assemble c p)) =
      p.asmFiles.map (c.layout.object p.importPath) := by
    induction p.asmFiles with
    | nil => rfl
    | cons file files ih =>
        have hfile : Invocation.outputs [assemble c p file] = [c.layout.object p.importPath file] :=
          Invocation.outputs_singleton (by nofun) operand?_assemble
        rw [List.map_cons, List.map_cons, ← List.singleton_append, Invocation.outputs_append, ih,
          hfile]
        rfl
  rw [ofPackage, Package.artifacts]
  split
  · rw [← List.singleton_append, Invocation.outputs_append, Invocation.outputs_append,
      Invocation.outputs_append, hsymbols, hcompile, hassembled, hpack]
    simp
  · simp [hcompile]

/-- Every invocation for a package but the packing writes a file. -/
theorem exists_operand (hi : i ∈ ofPackage c p) (hpack : i.tool ≠ .pack) :
    ∃ o, i.operand? "-o" = some o := by
  rw [ofPackage] at hi
  split at hi
  · simp only [List.mem_append, List.mem_cons, List.mem_map, List.not_mem_nil, or_false] at hi
    rcases hi with ((rfl | rfl) | ⟨file, -, rfl⟩) | rfl
    · exact ⟨_, operand?_symbols⟩
    · exact ⟨_, operand?_compile⟩
    · exact ⟨_, operand?_assemble⟩
    · exact absurd rfl hpack
  · obtain rfl := List.mem_singleton.1 hi
    exact ⟨_, operand?_compile⟩

end Block

/-- **The files of a graph:** those of the packages that are built, and the executable. -/
def PackageGraph.artifacts (g : PackageGraph) : List Artifact :=
  (g.toBuild.filterMap g.package?).flatMap Package.artifacts ++ [.executable]

/-- **The plan of a graph writes its files.** -/
theorem Plan.outputs_final (c : PlanContext) (g : PackageGraph) (archives : List (String × Path))
    (importPath : String) :
    ((Plan.final c g archives).withInvocations [linkOf c.layout importPath]).outputs =
      g.artifacts.map (Artifact.path c.layout) := by
  have hblocks : ∀ packages : List Package,
      Invocation.outputs (packages.flatMap (Block.ofPackage c)) =
        (packages.flatMap Package.artifacts).map (Artifact.path c.layout) := by
    intro packages
    induction packages with
    | nil => rfl
    | cons p packages ih =>
        rw [List.flatMap_cons, List.flatMap_cons, Invocation.outputs_append, ih,
          Block.outputs_ofPackage, List.map_append]
  have hlink : Invocation.outputs [linkOf c.layout importPath] = [c.layout.executable] :=
    Invocation.outputs_singleton (by nofun) rfl
  rw [outputs, withInvocations, invocations_final, filter_inBuildOrder,
    Invocation.outputs_append, hblocks, hlink, PackageGraph.artifacts, List.map_append]
  rfl

/-- Every invocation of a plan but the packing writes a file. -/
theorem Plan.exists_operand {c : PlanContext} {g : PackageGraph} {archives : List (String × Path)}
    {importPath : String} {i : Invocation}
    (hi : i ∈ ((Plan.final c g archives).withInvocations [linkOf c.layout importPath]).invocations)
    (hpack : i.tool ≠ .pack) : ∃ o, i.operand? "-o" = some o := by
  rw [withInvocations, invocations_final, List.mem_append] at hi
  rcases hi with hi | hi
  · obtain ⟨p, -, hi⟩ := List.mem_flatMap.1 hi
    exact Block.exists_operand hi hpack
  · obtain rfl := List.mem_singleton.1 hi
    exact ⟨_, rfl⟩

/-! ### Files of packages -/

/-- Being alike is symmetric. -/
theorem Artifact.Alike.symm {a b : Artifact} (h : a.Alike b) : b.Alike a :=
  name_eq_iff.1 (name_eq_iff.2 h).symm

namespace Package

variable {p q : Package} {a b : Artifact}

theorem mem_artifacts : a ∈ p.artifacts ↔ a = .archive p.importPath ∨
    (p.hasAssembly = true ∧
      (a = .symbols p.importPath ∨ ∃ file ∈ p.asmFiles, a = .object p.importPath file)) := by
  rw [artifacts]
  split
  · rename_i h
    simp only [List.mem_append, List.mem_cons, List.mem_map, List.not_mem_nil, or_false, h,
      true_and, eq_comm (b := a)]
    tauto
  · rename_i h
    simp [h]

/-- The files of packages are alike only if their import paths have one hash. -/
theorem hashName_eq_of_alike (ha : a ∈ p.artifacts) (hb : b ∈ q.artifacts) (h : a.Alike b) :
    hashName p.importPath = hashName q.importPath := by
  rcases mem_artifacts.1 ha with rfl | ⟨-, rfl | ⟨file, -, rfl⟩⟩ <;>
    rcases mem_artifacts.1 hb with rfl | ⟨-, rfl | ⟨file', -, rfl⟩⟩ <;>
    first | exact h | exact h.1 | exact h.elim

/-- No file of a package is alike to the executable. -/
theorem not_alike_executable (ha : a ∈ p.artifacts) : ¬ a.Alike .executable := by
  rcases mem_artifacts.1 ha with rfl | ⟨-, rfl | ⟨file, -, rfl⟩⟩ <;> exact fun h => h

/-- **No two files of a package are alike** if no assembly file is listed twice. -/
theorem pairwise_artifacts (h : p.asmFiles.Nodup) :
    p.artifacts.Pairwise (fun a b => ¬ a.Alike b) := by
  rw [artifacts]
  split
  · have hobjects : (p.asmFiles.map (Artifact.object p.importPath)).Pairwise
        (fun a b => ¬ a.Alike b) :=
      List.pairwise_map.2 (h.imp fun hne halike => hne halike.2)
    refine List.pairwise_append.2 ⟨List.pairwise_pair.2 fun h => h, hobjects, ?_⟩
    intro a ha b hb halike
    obtain ⟨file, -, rfl⟩ := List.mem_map.1 hb
    rcases List.mem_pair.1 ha with rfl | rfl <;> exact halike
  · exact List.pairwise_singleton _ _

end Package

/-! ### Files of a graph -/

/-- **No two files of a graph are alike** exactly if no two packages that are built have import
paths with one hash. -/
theorem PackageGraph.pairwise_artifacts_iff {g : PackageGraph}
    (hnodup : ∀ id p, g.package? id = some p → p.asmFiles.Nodup) :
    g.artifacts.Pairwise (fun a b => ¬ a.Alike b) ↔
      ∀ id ∈ g.toBuild, ∀ k ∈ g.toBuild, id ≠ k → ∀ p q, g.package? id = some p →
        g.package? k = some q → hashName p.importPath ≠ hashName q.importPath := by
  constructor
  · intro h id hid k hk hne p q hp hq hhash
    obtain ⟨hpackages, -, -⟩ := List.pairwise_append.1 h
    have hapart := List.pairwise_filterMap.1 (List.pairwise_flatMap.1 hpackages).2
    have hsymm : Std.Symm (fun id k => ∀ p, g.package? id = some p → ∀ q, g.package? k = some q →
        ∀ a ∈ p.artifacts, ∀ b ∈ q.artifacts, ¬ a.Alike b) :=
      ⟨fun id k hpair p hp q hq a ha b hb halike => hpair q hq p hp b hb a ha halike.symm⟩
    exact hapart.forall hid hk hne p hp q hq _ (Package.mem_artifacts.2 (Or.inl rfl)) _
      (Package.mem_artifacts.2 (Or.inl rfl)) hhash
  · intro h
    refine List.pairwise_append.2 ⟨List.pairwise_flatMap.2 ⟨?_, ?_⟩, List.pairwise_singleton _ _, ?_⟩
    · intro p hp
      obtain ⟨id, -, hp⟩ := List.mem_filterMap.1 hp
      exact Package.pairwise_artifacts (hnodup id p hp)
    · refine List.pairwise_filterMap.2 (g.nodup_toBuild.pairwise_of_forall_ne ?_)
      intro id hid k hk hne p hp q hq a ha b hb halike
      exact h id hid k hk hne p q hp hq (Package.hashName_eq_of_alike ha hb halike)
    · intro a ha b hb
      obtain ⟨p, -, ha⟩ := List.mem_flatMap.1 ha
      obtain rfl := List.mem_singleton.1 hb
      exact Package.not_alike_executable ha

namespace Sifts

variable {c : Discovery} {start : Arrival} {precompiled : Bool} {found g : PackageGraph}
  {id k : PackageId} {p q : Package}

/-- **Packages that have one import path** are one package, or one of them is the root. -/
theorem eq_of_importPath_eq (h : Sifts c start precompiled found g)
    (hp : g.package? id = some p) (hq : g.package? k = some q)
    (hpath : p.importPath = q.importPath) (hid : id ≠ root ∨ p.importPath ≠ start.importPath)
    (hk : k ≠ root ∨ q.importPath ≠ start.importPath) : id = k := by
  have hown (p : Package) : p.importPath ∈ p.importPaths := List.mem_cons_self
  have hid' := (h.named hp (hown p)).resolve_right fun hroot =>
    hid.elim (fun hne => hne hroot.1) (fun hne => hne hroot.2)
  have hk' := (h.named hq (hown q)).resolve_right fun hroot =>
    hk.elim (fun hne => hne hroot.1) (fun hne => hne hroot.2)
  rw [hpath] at hid'
  exact Option.some.inj (hid'.symm.trans hk')

/-- In a well-formed tree the assembly files of a package have different names without
slashes. -/
theorem nodup_asmFiles (h : Sifts c start precompiled found g) (htree : c.tree.IsWellFormed)
    (hp : g.package? id = some p) :
    p.asmFiles.Nodup ∧ ∀ file ∈ p.asmFiles, '/' ∉ file.toList := by
  obtain ⟨q, hq, hpq⟩ := h.exists_found hp
  obtain ⟨q', imports, hcomplete⟩ := h.finds.complete (lt_size_of_package? hq)
  obtain rfl : q = q' := Option.some.inj (hq.symm.trans hcomplete.package)
  obtain ⟨r, hstems, hrq⟩ := hcomplete.stems
  have hfiles : p.asmFiles = r.asmFiles := by
    rw [hpq, hrq.fields]
  rw [hfiles]
  rcases hstems.asmFiles with hnil | ⟨place, hsub⟩
  · simp [hnil]
  · exact ⟨(htree.nodup_names place).sublist hsub,
      fun file hfile => htree.slash_notMem (hsub.subset hfile)⟩

/-- In a well-formed tree the files of a graph have plain names. -/
theorem isPlain_artifacts (h : Sifts c start precompiled found g) (htree : c.tree.IsWellFormed)
    {a : Artifact} (ha : a ∈ g.artifacts) : IsPlain a.name := by
  refine Artifact.isPlain_name fun s file heq => ?_
  subst heq
  obtain ⟨p, hp, ha⟩ := List.mem_flatMap.1 ((List.mem_append.1 ha).resolve_right (by simp))
  obtain ⟨id, -, hp⟩ := List.mem_filterMap.1 hp
  rcases Package.mem_artifacts.1 ha with ha | ⟨-, ha | ⟨file', hfile, ha⟩⟩
  · cases ha
  · cases ha
  · obtain ⟨-, rfl⟩ := Artifact.object.inj ha
    exact (h.nodup_asmFiles htree hp).2 file hfile

/-- **The files of a graph have different paths** exactly if no two of them are alike. -/
theorem pairwise_path_iff (h : Sifts c start precompiled found g) (htree : c.tree.IsWellFormed)
    (layout : Layout) :
    (g.artifacts.map (Artifact.path layout)).Pairwise (fun o o' => o.same o' = false) ↔
      g.artifacts.Pairwise (fun a a' => ¬ a.Alike a') := by
  rw [List.pairwise_map]
  refine List.Pairwise.iff_of_mem fun {a a'} ha ha' => ?_
  rw [← Artifact.same_path_iff layout (h.isPlain_artifacts htree ha)
    (h.isPlain_artifacts htree ha'), Bool.not_eq_true]

/-- **Which packages that are built have import paths with one hash:** the root, and others that
have its import path. -/
theorem hashName_ne_iff (h : Sifts c start precompiled found g)
    (hhash : ∀ p ∈ g.packages, ∀ q ∈ g.packages,
      hashName p.importPath = hashName q.importPath → p.importPath = q.importPath) :
    (∀ id ∈ g.toBuild, ∀ k ∈ g.toBuild, id ≠ k → ∀ p q, g.package? id = some p →
        g.package? k = some q → hashName p.importPath ≠ hashName q.importPath) ↔
      ¬ ∃ id p, id ≠ root ∧ g.package? id = some p ∧ p.importPath = start.importPath ∧
        p.isCached = false := by
  constructor
  · rintro hapart ⟨id, p, hid, hp, hpath, hcached⟩
    obtain ⟨r, hr⟩ := exists_package (h.size_eq ▸ h.finds.root_lt_size)
    obtain ⟨hroot, hnone⟩ := h.root_eq hr
    have hbuilt : id ∈ g.toBuild :=
      mem_toBuild.2 ⟨lt_size_of_package? hp, h.leads (lt_size_of_package? hp),
        (isCached_eq hp).trans hcached⟩
    have hrootBuilt : root ∈ g.toBuild :=
      mem_toBuild.2 ⟨lt_size_of_package? hr, h.leads (lt_size_of_package? hr),
        by simp [isCached_eq hr, Package.isCached, hnone]⟩
    refine hapart id hbuilt root hrootBuilt hid p r hp hr ?_
    rw [hpath, hroot]
  · intro hfree id hid k hk hne p q hp hq hsame
    have hpath := hhash p (List.mem_of_getElem? hp) q (List.mem_of_getElem? hq) hsame
    -- A package that is built and has the import path of the root is the root.
    have hbuilt {id : PackageId} {p : Package} (hid : id ∈ g.toBuild)
        (hp : g.package? id = some p) (hpath : p.importPath = start.importPath) : id = root := by
      by_contra hid'
      exact hfree ⟨id, p, hid', hp, hpath, (isCached_eq hp).symm.trans (mem_toBuild.1 hid).2.2⟩
    by_cases hstart : p.importPath = start.importPath
    · exact hne ((hbuilt hid hp hstart).trans (hbuilt hk hq (hpath ▸ hstart)).symm)
    · exact hne (h.eq_of_importPath_eq hp hq hpath (Or.inr hstart) (Or.inr (hpath ▸ hstart)))

/-- **Which import paths are taken twice:** that of the root only. -/
theorem nodup_importPaths_iff (h : Sifts c start precompiled found g) :
    (g.packages.map (·.importPath)).Nodup ↔
      ¬ ∃ id p, id ≠ root ∧ g.package? id = some p ∧ p.importPath = start.importPath := by
  obtain ⟨r, hr⟩ := exists_package (h.size_eq ▸ h.finds.root_lt_size)
  have hget (id : PackageId) :
      (g.packages.map (·.importPath))[id]? = (g.package? id).map (·.importPath) :=
    List.getElem?_map
  constructor
  · rintro hnodup ⟨id, p, hid, hp, hpath⟩
    have hsame : (g.packages.map (·.importPath))[id]? = (g.packages.map (·.importPath))[root]? := by
      rw [hget, hget, hp, hr, Option.map_some, Option.map_some, hpath, (h.root_eq hr).1]
    have hlt : id < (g.packages.map (·.importPath)).length := by
      rw [List.length_map]
      exact lt_size_of_package? hp
    exact hid ((List.getElem?_inj hlt hnodup).1 hsame)
  · intro hfree
    refine List.nodup_iff_getElem?_ne_getElem?.2 fun id k hlt hk hsame => ?_
    rw [List.length_map] at hk
    obtain ⟨p, hp⟩ := exists_package (g := g) (Nat.lt_trans hlt hk)
    obtain ⟨q, hq⟩ := exists_package (g := g) hk
    rw [hget, hget, hp, hq, Option.map_some, Option.map_some, Option.some.injEq] at hsame
    have hkroot : k ≠ root := Nat.ne_of_gt (Nat.zero_lt_of_lt hlt)
    have hpath : q.importPath ≠ start.importPath := fun hpath => hfree ⟨k, q, hkroot, hq, hpath⟩
    exact Nat.ne_of_lt hlt (h.eq_of_importPath_eq hp hq hsame (Or.inr (hsame ▸ hpath))
      (Or.inl hkroot))

end Sifts

/-- **When no two commands write one file.** If different import paths of the graph have
different hashes, no two packages have one import path exactly if no other package has that of
the root, and no two commands write one file exactly if no such package is built. -/
theorem planBuild_outputs {input buildDir : Path} {target : Target} {s s' : Session} {b : Build}
    (h : (planBuild input buildDir target).outcome s = (.ok b, s'))
    (htree : s.tree.IsWellFormed)
    (hhash : ∀ p ∈ b.graph.packages, ∀ q ∈ b.graph.packages,
      hashName p.importPath = hashName q.importPath → p.importPath = q.importPath) :
    (∀ i ∈ b.plan.invocations, i.tool ≠ .pack → ∃ o, i.operand? "-o" = some o) ∧
    (b.plan.outputs.Pairwise (fun o o' => o.same o' = false) ↔
      ¬ ∃ id p, id ≠ root ∧ b.graph.package? id = some p ∧ p.importPath = mainPackage ∧
        p.isCached = false) ∧
    ((b.graph.packages.map (·.importPath)).Nodup ↔
      ¬ ∃ id p, id ≠ root ∧ b.graph.package? id = some p ∧ p.importPath = mainPackage) := by
  have hplanned := planBuild_ok h
  obtain ⟨c, place, found, hfor, hsifts⟩ := sifts_of_discover hplanned.graph
  obtain ⟨archives, rootPath, hplan, -⟩ := hplanned.exists_plan_eq
  have hmain : (rootOf s.tree place).importPath = mainPackage := importPath_rootOf _ _
  rw [← hfor.tree_eq] at htree
  rw [hplan]
  refine ⟨fun i hi htool => Plan.exists_operand hi htool, ?_, ?_⟩
  · rw [Plan.outputs_final ⟨b.layout, target⟩, hsifts.pairwise_path_iff htree,
      PackageGraph.pairwise_artifacts_iff fun id p hp => (hsifts.nodup_asmFiles htree hp).1,
      hsifts.hashName_ne_iff hhash, hmain]
  · rw [hsifts.nodup_importPaths_iff, hmain]

/-- A file tree in which the root package imports one with two assembly files. -/
def assemblyTree : FileTree where
  entries :=
    [(["app"], ⟨.directory, 0⟩),
      (["app", "main.go"], ⟨.file (.text "package main\nimport \"lib\"\n") false, 0⟩),
      (["p"], ⟨.directory, 0⟩), (["p", "lib"], ⟨.directory, 0⟩),
      (["p", "lib", "lib.go"], ⟨.file (.text "package lib\n") false, 0⟩),
      (["p", "lib", "a.s"], ⟨.file (.text "") false, 0⟩),
      (["p", "lib", "b.s"], ⟨.file (.text "") false, 0⟩), (["b"], ⟨.directory, 0⟩)]

/-- The six commands that write files write six. -/
theorem planBuild_outputs_assembly :
    ∃ b s', (planBuild ⟨"/app"⟩ ⟨"/b"⟩ shadowTarget).outcome ⟨assemblyTree, []⟩ = (.ok b, s') ∧
      b.plan.outputs.length = 6 ∧
      b.plan.outputs.Pairwise (fun o o' => o.same o' = false) := by
  have htest : ((planBuild ⟨"/app"⟩ ⟨"/b"⟩ shadowTarget).outcome ⟨assemblyTree, []⟩).1.toOption.any
      (fun b => decide (b.graph.packages.map (·.importPath) = ["main", "lib"] ∧
        b.plan.outputs.length = 6)) = true := by
    decide +kernel
  obtain ⟨b, s', hbuild, hpaths⟩ := exists_ok_of_any htest
  obtain ⟨hpaths, hlength⟩ := of_decide_eq_true hpaths
  have hpath (p : Package) (hp : p ∈ b.graph.packages) : p.importPath ∈ ["main", "lib"] :=
    hpaths ▸ List.mem_map_of_mem hp
  have hhash : ∀ s ∈ ["main", "lib"], ∀ s' ∈ ["main", "lib"], hashName s = hashName s' → s = s' := by
    decide +kernel
  obtain ⟨-, hapart, -⟩ := planBuild_outputs hbuild ⟨by decide, by decide⟩
    fun p hp q hq => hhash _ (hpath p hp) _ (hpath q hq)
  refine ⟨b, s', hbuild, hlength, hapart.2 ?_⟩
  rintro ⟨id, p, hid, hp, hmain, -⟩
  have hget : ["main", "lib"][id]? = some "main" := by
    rw [← hpaths, List.getElem?_map]
    exact congrArg (Option.map (·.importPath)) hp |>.trans (congrArg some hmain)
  match id, hid, hget with
  | 0, hid, _ => exact hid rfl
  | 1, _, hget => exact absurd hget (by decide)

/-- A file tree in which the root package imports a package by its own import path. -/
def namesakeTree : FileTree where
  entries :=
    [(["app"], ⟨.directory, 0⟩),
      (["app", "main.go"], ⟨.file (.text "package main\nimport \"main\"\n") false, 0⟩),
      (["p"], ⟨.directory, 0⟩), (["p", "main"], ⟨.directory, 0⟩),
      (["p", "main", "m.go"], ⟨.file (.text "package m\n") false, 0⟩), (["b"], ⟨.directory, 0⟩)]

/-- **Two packages are compiled to one archive** when one has the import path of the root. -/
theorem exists_output_twice :
    ∃ b s', (planBuild ⟨"/app"⟩ ⟨"/b"⟩ shadowTarget).outcome ⟨namesakeTree, []⟩ = (.ok b, s') ∧
      (∀ p ∈ b.graph.packages, ∀ q ∈ b.graph.packages,
        hashName p.importPath = hashName q.importPath → p.importPath = q.importPath) ∧
      b.graph.packages.map (fun p => (p.directory.text, p.importPath)) =
        [("/app", "main"), ("/p/main", "main")] ∧
      ¬ (b.graph.packages.map (·.importPath)).Nodup ∧
      b.plan.compilations.map (·.operand? "-o") =
        [some (b.layout.archive "main").text, some (b.layout.archive "main").text] ∧
      ¬ b.plan.outputs.Pairwise (fun o o' => o.same o' = false) := by
  have htest : ((planBuild ⟨"/app"⟩ ⟨"/b"⟩ shadowTarget).outcome ⟨namesakeTree, []⟩).1.toOption.any
      (fun b => decide ((∀ p ∈ b.graph.packages, ∀ q ∈ b.graph.packages,
          hashName p.importPath = hashName q.importPath → p.importPath = q.importPath) ∧
        b.graph.packages.map (fun p => (p.directory.text, p.importPath)) =
          [("/app", "main"), ("/p/main", "main")] ∧
        ¬ (b.graph.packages.map (·.importPath)).Nodup ∧
        b.plan.compilations.map (·.operand? "-o") =
          [some (b.layout.archive "main").text, some (b.layout.archive "main").text] ∧
        ¬ b.plan.outputs.Pairwise (fun o o' => o.same o' = false))) = true := by
    decide +kernel
  obtain ⟨b, s', hbuild, hfacts⟩ := exists_ok_of_any htest
  exact ⟨b, s', hbuild, of_decide_eq_true hfacts⟩

end GoPlanner

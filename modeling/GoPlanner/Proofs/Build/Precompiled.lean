import GoPlanner.Proofs.Build.Closure
import GoPlanner.Proofs.FileTree.Descend

/-!
# Builds With a Precompiled Standard Library

Whether the directory of the precompiled archives is there decides how the standard library takes
part in a build. If it is there, the packages of the distribution in a graph are those that have
an archive, and no command is planned for them. If it is not, no archive in it is ever found, and
all packages of the distribution that are imported are built from their sources.

## Main definitions

* `Package.IsPrecompiled`: a package that is nothing but its archive.
* `Discovery.IsStandard`: import paths of the distribution.
* `Discovery.ComesFromSources`: a package that was read in a directory.

## Main results

* `Discovery.Finds.isPrecompiled`, `Sifts.isPrecompiled`: packages of the distribution when their
  archives are there.
* `Locator.locate_ne_archived`: there are no archives without their directory.
* `planBuild_precompiled`: the standard library in a build.
-/

namespace GoPlanner

open Acting PackageGraph Discovery Telling Relation

/-- **A precompiled package** has an archive, and neither imports nor files. -/
structure Package.IsPrecompiled (p : Package) : Prop where
  /-- It has an archive. -/
  cached : p.isCached = true
  /-- It imports nothing. -/
  imports : p.imports = []
  /-- It has no Go files. -/
  goFiles : p.goFiles = []
  /-- It has no assembly files. -/
  asmFiles : p.asmFiles = []

/-! ### With the archives -/

section

variable {c : Discovery} {start : Arrival} {found g : PackageGraph} {id : PackageId} {p : Package}
  {precompiled : Bool}

/-- **Packages of the distribution are precompiled** when a graph is found, as their sources are
not entered. -/
theorem Discovery.Finds.isPrecompiled (h : c.Finds start true g) (hstart : start.isInternal = false)
    (hp : g.package? id = some p) (hinternal : p.isInternal = true) : p.IsPrecompiled := by
  obtain ⟨p', imports, hcomplete⟩ := h.complete (lt_size_of_package? hp)
  obtain rfl : p = p' := Option.some.inj (hp.symm.trans hcomplete.package)
  obtain ⟨q, hstems, hqp⟩ := hcomplete.stems
  have hown : q.isInternal = true := by
    rw [hqp.fields] at hinternal
    exact hinternal
  cases hstems with
  | root _ hread =>
      obtain ⟨contents, -, rfl, -⟩ := hread
      exact absurd hown (by simp [packageOf, hstart])
  | source _ harrives hread =>
      obtain ⟨contents, -, rfl, -⟩ := hread
      have hentered := harrives.entered
      rw [h.precompiled_eq, Bool.and_true] at hentered
      exact absurd hown (by simp [packageOf, hentered])
  | archived _ _ =>
      have hlinked : p.imports = [] := hcomplete.linked
      rw [hqp.fields]
      exact ⟨rfl, hlinked, rfl, rfl⟩

/-- A package that imports nothing keeps its archive. -/
theorem Sifts.isCached_of_leaf (h : Sifts c start precompiled found g) (hid : id < g.size)
    (hleaf : found.importsOf id = []) (hcached : found.isCached id = true) :
    g.isCached id = true := by
  refine (h.isCached_iff hid).2 fun m hleads => ?_
  rcases ReflTransGen.cases_head hleads with rfl | ⟨k, himports, -⟩
  · exact hcached
  · rw [Imports, h.importsOf_eq, hleaf] at himports
    cases himports

/-- **Packages of the distribution stay precompiled** when stale archives are taken away. -/
theorem Sifts.isPrecompiled (h : Sifts c start true found g) (hstart : start.isInternal = false)
    (hp : g.package? id = some p) (hinternal : p.isInternal = true) : p.IsPrecompiled := by
  obtain ⟨q, hq, hpq⟩ := h.exists_found hp
  have hown : q.isInternal = true := by
    rw [hpq] at hinternal
    exact hinternal
  have hfound := h.finds.isPrecompiled hstart hq hown
  have hcached := h.isCached_of_leaf (lt_size_of_package? hp)
    ((PackageGraph.importsOf_eq hq).trans hfound.imports) ((isCached_eq hq).trans hfound.cached)
  refine ⟨(isCached_eq hp).symm.trans hcached, ?_, ?_, ?_⟩
  · rw [hpq]
    exact hfound.imports
  · rw [hpq]
    exact hfound.goFiles
  · rw [hpq]
    exact hfound.asmFiles

theorem isInternal_rootOf (t : FileTree) (place : Place) : (rootOf t place).isInternal = false := by
  rw [rootOf]
  split <;> rfl

end

/-- Packages that are not of the distribution are built without its flags. -/
theorem Block.flags_of_not_isInternal {p : Package} (h : p.isInternal = false) :
    Block.isRuntime p = false ∧ Block.internalFlag p = [] := by
  simp [Block.isRuntime, Block.internalFlag, h]

/-! ### Without the archives -/

/-- The directory of the archives has a path. -/
theorem Target.text_archiveDir_ne (target : Target) : target.archiveDir.text ≠ "" := by
  have hname : '_' ∈ target.platform.toList := by
    simp [platform, String.toList_append]
  intro hempty
  have hmem : '_' ∈ target.archiveDir.text.toList := by
    rw [archiveDir, Path.child, Path.join]
    split
    · exact hname
    · split
      · simp [String.toList_append, hname]
      · simp [String.toList_append, hname]
  simp [hempty] at hmem

/-- **Without the directory of the archives** no import path stands for an archive. -/
theorem Locator.locate_ne_archived {l : Locator} {t : FileTree}
    (hdir : t.isDirectory l.target.archiveDir = false) (s : String) (directory archive : Path) :
    l.locate t s ≠ some (.archived directory archive) := by
  intro h
  have hthere : t.isFile archive = true := Locator.isThere_of_locate h
  obtain ⟨s', hs', -⟩ := (Locator.cases_of_locate h).resolve_left (by simp)
  obtain ⟨path, rfl⟩ := Locator.archive_of_mem_candidates hs'
  rw [FileTree.isFile_descend_eq_false (c := 'a') l.target.text_archiveDir_ne (by simp) (by decide)
    hdir] at hthere
  cases hthere

namespace Discovery

variable {c : Discovery} {start : Arrival} {found g : PackageGraph} {id : PackageId} {p : Package}
  {precompiled : Bool} {s : String}

/-- **An import path of the distribution** is located in it, by its sources or by its archive. -/
def IsStandard (c : Discovery) (importPath : String) : Prop :=
  ∃ directory, c.locator.locate c.tree importPath = some (.source directory true) ∨
    c.IsArchived importPath directory

theorem IsFor.target_eq {t : FileTree} {input buildDir : Path} {target : Target}
    (h : c.IsFor t input buildDir target) : c.locator.target = target := by
  obtain ⟨place, module?, -, -, rfl⟩ := h
  rfl

/-- **A package comes from sources** when it was read in a directory; only its imports, import
paths and archive may have come later. -/
def ComesFromSources (c : Discovery) (p : Package) : Prop :=
  ∃ a isRoot q imports, c.Reads a isRoot q imports ∧
    p = { q with imports := p.imports, aliases := p.aliases, cachedArchive := p.cachedArchive }

/-- Without archives, import paths of the distribution have packages. -/
theorem IsStandard.not_passes (h : c.IsStandard s) : ¬ c.Passes false s := by
  rintro (hbuiltin | ⟨_, -, hprecompiled⟩)
  · obtain ⟨directory, hsource | ⟨archive, harchived⟩⟩ := h
    · cases hbuiltin.symm.trans hsource
    · cases hbuiltin.symm.trans harchived
  · cases hprecompiled

/-- **Without archives,** all packages come from sources. -/
theorem comesFromSources (h : Sifts c start precompiled found g)
    (harchives : ∀ s directory, ¬ c.IsArchived s directory) (hp : g.package? id = some p) :
    c.ComesFromSources p := by
  obtain ⟨q, hq, hpq⟩ := h.exists_found hp
  obtain ⟨q', imports, hcomplete⟩ := h.finds.complete (lt_size_of_package? hq)
  obtain rfl : q = q' := Option.some.inj (hq.symm.trans hcomplete.package)
  obtain ⟨r, hstems, hrq⟩ := hcomplete.stems
  have hfields : p = { r with
      imports := p.imports, aliases := p.aliases, cachedArchive := p.cachedArchive } := by
    rw [hpq, hrq.fields]
  cases hstems with
  | root _ hread => exact ⟨_, _, _, _, hread, hfields⟩
  | source _ _ hread => exact ⟨_, _, _, _, hread, hfields⟩
  | archived _ hlocated => exact absurd ⟨_, hlocated⟩ (harchives _ _)

end Discovery

/-! ### The standard library in a build -/

/-- **The standard library in a build.** If the directory of the precompiled archives is there,
every package of the distribution is precompiled, in the graph that is discovered and when stale
archives have been taken away. All commands but the link are then for packages that are not of
the distribution, and have none of its flags. If the directory is not there, no import path stands
for an archive, so all packages come from sources, and every import path of the distribution that
a package writes has its package in the graph. -/
theorem planBuild_precompiled {input buildDir : Path} {target : Target} {s s' : Session} {b : Build}
    (h : (planBuild input buildDir target).outcome s = (.ok b, s')) :
    (s.tree.isDirectory target.archiveDir = true →
      (∃ found, (discoverAll s.tree input b.layout.base target).outcome.1 = .ok found ∧
        ∀ id p, found.package? id = some p → p.isInternal = true → p.IsPrecompiled) ∧
      (∀ id p, b.graph.package? id = some p → p.isInternal = true → p.IsPrecompiled) ∧
      ∃ rootPath, b.plan.invocations =
          (b.graph.inBuildOrder.filter (fun p => !p.isCached)).flatMap
            (Block.ofPackage ⟨b.layout, target⟩) ++ [linkOf b.layout rootPath] ∧
        ∀ p ∈ b.graph.inBuildOrder.filter (fun p => !p.isCached),
          p.isInternal = false ∧ Block.isRuntime p = false ∧ Block.internalFlag p = []) ∧
    (s.tree.isDirectory target.archiveDir = false →
      ∃ c, IsFor c s.tree input b.layout.base target ∧
        (∀ importPath directory, ¬ c.IsArchived importPath directory) ∧
        (∀ id p, b.graph.package? id = some p → c.ComesFromSources p) ∧
        ∀ id p importPath, b.graph.package? id = some p → p.Writes s.tree importPath →
          c.IsStandard importPath →
          ∃ k q, b.graph.Imports id k ∧ b.graph.package? k = some q ∧
            importPath ∈ q.importPaths) := by
  have hplanned := planBuild_ok h
  obtain ⟨c, place, found, hfor, hsifts⟩ := sifts_of_discover hplanned.graph
  constructor
  · intro hdir
    rw [hdir] at hsifts
    have hprecompiled (id : PackageId) (p : Package) (hp : b.graph.package? id = some p)
        (hinternal : p.isInternal = true) : p.IsPrecompiled :=
      hsifts.isPrecompiled (isInternal_rootOf _ _) hp hinternal
    refine ⟨?_, hprecompiled, ?_⟩
    · obtain ⟨all, hall⟩ := exists_outcome_of_bind hplanned.graph
      obtain ⟨c', place', -, hfinds⟩ := finds_of_discoverAll (ends_of_outcome hall)
      rw [hdir] at hfinds
      exact ⟨all, hall, fun id p hp => hfinds.isPrecompiled (isInternal_rootOf _ _) hp⟩
    · obtain ⟨archives, rootPath, hplan, -⟩ := hplanned.exists_plan_eq
      refine ⟨rootPath, ?_, ?_⟩
      · rw [hplan, Plan.withInvocations, Plan.invocations_final]
      · intro p hmem
        obtain ⟨hlisted, hbuilt⟩ := List.mem_filter.1 hmem
        obtain ⟨id, hid, hp⟩ := PackageGraph.mem_inBuildOrder.1 hlisted
        have hinternal : p.isInternal = false := by
          by_contra hinternal
          have hcached := (hprecompiled id p hp (by simpa using hinternal)).cached
          simp [hcached] at hbuilt
        exact ⟨hinternal, Block.flags_of_not_isInternal hinternal⟩
  · intro hdir
    have harchives (importPath : String) (directory : Path) :
        ¬ c.IsArchived importPath directory := by
      rw [← hfor.target_eq, ← hfor.tree_eq] at hdir
      rintro ⟨archive, hlocated⟩
      exact Locator.locate_ne_archived hdir importPath directory archive hlocated
    refine ⟨c, hfor, harchives, fun id p hp => comesFromSources hsifts harchives hp, ?_⟩
    intro id p importPath hp hwrites hstandard
    rw [hdir] at hsifts
    rw [← hfor.tree_eq] at hwrites
    obtain ⟨k, q, -, himports, hq, hpath⟩ := hsifts.imports_of_writes hp hwrites hstandard.not_passes
    exact ⟨k, q, himports, hq, hpath⟩

/-- A file tree with a program and a Go distribution of two packages, and with other entries. -/
def libraryTree (others : List (Place × Entry)) : FileTree where
  entries := others ++
    [(["g"], ⟨.directory, 0⟩), (["g", "src"], ⟨.directory, 0⟩),
      (["g", "src", "fmt"], ⟨.directory, 0⟩), (["g", "src", "os"], ⟨.directory, 0⟩),
      (["g", "src", "fmt", "fmt.go"], ⟨.file (.text "package fmt\n") false, 0⟩),
      (["g", "src", "os", "os.go"], ⟨.file (.text "package os\n") false, 0⟩),
      (["app"], ⟨.directory, 0⟩), (["b"], ⟨.directory, 0⟩),
      (["app", "main.go"],
        ⟨.file (.text "package main\nimport (\n\"fmt\"\n\"os\"\n)\n") false, 0⟩)]

/-- The archive of one package of the distribution. -/
def libraryArchive : List (Place × Entry) :=
  [(["g", "pkg"], ⟨.directory, 0⟩), (["g", "pkg", "linux_amd64"], ⟨.directory, 0⟩),
    (["g", "pkg", "linux_amd64", "fmt.a"], ⟨.file (.text "") false, 0⟩)]

/-- A target with this distribution. -/
def libraryTarget : Target :=
  { goroot := ⟨"/g"⟩ }

/-- With the archive only one package of the distribution has a place in the graph, and without
it both have. -/
theorem planBuild_precompiled_libraryTree :
    (∃ b s', (planBuild ⟨"/app"⟩ ⟨"/b"⟩ libraryTarget).outcome ⟨libraryTree libraryArchive, []⟩ =
        (.ok b, s') ∧
      b.graph.packages.map (fun p => (p.importPath, p.isInternal)) =
        [("main", false), ("fmt", true)] ∧
      ∀ id p, b.graph.package? id = some p → p.isInternal = true → p.IsPrecompiled) ∧
    ∃ b s' c, (planBuild ⟨"/app"⟩ ⟨"/b"⟩ libraryTarget).outcome ⟨libraryTree [], []⟩ =
        (.ok b, s') ∧
      b.graph.packages.map (fun p => (p.importPath, p.isInternal)) =
        [("main", false), ("fmt", true), ("os", true)] ∧
      IsFor c (libraryTree []) ⟨"/app"⟩ b.layout.base libraryTarget ∧
      ∀ id p, b.graph.package? id = some p → c.ComesFromSources p := by
  have hgraph (others : List (Place × Entry)) (packages : List (String × Bool))
      (htest : ((planBuild ⟨"/app"⟩ ⟨"/b"⟩ libraryTarget).outcome
        ⟨libraryTree others, []⟩).1.toOption.any (fun b => decide
          (b.graph.packages.map (fun p => (p.importPath, p.isInternal)) = packages)) = true) :
      ∃ b s', (planBuild ⟨"/app"⟩ ⟨"/b"⟩ libraryTarget).outcome ⟨libraryTree others, []⟩ =
          (.ok b, s') ∧
        b.graph.packages.map (fun p => (p.importPath, p.isInternal)) = packages := by
    obtain ⟨b, s', h, hpackages⟩ := exists_ok_of_any htest
    exact ⟨b, s', h, of_decide_eq_true hpackages⟩
  constructor
  · obtain ⟨b, s', h, hpackages⟩ := hgraph libraryArchive [("main", false), ("fmt", true)]
      (by decide +kernel)
    have hdir : (libraryTree libraryArchive).isDirectory libraryTarget.archiveDir = true := by
      decide +kernel
    obtain ⟨-, hprecompiled, -⟩ := (planBuild_precompiled h).1 hdir
    exact ⟨b, s', h, hpackages, hprecompiled⟩
  · obtain ⟨b, s', h, hpackages⟩ := hgraph [] [("main", false), ("fmt", true), ("os", true)]
      (by decide +kernel)
    have hdir : (libraryTree []).isDirectory libraryTarget.archiveDir = false := by
      decide +kernel
    obtain ⟨c, hfor, -, hsources, -⟩ := (planBuild_precompiled h).2 hdir
    exact ⟨b, s', c, h, hpackages, hfor, hsources⟩

end GoPlanner

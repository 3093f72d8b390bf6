import GoPlanner.Proofs.Build.Operands
import GoPlanner.Proofs.Settings

/-!
# Commands That Mean the Same in Any Directory

The commands of a plan are executed in the build directory, so the paths that they are given have
to be absolute. Settings of the command line and of the project file are made so, and packages lie
in places. An exception is the directory of the distribution that the process environment names.
If it is a relative one, the headers and the archives of the distribution are named by paths that
lead elsewhere from the build directory.

## Main definitions

* `Settings.Layers.TakesRelativeRoot`: a relative directory of the distribution is in effect.
* `Build.TakesFromRoot`: a build that uses headers or archives of the distribution.

## Main results

* `Settings.Layers.isAbsolute_goroot_iff`: when the directory of the distribution is absolute.
* `Sifts.isAbsolute_directory`, `Sifts.isAbsolute_archiveIn_or`: the paths of packages.
* `planBuild_isAbsolute`: when all paths of a plan are absolute.
-/

namespace GoPlanner

open PackageGraph Discovery

/-! ### Settings -/

namespace Settings

/-- **A relative directory of the distribution** is taken from the process environment when no
layer above names another one. -/
structure Layers.TakesRelativeRoot (l : Layers) (lookup : String → Option String) : Prop where
  /-- The command line names none. -/
  overrides : l.overrides.goroot = none
  /-- The project file names none. -/
  file : l.file.goroot = none
  /-- The environment names a relative one. -/
  relative : ∃ value, Target.setVariable? lookup "GOROOT" = some value ∧
    Path.isAbsolute ⟨value⟩ = false

variable {overrides : Overrides} {project : Option Project} {cwd : Path}
  {lookup : String → Option String}

/-- **The directory of the distribution** is absolute unless it is taken from the environment and
relative there. -/
theorem Layers.isAbsolute_goroot_iff (hcwd : cwd.isAbsolute = true) :
    ((layersOf overrides project cwd).goroot (Target.ofVariables lookup)).isAbsolute = true ↔
      ¬ (layersOf overrides project cwd).TakesRelativeRoot lookup := by
  rw [Layers.goroot]
  split
  · rename_i path hpath
    rw [cwd_layersOf]
    refine iff_of_true (Path.isAbsolute_join_of_left hcwd) fun h => ?_
    rw [h.overrides] at hpath
    cases hpath
  · rename_i path hpath
    refine iff_of_true (Path.isAbsolute_join_of_left (isAbsolute_root_layersOf hcwd)) fun h => ?_
    rw [h.file] at hpath
    cases hpath
  · rename_i hoverrides hfile
    have hbase : (Target.ofVariables lookup).goroot =
        ((Target.setVariable? lookup "GOROOT").map Path.mk).getD ⟨"/usr/local/go"⟩ := rfl
    rw [hbase]
    cases hvalue : Target.setVariable? lookup "GOROOT" with
    | none =>
        refine iff_of_true rfl fun h => ?_
        obtain ⟨value, hset, -⟩ := h.relative
        rw [hvalue] at hset
        cases hset
    | some value =>
        constructor
        · intro habsolute h
          obtain ⟨value', hset, hrelative⟩ := h.relative
          obtain rfl := Option.some.inj (hvalue.symm.trans hset)
          exact Bool.false_ne_true (hrelative.symm.trans habsolute)
        · intro h
          by_contra hrelative
          exact h ⟨hoverrides, hfile, value, hvalue, Bool.eq_false_iff.2 hrelative⟩

/-- **What settings are made of** when they can be put together. -/
theorem resolve_ok {t : FileTree} {input : Path} {base : Target} {settings : Settings}
    (h : resolve t input project overrides base cwd = .ok settings) :
    settings = ⟨cwd.join input, (layersOf overrides project cwd).buildDir,
        (layersOf overrides project cwd).target base⟩ ∧
      settings.target.goos ∈ knownSystems := by
  rcases resolve_cases t input project overrides base cwd with ⟨hpass, hok⟩ | ⟨e, -, herror⟩
  · obtain rfl := Except.ok.inj (hok.symm.trans h)
    exact ⟨rfl, hpass.system⟩
  · cases herror.symm.trans h

end Settings

namespace Target

variable {target : Target}

theorem isAbsolute_includeDir : target.includeDir.isAbsolute = target.goroot.isAbsolute := by
  have hnames : Path.isAbsolute ⟨"pkg"⟩ = false ∧ Path.isAbsolute ⟨"include"⟩ = false := by decide
  rw [includeDir, Path.isAbsolute_child, Path.isAbsolute_child, hnames.1, hnames.2,
    Bool.or_false, Bool.or_false]

theorem isAbsolute_archiveDir (h : target.goos ∈ knownSystems) :
    target.archiveDir.isAbsolute = target.goroot.isAbsolute := by
  have hsystem : ∀ goos ∈ knownSystems, goos ≠ "" ∧ Path.isAbsolute ⟨goos⟩ = false := by decide
  obtain ⟨hne, hrelative⟩ := hsystem _ h
  have hplatform : Path.isAbsolute ⟨target.platform⟩ = false := by
    rw [platform, String.append_assoc]
    exact (Path.isAbsolute_append (p := ⟨target.goos⟩) hne _).trans hrelative
  have hname : Path.isAbsolute ⟨"pkg"⟩ = false := by decide
  rw [archiveDir, Path.isAbsolute_child, Path.isAbsolute_child, hname, hplatform, Bool.or_false,
    Bool.or_false]

end Target

/-! ### Packages -/

namespace Sifts

variable {c : Discovery} {start : Arrival} {precompiled : Bool} {found g : PackageGraph}
  {id : PackageId} {p : Package}

/-- **A package with Go files** lies in a place. -/
theorem isAbsolute_directory (h : Sifts c start precompiled found g)
    (hp : g.package? id = some p) (hfiles : p.goFiles ≠ []) : p.directory.isAbsolute = true := by
  obtain ⟨q, hq, hpq⟩ := h.exists_found hp
  obtain ⟨q', imports, hcomplete⟩ := h.finds.complete (lt_size_of_package? hq)
  obtain rfl : q = q' := Option.some.inj (hq.symm.trans hcomplete.package)
  obtain ⟨r, hstems, hrq⟩ := hcomplete.stems
  rw [hpq] at hfiles ⊢
  change q.goFiles ≠ [] at hfiles
  change q.directory.isAbsolute = true
  rw [hrq.goFiles] at hfiles
  rw [hrq.directory]
  cases hstems with
  | root _ hread =>
      rw [hread.fields.1]
      exact Place.isAbsolute_path _
  | source _ _ hread =>
      rw [hread.fields.1]
      exact Place.isAbsolute_path _
  | archived _ _ => exact absurd rfl hfiles

/-- **The archive of a package** is absolute if the build directory is, or else it lies below the
directory of the archives. -/
theorem isAbsolute_archiveIn_or (h : Sifts c start precompiled found g)
    (hbase : c.layout.base.isAbsolute = true) (hp : g.package? id = some p) :
    (p.archiveIn c.layout).isAbsolute = true ∨
      c.locator.target.archiveDir.IsBelow (p.archiveIn c.layout) := by
  have hown : (c.layout.archive p.importPath).isAbsolute = true :=
    Path.isAbsolute_child_of_left hbase _
  cases hcached : p.cachedArchive with
  | none =>
      rw [Package.archiveIn_of_none hcached]
      exact Or.inl hown
  | some archive =>
      rw [Package.archiveIn_of_some hcached]
      rcases (h.cachedArchive_eq_some hp hcached).2 with rfl | hlocated
      · exact Or.inl hown
      · obtain ⟨s, hs, -⟩ := (Locator.cases_of_locate hlocated).resolve_left (by simp)
        obtain ⟨path, rfl⟩ := Locator.archive_of_mem_candidates hs
        by_cases habsolute : (c.locator.target.archiveDir.descend (path ++ ".a")).isAbsolute = true
        · exact Or.inl habsolute
        · exact Or.inr (Path.isBelow_of_not_isAbsolute (Bool.eq_false_iff.2 habsolute))

end Sifts

/-! ### Builds -/

/-- **A build takes something from the distribution** when the headers are included for the
assembly files of a package that is built, or when an archive has an entry. -/
def Build.TakesFromRoot (b : Build) (target : Target) : Prop :=
  (∃ id ∈ b.graph.toBuild, ∃ p, b.graph.package? id = some p ∧ p.hasAssembly = true) ∨
    ∃ e ∈ b.plan.importcfg.entries, target.archiveDir.IsBelow e.2

namespace Planned

variable {t t' : FileTree} {input : Path} {target : Target} {b : Build} {o : Path}

/-- A package that is built has a directory that is absolute. -/
theorem isAbsolute_directory (h : Planned t input target b t') {id : PackageId} {p : Package}
    (hid : id ∈ b.graph.toBuild) (hp : b.graph.package? id = some p) :
    p.directory.isAbsolute = true := by
  obtain ⟨archives, plan, r, hgenerates, -, -⟩ := h.plan
  obtain ⟨c, place, found, -, hsifts⟩ := sifts_of_discover h.graph
  obtain ⟨hsize, hleads, hcached⟩ := mem_toBuild.1 hid
  refine hsifts.isAbsolute_directory hp fun hfiles => ?_
  have hsources := List.find?_eq_none.1 hgenerates.sources p
    (mem_inBuildOrder.2 ⟨id, hleads, hp⟩)
  rw [isCached_eq hp] at hcached
  exact hsources (by simp [Package.lacksSources, hcached, hfiles])

/-- **The paths of commands** are absolute, but for the headers of the distribution. -/
theorem isAbsolute_of_mem_pathOperands (h : Planned t input target b t')
    (hbase : b.layout.base.isAbsolute = true) {i : Invocation} (hi : i ∈ b.plan.invocations)
    (ho : o ∈ i.pathOperands) :
    o.isAbsolute = true ∨ (o = target.includeDir ∧
      ∃ id ∈ b.graph.toBuild, ∃ p, b.graph.package? id = some p ∧ p.hasAssembly = true) := by
  obtain ⟨archives, importPath, hplan, -⟩ := h.exists_plan_eq
  have hbuilt (name : String) : (b.layout.base.child name).isAbsolute = true :=
    Path.isAbsolute_child_of_left hbase name
  rw [hplan, Plan.withInvocations, Plan.invocations_final, filter_inBuildOrder,
    List.mem_append] at hi
  rcases hi with hi | hi
  · obtain ⟨p, hp, hi⟩ := List.mem_flatMap.1 hi
    obtain ⟨id, hid, hp⟩ := List.mem_filterMap.1 hp
    have hdirectory := h.isAbsolute_directory hid hp
    exact (Block.isAbsolute_or_eq_includeDir hbase hdirectory hi ho).imp_right
      fun hinclude => ⟨hinclude.1, id, hid, p, hp, hinclude.2⟩
  · obtain rfl := List.mem_singleton.1 hi
    rw [Block.pathOperands_linkOf (hbuilt _)] at ho
    simp only [List.mem_cons, List.not_mem_nil, or_false] at ho
    rcases ho with rfl | rfl | rfl <;> exact Or.inl (hbuilt _)

/-- **The archives of entries** are absolute, but for those of the distribution. -/
theorem isAbsolute_of_mem_entries (h : Planned t input target b t')
    (hbase : b.layout.base.isAbsolute = true) {e : String × Path}
    (he : e ∈ b.plan.importcfg.entries) :
    e.2.isAbsolute = true ∨ target.archiveDir.IsBelow e.2 := by
  obtain ⟨archives, importPath, hplan, hstandard⟩ := h.exists_plan_eq
  obtain ⟨c, place, found, hfor, hsifts⟩ := sifts_of_discover h.graph
  have hcfg : b.plan.importcfg = (Plan.final ⟨b.layout, target⟩ b.graph archives).importcfg := by
    rw [hplan]
    rfl
  rw [hcfg, Plan.importcfg_final] at he
  rcases ImportConfig.mem_entries_registerEach he with he | he
  · cases he
  · rcases List.mem_append.1 he with he | he
    · obtain ⟨p, hp, he⟩ := List.mem_flatMap.1 he
      obtain ⟨id, -, hp⟩ := mem_inBuildOrder.1 hp
      obtain ⟨place, module?, -, -, rfl⟩ := hfor
      rw [(mem_entriesIn.1 he).2]
      exact hsifts.isAbsolute_archiveIn_or hbase hp
    · obtain ⟨place, steps, -, -, hsteps⟩ := hstandard e.1 e.2 he
      rw [hsteps]
      by_cases habsolute : (steps.foldl Path.child target.archiveDir).isAbsolute = true
      · exact Or.inl habsolute
      · exact Or.inr (Path.isBelow_of_not_isAbsolute (Bool.eq_false_iff.2 habsolute))

/-- The headers of the distribution are among the paths for a package with assembly files. -/
theorem includeDir_mem_paths (h : Planned t input target b t') {id : PackageId} {p : Package}
    (hid : id ∈ b.graph.toBuild) (hp : b.graph.package? id = some p)
    (hassembly : p.hasAssembly = true) : target.includeDir ∈ b.plan.paths := by
  obtain ⟨archives, importPath, hplan, -⟩ := h.exists_plan_eq
  obtain ⟨i, hi, hmem⟩ := Block.exists_includeDir_mem (c := ⟨b.layout, target⟩)
    (h.isAbsolute_directory hid hp) hassembly
  refine List.mem_append_left _ (List.mem_flatMap.2 ⟨i, ?_, hmem⟩)
  rw [hplan, Plan.withInvocations, Plan.invocations_final, filter_inBuildOrder]
  exact List.mem_append_left _
    (List.mem_flatMap.2 ⟨p, List.mem_filterMap.2 ⟨id, hid, hp⟩, hi⟩)

end Planned

/-- **When commands mean the same in any directory.** For settings that are put together in an
absolute working directory, only headers and archives of the distribution can have relative paths
in a plan. All paths are absolute exactly if the environment does not name a relative directory of
the distribution that takes effect, or nothing is taken from it. A path that is absolute leads to
the same file from every working directory. -/
theorem planBuild_isAbsolute {t : FileTree} {input : Path} {project : Option Project}
    {overrides : Overrides} {lookup : String → Option String} {cwd : Path} {settings : Settings}
    {s s' : Session} {b : Build} (hcwd : cwd.isAbsolute = true)
    (hsettings : Settings.resolve t input project overrides (Target.ofVariables lookup) cwd =
      .ok settings)
    (hbuild : (planBuild settings.input settings.buildDir settings.target).outcome s =
      (.ok b, s')) :
    (∀ o ∈ b.plan.paths, o.isAbsolute = false →
      o = settings.target.includeDir ∨ settings.target.archiveDir.IsBelow o) ∧
    ((∀ o ∈ b.plan.paths, o.isAbsolute = true) ↔
      ¬ ((Settings.layersOf overrides project cwd).TakesRelativeRoot lookup ∧
        b.TakesFromRoot settings.target)) ∧
    ∀ o ∈ b.plan.paths, o.isAbsolute = true → ∀ (t : FileTree) (place : Place),
      ({ t with cwd := place } : FileTree).find o = t.find o := by
  obtain ⟨hmade, hsystem⟩ := Settings.resolve_ok hsettings
  have hplanned := planBuild_ok hbuild
  have hroot : settings.target.goroot.isAbsolute = true ↔
      ¬ (Settings.layersOf overrides project cwd).TakesRelativeRoot lookup := by
    rw [hmade]
    exact Settings.Layers.isAbsolute_goroot_iff hcwd
  have hbase : b.layout.base.isAbsolute = true := by
    have hdir : settings.buildDir.isAbsolute = true := by
      rw [hmade]
      exact Settings.isAbsolute_buildDir hcwd
    have hbase := planBuild_base hbuild
    rw [absolutePath, if_pos hdir] at hbase
    exact Except.ok.inj hbase ▸ hdir
  have hcases {o : Path} (ho : o ∈ b.plan.paths) : o.isAbsolute = true ∨
      (b.TakesFromRoot settings.target ∧
        (o = settings.target.includeDir ∨ settings.target.archiveDir.IsBelow o)) := by
    rcases List.mem_append.1 ho with ho | ho
    · obtain ⟨i, hi, ho⟩ := List.mem_flatMap.1 ho
      refine (hplanned.isAbsolute_of_mem_pathOperands hbase hi ho).imp_right ?_
      exact fun hinclude => ⟨Or.inl hinclude.2, Or.inl hinclude.1⟩
    · obtain ⟨e, he, rfl⟩ := List.mem_map.1 ho
      refine (hplanned.isAbsolute_of_mem_entries hbase he).imp_right ?_
      exact fun hbelow => ⟨Or.inr ⟨e, he, hbelow⟩, Or.inr hbelow⟩
  -- A path of the distribution is absolute if its directory is.
  have hdistribution {o : Path}
      (ho : o = settings.target.includeDir ∨ settings.target.archiveDir.IsBelow o) :
      o.isAbsolute = settings.target.goroot.isAbsolute := by
    rcases ho with rfl | hbelow
    · exact Target.isAbsolute_includeDir
    · exact hbelow.isAbsolute_eq.trans (Target.isAbsolute_archiveDir hsystem)
  refine ⟨?_, ⟨?_, ?_⟩, fun o _ habsolute => FileTree.find_of_isAbsolute habsolute⟩
  · intro o ho hrelative
    rcases hcases ho with habsolute | hfrom
    · exact absurd (hrelative.symm.trans habsolute) Bool.false_ne_true
    · exact hfrom.2
  · rintro habsolute ⟨hrelative, htakes⟩
    refine hroot.1 ?_ hrelative
    rcases htakes with ⟨id, hid, p, hp, hassembly⟩ | ⟨e, he, hbelow⟩
    · rw [← hdistribution (Or.inl rfl)]
      exact habsolute _ (hplanned.includeDir_mem_paths hid hp hassembly)
    · rw [← hdistribution (Or.inr hbelow)]
      exact habsolute _ (List.mem_append_right _ (List.mem_map_of_mem he))
  · intro hneither o ho
    rcases hcases ho with habsolute | ⟨htakes, hfrom⟩
    · exact habsolute
    · rw [hdistribution hfrom]
      exact hroot.2 fun hrelative => hneither ⟨hrelative, htakes⟩

/-- A file tree with a root package in assembly and Go, and a distribution beside it. -/
def besideTree : FileTree where
  entries :=
    [(["w"], ⟨.directory, 0⟩), (["w", "app"], ⟨.directory, 0⟩),
      (["w", "app", "main.go"], ⟨.file (.text "package main\nimport \"fmt\"\n") false, 0⟩),
      (["w", "app", "add.s"], ⟨.file (.text "") false, 0⟩), (["w", "go"], ⟨.directory, 0⟩),
      (["w", "go", "pkg"], ⟨.directory, 0⟩), (["w", "go", "pkg", "include"], ⟨.directory, 0⟩),
      (["w", "go", "pkg", "linux_amd64"], ⟨.directory, 0⟩),
      (["w", "go", "pkg", "linux_amd64", "fmt.a"], ⟨.file (.text "") false, 0⟩),
      (["w", "build"], ⟨.directory, 0⟩)]
  cwd := ["w"]

/-- An environment in which the distribution is beside the working directory. -/
def besideVariables (name : String) : Option String :=
  if name = "GOROOT" then some "go" else none

/-- The settings that name the distribution on the command line as well. -/
def besideSettings : Settings where
  input := ⟨"/w/app"⟩
  buildDir := ⟨"/w/build"⟩
  target := { goroot := ⟨"/w/go"⟩ }

theorem resolve_besideTree :
    Settings.resolve besideTree ⟨"app"⟩ none { goroot := some ⟨"go"⟩ }
      (Target.ofVariables besideVariables) ⟨"/w"⟩ = .ok besideSettings := by
  decide +kernel

/-- **The command line hides the environment,** so all paths are absolute. -/
theorem planBuild_isAbsolute_besideTree :
    ∃ b s', (planBuild besideSettings.input besideSettings.buildDir besideSettings.target).outcome
        ⟨besideTree, []⟩ = (.ok b, s') ∧
      (∀ o ∈ b.plan.paths, o.isAbsolute = true) ∧
      ⟨"/w/go/pkg/include"⟩ ∈ b.plan.paths ∧ ⟨"/w/go/pkg/linux_amd64/fmt.a"⟩ ∈ b.plan.paths := by
  have htest : ((planBuild besideSettings.input besideSettings.buildDir
      besideSettings.target).outcome ⟨besideTree, []⟩).1.toOption.any
      (fun b => decide (⟨"/w/go/pkg/include"⟩ ∈ b.plan.paths ∧
        ⟨"/w/go/pkg/linux_amd64/fmt.a"⟩ ∈ b.plan.paths)) = true := by
    decide +kernel
  obtain ⟨b, s', hbuild, hpaths⟩ := exists_ok_of_any htest
  obtain ⟨-, habsolute, -⟩ := planBuild_isAbsolute (by decide) resolve_besideTree hbuild
  refine ⟨b, s', hbuild, habsolute.2 fun hrelative => ?_, of_decide_eq_true hpaths⟩
  cases hrelative.1.overrides

/-- The settings that take the directory of the distribution from the environment. -/
def strayingSettings : Settings :=
  { besideSettings with target := { goroot := ⟨"go"⟩ } }

theorem resolve_straying :
    Settings.resolve besideTree ⟨"app"⟩ none {} (Target.ofVariables besideVariables) ⟨"/w"⟩ =
      .ok strayingSettings := by
  decide +kernel

/-- **A relative directory of the distribution** makes the headers and an archive lead nowhere
from the build directory, though planning has found the archive. -/
theorem exists_relative_operand :
    Path.isAbsolute ⟨"/w"⟩ = true ∧
    Settings.resolve besideTree ⟨"app"⟩ none {} (Target.ofVariables besideVariables) ⟨"/w"⟩ =
      .ok strayingSettings ∧
    ∃ b s', (planBuild strayingSettings.input strayingSettings.buildDir
        strayingSettings.target).outcome ⟨besideTree, []⟩ = (.ok b, s') ∧
      (∃ i ∈ b.plan.invocations, i.tool = .asm ∧ ⟨"go/pkg/include"⟩ ∈ i.pathOperands) ∧
      b.plan.importcfg.archive? "fmt" = some ⟨"go/pkg/linux_amd64/fmt.a"⟩ ∧
      ∀ o ∈ [(⟨"go/pkg/include"⟩ : Path), ⟨"go/pkg/linux_amd64/fmt.a"⟩], o.isAbsolute = false ∧
        besideTree.isPresent o = true ∧
        ({ besideTree with cwd := ["w", "build"] } : FileTree).isPresent o = false := by
  have htest : ((planBuild strayingSettings.input strayingSettings.buildDir
      strayingSettings.target).outcome ⟨besideTree, []⟩).1.toOption.any
      (fun b => decide ((∃ i ∈ b.plan.invocations,
          i.tool = .asm ∧ ⟨"go/pkg/include"⟩ ∈ i.pathOperands) ∧
        b.plan.importcfg.archive? "fmt" = some ⟨"go/pkg/linux_amd64/fmt.a"⟩)) = true := by
    decide +kernel
  obtain ⟨b, s', hbuild, hpaths⟩ := exists_ok_of_any htest
  obtain ⟨hinclude, harchive⟩ := of_decide_eq_true hpaths
  exact ⟨by decide, resolve_straying, b, s', hbuild, hinclude, harchive, by decide +kernel⟩

end GoPlanner

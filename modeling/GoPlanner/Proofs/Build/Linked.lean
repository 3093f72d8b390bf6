import GoPlanner.Proofs.Build.Outputs

/-!
# What Is Compiled Is What Is Linked

A compilation writes the archive of a package, and the import configuration says from which
archive an import path is read. For most import paths of a package that is compiled this is the
archive that its compilation writes. There are two exceptions, as the last registration counts.
All archives of the standard library are registered after the packages, also for an import path
that is found elsewhere. The root is registered after all other packages, also if one of them
has the import path of the root.

## Main definitions

* `Package.linkedArchive`: the archive from which a package is read.

## Main results

* `Planned.exists_final`: the plan of a build, and the files that were written for it.
* `planBuild_linked`: the entries of packages that are compiled.
-/

namespace GoPlanner

open Acting PackageGraph Discovery ImportConfig Telling

/-! ### Archives that are listed -/

/-- **The same archives are listed** when a file is written again. -/
theorem FileTree.archivesIn_write_again {t t' t'' : FileTree} {p directory : Path} {c c' : Content}
    (h : t.write p c = .ok t') (h' : t'.write p c' = .ok t'')
    (hdir : t'.isDirectory directory = true) :
    t''.archivesIn directory = t'.archivesIn directory := by
  obtain ⟨place, hfind⟩ := isDirectory_iff.1 hdir
  have hfind' := (retains_write h').find_directory hfind
  rw [archivesIn, archivesIn, hfind, hfind']
  exact congrArg (fun files => Except.ok (files.filterMap (archiveAt? directory)))
    (filesBelow_write_again h h' place)

/-- **The plan of a build** is that of its graph with the archives of the standard library,
and its import configuration has been written. -/
theorem Planned.exists_final {t t' : FileTree} {input : Path} {target : Target} {b : Build}
    (h : Planned t input target b t') :
    ∃ archives importPath place executable,
      b.plan = (Plan.final ⟨b.layout, target⟩ b.graph archives).withInvocations
        [linkOf b.layout importPath] ∧
      standardArchives b.graph t' target = .ok archives ∧
      t'.resolveWrite b.layout.importcfg = .ok place ∧
      t'.node? place = some (.file (.text b.plan.importcfg.render) executable) := by
  obtain ⟨archives, plan, r, hgenerates, -, hplan⟩ := h.plan
  obtain ⟨c, place, found, -, hsifts⟩ := sifts_of_discover h.graph
  obtain ⟨t₁, t₂, hdirs, hempty, harchives, hlast⟩ := hgenerates.files
  obtain ⟨written, hroot, -, ht', hresolve⟩ := FileTree.write_ok hlast
  refine ⟨archives, r.importPath, written, t₂.isExecutableAt written, by rw [hplan, hgenerates.plan_eq],
    ?_, hresolve, ?_⟩
  · rw [standardArchives] at harchives ⊢
    split at harchives
    · rename_i hprecompiled
      rw [if_pos hprecompiled]
      rw [hsifts.precompiled_eq, FileTree.isDirectory_iff] at hprecompiled
      obtain ⟨place, hfind⟩ := hprecompiled
      have hretains := (FileTree.retains_makeDirectories hdirs).trans (FileTree.retains_write hempty)
      have hdir := FileTree.isDirectory_iff.2 ⟨place, hretains.find_directory hfind⟩
      rwa [FileTree.archivesIn_write_again hempty hlast hdir]
    · rename_i hprecompiled
      rwa [if_neg hprecompiled]
  · rw [ht', FileTree.setContent, FileTree.node?_put _ hroot, if_pos rfl, hplan]
    rfl

/-! ### Entries of packages -/

/-- **The archive from which a package is read** by one of its import paths, given the archives
of the standard library: the one of them that is registered last for the import path, else
that of the root for the import path of the root, and that of the package for any other one. -/
def Package.linkedArchive (p : Package) (layout : Layout) (archives : List (String × Path))
    (importPath : String) : Path :=
  (archives.reverse.lookup importPath).getD
    (if importPath = mainPackage then layout.archive mainPackage else p.archiveIn layout)

/-- **A package is read from its own archive** if the standard library has none for the import
path, and this is not that of another package, the root. -/
theorem Package.linkedArchive_eq {p : Package} {layout : Layout} {archives : List (String × Path)}
    {importPath : String} (hnone : p.cachedArchive = none)
    (hstandard : ∀ archive, (importPath, archive) ∉ archives)
    (hmain : importPath = mainPackage → p.importPath = mainPackage) :
    p.linkedArchive layout archives importPath = layout.archive p.importPath := by
  have hlookup : archives.reverse.lookup importPath = none := by
    rw [lookup_eq_none_iff]
    rintro ⟨other, archive⟩ he rfl
    exact hstandard archive (List.mem_reverse.1 he)
  rw [linkedArchive, hlookup, Option.getD_none]
  split
  · rename_i hpath
    rw [hmain hpath]
  · exact Package.archiveIn_of_none hnone

/-- A package that is compiled is given its import path and its archive. -/
theorem Block.operands_compile (c : PlanContext) (p : Package) :
    (compile c p).operand? "-p" = some p.importPath ∧
      (compile c p).operand? "-o" = some (c.layout.archive p.importPath).text :=
  ⟨rfl, rfl⟩

/-- **What is compiled is what is linked,** but for two kinds of import paths. Every compilation
is that of a package, and the import configuration, in the plan and on disk, has one entry for
each import path of the package. This is the archive that the compilation writes if the
standard library has no archive for the import path, and if it is not the import path of the
root, or the package is the root. -/
theorem planBuild_linked {input buildDir : Path} {target : Target} {s s' : Session} {b : Build}
    (h : (planBuild input buildDir target).outcome s = (.ok b, s')) :
    ∃ archives place executable,
      standardArchives b.graph s'.tree target = .ok archives ∧
      s'.tree.resolveWrite b.layout.importcfg = .ok place ∧
      s'.tree.node? place = some (.file (.text b.plan.importcfg.render) executable) ∧
      ∀ i ∈ b.plan.invocations, i.tool = .compile →
        ∃ id p, b.graph.package? id = some p ∧ p.cachedArchive = none ∧
          i.operand? "-p" = some p.importPath ∧
          i.operand? "-o" = some (b.layout.archive p.importPath).text ∧
          ∀ importPath ∈ p.importPaths,
            b.plan.importcfg.archive? importPath =
              some (p.linkedArchive b.layout archives importPath) ∧
            ((∀ archive, (importPath, archive) ∉ archives) →
              (importPath = mainPackage → p.importPath = mainPackage) →
              b.plan.importcfg.archive? importPath = some (b.layout.archive p.importPath)) := by
  have hplanned := planBuild_ok h
  obtain ⟨c, place, found, hfor, hsifts⟩ := sifts_of_discover hplanned.graph
  obtain ⟨archives, rootPath, written, executable, hplan, harchives, hresolve, hfile⟩ :=
    hplanned.exists_final
  refine ⟨archives, written, executable, harchives, hresolve, hfile, ?_⟩
  intro i hi htool
  have hcompilation : i ∈ b.plan.compilations := List.mem_filter.2 ⟨hi, by simpa using htool⟩
  rw [hplan, Plan.compilations_final ⟨b.layout, target⟩] at hcompilation
  obtain ⟨p, hp, rfl⟩ := List.mem_map.1 hcompilation
  obtain ⟨id, hid, hp⟩ := List.mem_filterMap.1 hp
  have hnone : p.cachedArchive = none := by
    simpa [isCached_eq hp, Package.isCached] using (mem_toBuild.1 hid).2.2
  obtain ⟨hpath, houtput⟩ := Block.operands_compile ⟨b.layout, target⟩ p
  refine ⟨id, p, hp, hnone, hpath, houtput, fun importPath hs => ?_⟩
  have hentry : b.plan.importcfg.archive? importPath =
      some (p.linkedArchive b.layout archives importPath) := by
    have hcfg : b.plan.importcfg = (Plan.final ⟨b.layout, target⟩ b.graph archives).importcfg := by
      rw [hplan]
      rfl
    have hfinal := hsifts.archive?_final b.layout target archives hp hs
    rw [importPath_rootOf] at hfinal
    rw [hcfg, Package.linkedArchive]
    by_cases hmain : importPath = mainPackage
    · simpa [hmain] using hfinal
    · simpa [hmain] using hfinal
  refine ⟨hentry, fun hstandard hmain => ?_⟩
  rw [hentry, Package.linkedArchive_eq hnone hstandard hmain]

/-- A file tree in which the root package imports one from its own `vendor` directory, of which
the standard library has an archive, and another one under two import paths. -/
def vendorTree : FileTree where
  entries :=
    [(["g"], ⟨.directory, 0⟩), (["g", "pkg"], ⟨.directory, 0⟩),
      (["g", "pkg", "linux_amd64"], ⟨.directory, 0⟩),
      (["g", "pkg", "linux_amd64", "fmt.a"], ⟨.file (.text "") false, 0⟩),
      (["app"], ⟨.directory, 0⟩),
      (["app", "main.go"],
        ⟨.file (.text "package main\nimport (\n\"fmt\"\n\"lib\"\n\"lib/v2\"\n)\n") false, 0⟩),
      (["app", "vendor"], ⟨.directory, 0⟩), (["app", "vendor", "fmt"], ⟨.directory, 0⟩),
      (["app", "vendor", "fmt", "fmt.go"], ⟨.file (.text "package fmt\n") false, 0⟩),
      (["p"], ⟨.directory, 0⟩), (["p", "lib"], ⟨.directory, 0⟩),
      (["p", "lib", "lib.go"], ⟨.file (.text "package lib\n") false, 0⟩), (["b"], ⟨.directory, 0⟩)]

/-- A target with a Go distribution in this tree. -/
def vendorTarget : Target :=
  { goroot := ⟨"/g"⟩, searchPath := [⟨"/p"⟩] }

/-- Both import paths of one package are read from the archive that is compiled. -/
theorem planBuild_linked_vendorTree :
    ∃ b s', (planBuild ⟨"/app"⟩ ⟨"/b"⟩ vendorTarget).outcome ⟨vendorTree, []⟩ = (.ok b, s') ∧
      ∃ i ∈ b.plan.compilations, i.operand? "-p" = some "lib" ∧
        i.operand? "-o" = some (b.layout.archive "lib").text ∧
        b.plan.importcfg.archive? "lib" = some (b.layout.archive "lib") ∧
        b.plan.importcfg.archive? "lib/v2" = some (b.layout.archive "lib") := by
  have htest : ((planBuild ⟨"/app"⟩ ⟨"/b"⟩ vendorTarget).outcome ⟨vendorTree, []⟩).1.toOption.any
      (fun b => decide ((∃ i ∈ b.plan.compilations, i.operand? "-p" = some "lib") ∧
        (∀ p ∈ b.graph.packages, p.importPath = "lib" → p.importPaths = ["lib", "lib/v2"]) ∧
        (standardArchives b.graph ((planBuild ⟨"/app"⟩ ⟨"/b"⟩ vendorTarget).outcome
          ⟨vendorTree, []⟩).2.tree vendorTarget).toOption.map (·.map (·.1)) = some ["fmt"])) = true := by
    decide +kernel
  obtain ⟨b, s', hbuild, hfacts⟩ := exists_ok_of_any htest
  obtain ⟨⟨i, hi, hpath⟩, hpaths, hnames⟩ := of_decide_eq_true hfacts
  obtain ⟨archives, place, executable, harchives, -, -, hlinked⟩ := planBuild_linked hbuild
  obtain ⟨hmem, htool⟩ := List.mem_filter.1 hi
  obtain ⟨id, p, hp, -, hown, houtput, hentries⟩ := hlinked i hmem (by simpa using htool)
  have hlib : p.importPath = "lib" := Option.some.inj (hown.symm.trans hpath)
  rw [hbuild, harchives] at hnames
  replace hnames : archives.map (·.1) = ["fmt"] := Option.some.inj hnames
  have hstandard (s : String) (hs : s ≠ "fmt") (archive : Path) : (s, archive) ∉ archives := by
    intro hmem
    have hname : s ∈ archives.map (·.1) := List.mem_map_of_mem hmem
    rw [hnames] at hname
    exact hs (List.mem_singleton.1 hname)
  have hboth := hpaths p (List.mem_of_getElem? hp) hlib
  rw [hlib] at houtput hentries
  rw [hboth] at hentries
  exact ⟨b, s', hbuild, i, hi, hpath, houtput,
    (hentries "lib" (by simp)).2 (hstandard _ (by decide)) (by decide),
    (hentries "lib/v2" (by simp)).2 (hstandard _ (by decide)) (by decide)⟩

/-- **A package is compiled and another one is linked** in its place: the archive of the standard
library replaces the entry of the package that was found in the `vendor` directory. -/
theorem exists_compiled_not_linked :
    ∃ b s', (planBuild ⟨"/app"⟩ ⟨"/b"⟩ vendorTarget).outcome ⟨vendorTree, []⟩ = (.ok b, s') ∧
      (∃ p ∈ b.graph.packages, p.importPath = "fmt" ∧ p.directory.text = "/app/vendor/fmt") ∧
      (∃ i ∈ b.plan.compilations, i.operand? "-p" = some "fmt" ∧
        i.operand? "-o" = some (b.layout.archive "fmt").text) ∧
      b.plan.importcfg.archive? "fmt" = some ⟨"/g/pkg/linux_amd64/fmt.a"⟩ ∧
      (b.layout.archive "fmt").same ⟨"/g/pkg/linux_amd64/fmt.a"⟩ = false := by
  have htest : ((planBuild ⟨"/app"⟩ ⟨"/b"⟩ vendorTarget).outcome ⟨vendorTree, []⟩).1.toOption.any
      (fun b => decide (
        (∃ p ∈ b.graph.packages, p.importPath = "fmt" ∧ p.directory.text = "/app/vendor/fmt") ∧
        (∃ i ∈ b.plan.compilations, i.operand? "-p" = some "fmt" ∧
          i.operand? "-o" = some (b.layout.archive "fmt").text) ∧
        b.plan.importcfg.archive? "fmt" = some ⟨"/g/pkg/linux_amd64/fmt.a"⟩ ∧
        (b.layout.archive "fmt").same ⟨"/g/pkg/linux_amd64/fmt.a"⟩ = false)) = true := by
    decide +kernel
  obtain ⟨b, s', hbuild, hfacts⟩ := exists_ok_of_any htest
  exact ⟨b, s', hbuild, of_decide_eq_true hfacts⟩

end GoPlanner

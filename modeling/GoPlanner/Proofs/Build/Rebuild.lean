import GoPlanner.Proofs.Build.Planned
import GoPlanner.Proofs.Discovery.Contents

/-!
# What Is Built Again

A package keeps its archive as long as no package that it leads to is stale. The root is
always built. So the packages that are compiled are the root and those that lead to a stale
package, and all others have an archive that is there.

## Main definitions

* `Discovery.IsStale`: a package that is outdated by itself.
* `PackageGraph.toBuild`, `Plan.compilations`: the packages that are built, and what compiles
  them.

## Main results

* `Discovery.Finds.isCached_eq_false_iff`: which packages are found without an archive.
* `planBuild_compilations`: the packages that are compiled.
-/

namespace GoPlanner

open Acting PackageGraph Discovery Telling Relation

namespace Discovery

variable {c : Discovery} {start a : Arrival} {precompiled : Bool} {g : PackageGraph}
  {id : PackageId} {p : Package} {imports : List String}

/-! ### Packages without archives -/

/-- **A package is stale** by itself when it stands for no archive of the standard library,
and its own archive is missing or older than something in its directory. -/
def IsStale (c : Discovery) (g : PackageGraph) (id : PackageId) : Prop :=
  ∃ p, g.package? id = some p ∧ ¬ c.IsArchived p.importPath p.directory ∧
    IsOutdated c.tree c.layout p.importPath p.directory

/-- The archive of a package that was read. -/
theorem Reads.cachedArchive {isRoot : Bool} (h : c.Reads a isRoot p imports) :
    p.cachedArchive =
      if isRoot then none else c.tree.usableArchive? c.layout a.importPath a.directory := by
  obtain ⟨contents, -, rfl, -⟩ := h
  rw [packageOf, archiveFor]

/-- The root starts without an archive. -/
theorem Stems.cachedArchive_root (h : c.Stems start precompiled PackageGraph.root p imports) :
    p.cachedArchive = none := by
  cases h with
  | root _ hread => exact hread.cachedArchive
  | source hid => exact absurd rfl hid
  | archived hid => exact absurd rfl hid

/-- **Other packages start without an archive** exactly when they are stale. -/
theorem Stems.cachedArchive_eq_none_iff (h : c.Stems start precompiled id p imports)
    (hid : id ≠ PackageGraph.root) :
    p.cachedArchive = none ↔ ¬ c.IsArchived p.importPath p.directory ∧
      IsOutdated c.tree c.layout p.importPath p.directory := by
  cases h with
  | root hroot => exact absurd hroot hid
  | source hother harrives hread =>
      rename_i s a
      obtain ⟨found, hlist⟩ := hread.exists_list harrives.onlyFile
      obtain ⟨hdirectory, hpath, -, -⟩ := hread.fields
      rw [hread.cachedArchive, hdirectory, hpath, if_neg Bool.false_ne_true,
        FileTree.usableArchive?_eq_none_iff hlist]
      obtain ⟨directory, hlocated, -⟩ := harrives.located
      have hsource : ¬ c.IsArchived a.importPath a.directory := by
        rintro ⟨archive, harchive⟩
        rw [harrives.importPath, hlocated] at harchive
        cases Option.some.inj harchive
      exact (and_iff_right hsource).symm
  | archived hother hlocated =>
      rename_i s directory archive
      have harchived : c.IsArchived s directory := ⟨archive, hlocated⟩
      exact iff_of_false (by simp [archivedPackage]) (fun hstale => hstale.1 harchived)

/-- **The archive that a package starts with** is there. -/
theorem Stems.cachedArchive_eq_some (h : c.Stems start precompiled id p imports) {archive : Path}
    (harchive : p.cachedArchive = some archive) :
    c.tree.isPresent archive = true ∧
      (archive = c.layout.archive p.importPath ∨
        c.locator.locate c.tree p.importPath = some (.archived p.directory archive)) := by
  cases h with
  | root _ hread =>
      rw [hread.cachedArchive] at harchive
      cases harchive
  | source _ harrives hread =>
      rw [hread.cachedArchive, if_neg Bool.false_ne_true] at harchive
      obtain ⟨hown, hpresent⟩ := FileTree.usableArchive?_eq_some harchive
      exact ⟨hpresent, Or.inl (hread.fields.2.1 ▸ hown)⟩
  | archived _ hlocated =>
      obtain rfl := Option.some.inj harchive
      exact ⟨FileTree.isPresent_of_isFile (Locator.isThere_of_locate hlocated), Or.inr hlocated⟩

/-- **Which packages are found without an archive:** the root and the stale ones. -/
theorem Finds.isCached_eq_false_iff (h : c.Finds start precompiled g) (hid : id < g.size) :
    g.isCached id = false ↔ id = PackageGraph.root ∨ c.IsStale g id := by
  obtain ⟨p, imports, hp⟩ := h.complete hid
  obtain ⟨q, hstems, hqp⟩ := hp.stems
  have hcached : g.isCached id = false ↔ q.cachedArchive = none := by
    rw [isCached_eq hp.package, Package.isCached, hqp.cachedArchive]
    simp
  by_cases hroot : id = PackageGraph.root
  · subst hroot
    exact iff_of_true (hcached.2 hstems.cachedArchive_root) (Or.inl rfl)
  · rw [hcached, hstems.cachedArchive_eq_none_iff hroot, or_iff_right hroot]
    constructor
    · intro hstale
      exact ⟨p, hp.package, by rwa [hqp.importPath, hqp.directory]⟩
    · rintro ⟨p', hp', hstale⟩
      obtain rfl : p' = p := Option.some.inj (hp'.symm.trans hp.package)
      rwa [hqp.importPath, hqp.directory] at hstale

/-- The archives that are found are there. -/
theorem Finds.cachedArchive_eq_some (h : c.Finds start precompiled g)
    (hp : g.package? id = some p) {archive : Path} (harchive : p.cachedArchive = some archive) :
    c.tree.isPresent archive = true ∧
      (archive = c.layout.archive p.importPath ∨
        c.locator.locate c.tree p.importPath = some (.archived p.directory archive)) := by
  obtain ⟨p', imports, hcomplete⟩ := h.complete (lt_size_of_package? hp)
  obtain rfl : p = p' := Option.some.inj (hp.symm.trans hcomplete.package)
  obtain ⟨q, hstems, hqp⟩ := hcomplete.stems
  rw [hqp.cachedArchive] at harchive
  rw [hqp.importPath, hqp.directory]
  exact hstems.cachedArchive_eq_some harchive

end Discovery

/-! ### Packages that are built -/

namespace Sifts

variable {c : Discovery} {start : Arrival} {precompiled : Bool} {found g : PackageGraph}
  {id : PackageId}

/-- Taking archives away makes no package stale. -/
theorem isStale_iff (h : Sifts c start precompiled found g) :
    c.IsStale g id ↔ c.IsStale found id := by
  simp only [IsStale]
  rw [h.package?_eq]
  cases found.package? id with
  | none => simp
  | some p => by_cases hlost : found.lostAmong found.buildOrder id = true <;> simp [hlost]

/-- Only the root leads to the root. -/
theorem eq_root_of_leads (h : Sifts c start precompiled found g) (hid : id < g.size)
    (hleads : g.Leads id root) : id = root := by
  rcases ReflTransGen.cases_head (h.leads hid) with hroot | ⟨k, hk, hback⟩
  · exact hroot.symm
  · have hgrounded : g.Grounded root := h.grounded hk.importer_lt
    exact absurd (hback.trans hleads) (hgrounded.not_leads_back hk)

/-- **Which packages are built:** the root, and those that lead to a stale one. -/
theorem isCached_eq_false_iff (h : Sifts c start precompiled found g) (hid : id < g.size) :
    g.isCached id = false ↔ id = root ∨ ∃ m, g.Leads id m ∧ c.IsStale g m := by
  have hlost : g.isCached id = false ↔ ∃ m, g.Leads id m ∧ found.isCached m = false := by
    rw [← Bool.not_eq_true, h.isCached_iff hid]
    simp
  rw [hlost]
  constructor
  · rintro ⟨m, hleads, hm⟩
    have hsize : m < found.size := h.size_eq ▸ hleads.lt_size h.closed hid
    rcases (h.finds.isCached_eq_false_iff hsize).1 hm with rfl | hstale
    · exact Or.inl (h.eq_root_of_leads hid hleads)
    · exact Or.inr ⟨m, hleads, h.isStale_iff.2 hstale⟩
  · rintro (rfl | ⟨m, hleads, hstale⟩)
    · have hroot := h.finds.root_lt_size
      exact ⟨_, ReflTransGen.refl, (h.finds.isCached_eq_false_iff hroot).2 (Or.inl rfl)⟩
    · have hsize : m < found.size := h.size_eq ▸ hleads.lt_size h.closed hid
      exact ⟨m, hleads,
        (h.finds.isCached_eq_false_iff hsize).2 (Or.inr (h.isStale_iff.1 hstale))⟩

/-- The archives that are left are there. -/
theorem cachedArchive_eq_some (h : Sifts c start precompiled found g) {p : Package}
    (hp : g.package? id = some p) {archive : Path} (harchive : p.cachedArchive = some archive) :
    c.tree.isPresent archive = true ∧
      (archive = c.layout.archive p.importPath ∨
        c.locator.locate c.tree p.importPath = some (.archived p.directory archive)) := by
  rw [h.package?_eq] at hp
  obtain ⟨q, hq, rfl⟩ := Option.map_eq_some_iff.1 hp
  split at harchive
  · cases harchive
  · rename_i hkept
    rw [if_neg hkept]
    exact h.finds.cachedArchive_eq_some hq harchive

end Sifts

/-! ### Compilations -/

/-- **The compilations** of a plan. -/
def Plan.compilations (plan : Plan) : List Invocation :=
  plan.invocations.filter (fun i => i.tool = .compile)

/-- **Every block compiles once.** -/
theorem Block.filter_ofPackage (c : PlanContext) (p : Package) :
    (Block.ofPackage c p).filter (fun i => i.tool = .compile) = [Block.compile c p] := by
  have hcompile : (Block.compile c p).tool = .compile := rfl
  have hassemble : (p.asmFiles.map (Block.assemble c p)).filter (fun i => i.tool = .compile) = [] := by
    rw [List.filter_eq_nil_iff]
    intro i hi
    obtain ⟨file, -, rfl⟩ := List.mem_map.1 hi
    simp [(Block.assembles_assemble c p file).tool]
  have hsymbols : (Block.symbols c p).tool = .asm := rfl
  have hpack : (Block.pack c p).tool = .pack := rfl
  rw [Block.ofPackage]
  split
  · rw [List.filter_append, List.filter_append, hassemble]
    simp [hsymbols, hcompile, hpack]
  · simp [hcompile]

/-- **The packages that are built:** those without an archive, in the build order. -/
def PackageGraph.toBuild (g : PackageGraph) : List PackageId :=
  g.buildOrder.filter (fun id => !g.isCached id)

theorem PackageGraph.nodup_toBuild (g : PackageGraph) : g.toBuild.Nodup :=
  (buildOrder_nodup g).filter _

theorem PackageGraph.mem_toBuild {g : PackageGraph} {id : PackageId} :
    id ∈ g.toBuild ↔ id < g.size ∧ g.Leads root id ∧ g.isCached id = false := by
  rw [toBuild, List.mem_filter, mem_buildOrder, Bool.not_eq_true', and_assoc]

/-- The packages without archives, in the build order. -/
theorem PackageGraph.filter_inBuildOrder (g : PackageGraph) :
    g.inBuildOrder.filter (fun p => !p.isCached) = g.toBuild.filterMap g.package? := by
  rw [inBuildOrder, toBuild, List.filter_filterMap, List.filterMap_filter]
  refine List.filterMap_congr fun id _ => ?_
  cases hp : g.package? id with
  | none => simp
  | some p => simp [isCached_eq hp, Option.filter]

/-- The compilations of a final plan. -/
theorem Plan.compilations_final (c : PlanContext) (g : PackageGraph)
    (archives : List (String × Path)) (importPath : String) :
    ((Plan.final c g archives).withInvocations [linkOf c.layout importPath]).compilations =
      (g.toBuild.filterMap g.package?).map (Block.compile c) := by
  have hlink : (linkOf c.layout importPath).tool = .link := rfl
  rw [compilations, withInvocations, invocations_final, List.filter_append, List.filter_flatMap,
    g.filter_inBuildOrder, List.map_eq_flatMap]
  simp [hlink, Block.filter_ofPackage]

/-- **The packages that are compiled** are the root and those that lead to a stale package,
each once. All other packages have an archive that is there: their own, or that of the
standard library. -/
theorem planBuild_compilations {input buildDir : Path} {target : Target} {s s' : Session}
    {b : Build} (h : (planBuild input buildDir target).outcome s = (.ok b, s')) :
    ∃ c, IsFor c s.tree input b.layout.base target ∧ b.graph.toBuild.Nodup ∧
      b.plan.compilations =
        (b.graph.toBuild.filterMap b.graph.package?).map (Block.compile ⟨b.layout, target⟩) ∧
      (∀ id, id ∈ b.graph.toBuild ↔ id < b.graph.size ∧
        (id = root ∨ ∃ m, b.graph.Leads id m ∧ c.IsStale b.graph m)) ∧
      ∀ id p, b.graph.package? id = some p → id ∉ b.graph.toBuild →
        ∃ archive, p.cachedArchive = some archive ∧ s.tree.isPresent archive = true ∧
          (archive = b.layout.archive p.importPath ∨
            c.locator.locate s.tree p.importPath = some (.archived p.directory archive)) := by
  have hplanned := planBuild_ok h
  obtain ⟨c, place, found, hfor, hsifts⟩ := sifts_of_discover hplanned.graph
  obtain ⟨archives, plan, rootPackage, hgenerates, -, hplan⟩ := hplanned.plan
  refine ⟨c, hfor, b.graph.nodup_toBuild, ?_, ?_, ?_⟩
  · rw [hplan, hgenerates.plan_eq]
    exact Plan.compilations_final ⟨b.layout, target⟩ b.graph archives rootPackage.importPath
  · intro id
    rw [mem_toBuild]
    refine and_congr_right fun hid => ?_
    rw [and_iff_right (hsifts.leads hid), hsifts.isCached_eq_false_iff hid]
  · intro id p hp hkept
    have hcached : p.isCached = true := by
      have hid := lt_size_of_package? hp
      simpa [mem_toBuild, isCached_eq hp, hid, hsifts.leads hid] using hkept
    obtain ⟨archive, harchive⟩ := Option.isSome_iff_exists.1 hcached
    have hthere := hsifts.cachedArchive_eq_some hp harchive
    rw [hfor.tree_eq, hfor.layout_eq] at hthere
    exact ⟨archive, harchive, hthere⟩

/-- A file tree in which the root package imports a package that has been built. -/
def reuseTree : FileTree where
  entries :=
    [(["w"], ⟨.directory, 0⟩),
      (["w", "main.go"], ⟨.file (.text "package main\nimport \"lib\"\n") false, 0⟩),
      (["w", "vendor"], ⟨.directory, 0⟩), (["w", "vendor", "lib"], ⟨.directory, 0⟩),
      (["w", "vendor", "lib", "lib.go"], ⟨.file (.text "package lib\n") false, 1⟩),
      (["b"], ⟨.directory, 0⟩), (["b", hashName "lib" ++ ".a"], ⟨.file (.text "") false, 2⟩)]

/-- The graph of this tree. -/
def reuseGraph : PackageGraph where
  packages :=
    [{ directory := ⟨"/w"⟩, importPath := "main", name := "main", goFiles := ["main.go"],
        imports := [1] },
      { directory := ⟨"/w/vendor/lib"⟩, importPath := "lib", name := "lib",
        goFiles := ["lib.go"], cachedArchive := some (Layout.archive ⟨⟨"/b"⟩⟩ "lib") }]

theorem discoverAll_reuseTree :
    (discoverAll reuseTree ⟨"/w"⟩ ⟨"/b"⟩ {}).outcome.1 = .ok reuseGraph :=
  ok_of_toOption (by decide +kernel)

/-- The package of the library leads to itself only. -/
theorem eq_of_leads_reuseGraph {m : PackageId} (h : reuseGraph.Leads 1 m) : m = 1 := by
  rcases ReflTransGen.cases_head h with hm | ⟨k, hk, -⟩
  · exact hm.symm
  · cases hk

theorem keepsArchive_reuseGraph (id : PackageId) (h : reuseGraph.isCached id = true) :
    reuseGraph.KeepsArchive id := by
  match id with
  | 0 => cases h
  | 1 =>
      intro m hm
      rw [eq_of_leads_reuseGraph hm]
      exact h
  | _ + 2 => cases h

theorem not_isOutdated_reuseTree :
    ¬ IsOutdated reuseTree ⟨⟨"/b"⟩⟩ "lib" ⟨"/w/vendor/lib"⟩ := by
  have hlist : reuseTree.list ⟨"/w/vendor/lib"⟩ = .ok (["w", "vendor", "lib"], ["lib.go"]) := rfl
  rw [← FileTree.usableArchive?_eq_none_iff hlist]
  decide

theorem exists_planBuild_reuseTree :
    ∃ b s', (planBuild ⟨"/w"⟩ ⟨"/b"⟩ {}).outcome ⟨reuseTree, []⟩ = (.ok b, s') ∧
      b.graph = reuseGraph ∧ b.layout = ⟨⟨"/b"⟩⟩ := by
  have hgraph := outcome_discover_of_kept discoverAll_reuseTree
    (grounded_of_later (by decide) root) keepsArchive_reuseGraph
  have hdirs : reuseTree.makeDirectories ⟨"/b"⟩ = .ok reuseTree := rfl
  have hwrite : reuseTree.write (Layout.importcfg ⟨⟨"/b"⟩⟩) (.text "") =
      .ok (reuseTree.setContent ["b", "importcfg"] (.text "")) :=
    FileTree.write_of_new ["b"] "importcfg" _ rfl rfl rfl rfl (by decide) rfl
  have hsources : reuseGraph.inBuildOrder.find? Package.lacksSources = none := by
    refine List.find?_eq_none.2 fun p hp => ?_
    obtain ⟨id, -, hid⟩ := mem_inBuildOrder.1 hp
    match id with
    | 0 =>
        obtain rfl := Option.some.inj hid
        simp [Package.lacksSources]
    | 1 =>
        obtain rfl := Option.some.inj hid
        simp [Package.lacksSources]
  exact exists_planBuild (s := ⟨reuseTree, []⟩) (by decide) hgraph hdirs hwrite hsources
    (standardArchives_of_not_precompiled rfl)

/-- A package that has been built is used again: only the root is compiled. -/
theorem planBuild_compilations_reuse :
    ∃ b s', (planBuild ⟨"/w"⟩ ⟨"/b"⟩ {}).outcome ⟨reuseTree, []⟩ = (.ok b, s') ∧
      b.plan.compilations.map (·.args.take 4) =
        [["-o", (Layout.archive ⟨⟨"/b"⟩⟩ "main").text, "-p", "main"]] := by
  obtain ⟨b, s', hbuild, hgraph, hlayout⟩ := exists_planBuild_reuseTree
  obtain ⟨c, hfor, hnodup, hcompilations, hbuilt, -⟩ := planBuild_compilations hbuild
  have hroot : b.graph.toBuild = [root] := by
    refine List.perm_singleton.1 ((List.perm_ext_iff_of_nodup hnodup (by simp)).2 ?_)
    intro id
    rw [hbuilt, hgraph, List.mem_singleton]
    constructor
    · rintro ⟨hid, hroot | ⟨m, hleads, p, hp, -, houtdated⟩⟩
      · exact hroot
      · match id with
        | 0 => rfl
        | 1 =>
            obtain rfl := eq_of_leads_reuseGraph hleads
            obtain rfl := Option.some.inj hp
            rw [hfor.tree_eq, hfor.layout_eq, hlayout] at houtdated
            exact absurd houtdated not_isOutdated_reuseTree
    · rintro rfl
      exact ⟨by decide, Or.inl rfl⟩
  refine ⟨b, s', hbuild, ?_⟩
  rw [hcompilations, hroot, hgraph, hlayout]
  rfl

end GoPlanner

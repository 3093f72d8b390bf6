import GoPlanner.Proofs.Build.Rebuild
import GoPlanner.Proofs.Discovery.Written
import GoPlanner.Proofs.ImportConfig
import GoPlanner.Proofs.Path

/-!
# Imports Are There When They Are Needed

The import configuration of a build lists every import path of every package once. When a
package is compiled, the archive of each of its imports is there: it was in use before, or
it belongs to the standard library, or an earlier compilation has written it. The import
path of the root is an exception. It is registered last, so if it is another import path of
some package as well, it stands for an archive that has yet to be written.

## Main definitions

* `IsAtHand`: an archive that is there when a package is compiled.
* `IsShadowed`: an import path that the root has taken.
* `IsSupplied`: an import whose package has an archive when it is needed.

## Main results

* `Plan.importcfg_final`: the import configuration of a plan.
* `planBuild_closed`: the import configuration of a build, and the archives of imports.
-/

namespace GoPlanner

open Acting PackageGraph Discovery ImportConfig Telling Relation

variable {layout : Layout} {g : PackageGraph} {s : String} {p q : Package}

/-! ### Entries -/

/-- The entries of a package in an import configuration. -/
def Package.entriesIn (p : Package) (layout : Layout) : List (String × Path) :=
  p.importPaths.map (fun importPath => (importPath, p.archiveIn layout))

/-- **The import configuration of a plan:** the entries of the packages, and then those of
the standard library. -/
theorem Plan.importcfg_final (c : PlanContext) (g : PackageGraph)
    (archives : List (String × Path)) :
    (Plan.final c g archives).importcfg =
      (Plan.empty c.layout).importcfg.registerEach
        (g.inBuildOrder.flatMap (fun p => p.entriesIn c.layout) ++ archives) := by
  have hpackages : ∀ (packages : List Package) (cfg : ImportConfig),
      packages.foldl (fun cfg p => cfg.registerAll p.importPaths (p.archiveIn c.layout)) cfg =
        cfg.registerEach (packages.flatMap (fun p => p.entriesIn c.layout)) := by
    intro packages
    induction packages with
    | nil => exact fun _ => rfl
    | cons p packages ih =>
        intro cfg
        rw [List.foldl_cons, ih, registerAll_eq, List.flatMap_cons, registerEach_append]
        rfl
  have hplan := Plan.importcfg_withPackages (c := c) (g := g) (Plan.empty c.layout) g.buildOrder
  rw [registerEach_append, ← hpackages]
  exact congrArg (fun cfg => registerEach cfg archives) hplan

theorem mem_entriesIn {e : String × Path} :
    e ∈ p.entriesIn layout ↔ e.1 ∈ p.importPaths ∧ e.2 = p.archiveIn layout := by
  obtain ⟨importPath, archive⟩ := e
  simp [Package.entriesIn, eq_comm]

/-- **The last package** that has an import path determines its entry. -/
theorem lookup_entries {before after : List Package} (hs : s ∈ p.importPaths)
    (hlast : ∀ q ∈ after, s ∉ q.importPaths) :
    ((before ++ p :: after).flatMap (fun p => p.entriesIn layout)).reverse.lookup s =
      some (p.archiveIn layout) := by
  have hafter : (after.flatMap (fun p => p.entriesIn layout)).reverse.lookup s = none := by
    rw [lookup_eq_none_iff]
    rintro e he rfl
    obtain ⟨q, hq, he⟩ := List.mem_flatMap.1 (List.mem_reverse.1 he)
    exact hlast q hq (mem_entriesIn.1 he).1
  have hp : (p.entriesIn layout).reverse.lookup s = some (p.archiveIn layout) := by
    cases hlookup : (p.entriesIn layout).reverse.lookup s with
    | none =>
        have hmem : (s, p.archiveIn layout) ∈ (p.entriesIn layout).reverse :=
          List.mem_reverse.2 (mem_entriesIn.2 ⟨hs, rfl⟩)
        exact absurd rfl (lookup_eq_none_iff.1 hlookup _ hmem)
    | some archive =>
        have hmem := mem_entriesIn.1 (List.mem_reverse.1 (mem_of_lookup hlookup))
        exact congrArg some hmem.2
  rw [List.flatMap_append, List.flatMap_cons, List.reverse_append, List.reverse_append,
    List.lookup_append, List.lookup_append, hafter, hp]
  rfl

/-! ### Archives of the standard library -/

/-- **The archives of the standard library** are files below its directory. -/
theorem holdsBelow_of_archivesIn {t : FileTree} {directory archive : Path}
    {archives : List (String × Path)} (hdir : t.isDirectory directory = true)
    (h : t.archivesIn directory = .ok archives) (hmem : (s, archive) ∈ archives) :
    t.HoldsBelow directory archive := by
  obtain ⟨place, hfind⟩ := FileTree.isDirectory_iff.1 hdir
  rw [FileTree.archivesIn] at h
  rw [hfind] at h
  obtain rfl := Except.ok.inj h
  obtain ⟨steps, hsteps, hentry⟩ := List.mem_filterMap.1 hmem
  obtain ⟨importPath, -, hpair⟩ := Option.map_eq_some_iff.1 hentry
  obtain ⟨rfl, rfl⟩ := Prod.mk.inj hpair
  exact ⟨place, steps, hfind, hsteps, rfl⟩

/-! ### Import paths of a graph -/

namespace Sifts

variable {c : Discovery} {start : Arrival} {precompiled : Bool} {found : PackageGraph}
  {id k : PackageId}

/-- A package that was found, but for its archive. -/
theorem exists_found (h : Sifts c start precompiled found g) (hp : g.package? id = some p) :
    ∃ q, found.package? id = some q ∧ p = { q with cachedArchive := p.cachedArchive } := by
  rw [h.package?_eq] at hp
  obtain ⟨q, hq, rfl⟩ := Option.map_eq_some_iff.1 hp
  refine ⟨q, hq, ?_⟩
  split <;> rfl

/-- Directories have the same packages. -/
theorem byDirectory?_eq (h : Sifts c start precompiled found g) :
    g.byDirectory? = found.byDirectory? := by
  funext directory
  refine byDirectory?_eq_of_directories fun id => ?_
  rw [h.package?_eq, Option.map_map]
  congr 1
  funext p
  dsimp only [Function.comp]
  split <;> rfl

/-- Import paths stand for the same packages. -/
theorem dependency?_eq (h : Sifts c start precompiled found g) :
    c.dependency? g s = c.dependency? found s := by
  rw [dependency?, dependency?, h.precompiled_eq, h.finds.precompiled_eq, h.byDirectory?_eq]

/-- **The import paths of a package** lead to it, but that of the root may not. -/
theorem named (h : Sifts c start precompiled found g) (hp : g.package? id = some p)
    (hs : s ∈ p.importPaths) :
    c.dependency? g s = some id ∨ (id = root ∧ s = start.importPath) := by
  obtain ⟨q, hq, hpq⟩ := h.exists_found hp
  rw [hpq] at hs
  rw [h.dependency?_eq]
  exact h.finds.proper.named id q hq s hs

/-- **A written import** is recorded, and its package knows the import path. -/
theorem imports_of_writes (h : Sifts c start precompiled found g) (hp : g.package? id = some p)
    (hs : p.Writes c.tree s) (hpasses : ¬ c.Passes precompiled s) :
    ∃ k q, c.dependency? g s = some k ∧ g.Imports id k ∧ g.package? k = some q ∧
      s ∈ q.importPaths := by
  obtain ⟨p', hp', hpp'⟩ := h.exists_found hp
  rw [hpp'] at hs
  have hs : p'.Writes c.tree s := hs
  obtain ⟨directory, hgoal⟩ := h.finds.exists_goal hp' hs hpasses
  obtain ⟨k, q', himports, hk, hq', hpath⟩ := h.finds.imports_of_writes hp' hs hgoal
  obtain ⟨q, hq⟩ := exists_package (h.size_eq ▸ lt_size_of_package? hq')
  obtain ⟨q'', hq'', hqq''⟩ := h.exists_found hq
  obtain rfl : q' = q'' := Option.some.inj (hq'.symm.trans hq'')
  refine ⟨k, q, ?_, ?_, hq, ?_⟩
  · rw [h.dependency?_eq, dependency?, h.finds.precompiled_eq, hgoal]
    exact hk
  · rwa [Imports, h.importsOf_eq]
  · rw [hqq'']
    exact hpath

/-- The root has the import path that it was entered with, and no archive. -/
theorem root_eq (h : Sifts c start precompiled found g) (hp : g.package? root = some p) :
    p.importPath = start.importPath ∧ p.cachedArchive = none := by
  obtain ⟨q, hq, hpq⟩ := h.exists_found hp
  obtain ⟨q', imports, hcomplete⟩ := h.finds.complete h.finds.root_lt_size
  obtain rfl : q = q' := Option.some.inj (hq.symm.trans hcomplete.package)
  obtain ⟨r, hstems, hrq⟩ := hcomplete.stems
  constructor
  · rw [hpq]
    change q.importPath = _
    rw [hrq.importPath]
    cases hstems with
    | root _ hread => exact hread.fields.2.1
    | source hid => exact absurd rfl hid
    | archived hid => exact absurd rfl hid
  · have hid := lt_size_of_package? hp
    have hcached := (h.isCached_eq_false_iff hid).2 (Or.inl rfl)
    simpa [isCached_eq hp, Package.isCached] using hcached

/-- Later packages do not share an import path, unless it is that of the root. -/
theorem notMem_importPaths_of_after (h : Sifts c start precompiled found g)
    (hp : g.package? k = some p) (hs : s ∈ p.importPaths) (hroot : s ≠ start.importPath)
    {before after : List PackageId} (hsplit : g.buildOrder = before ++ k :: after) :
    ∀ q ∈ after.filterMap g.package?, s ∉ q.importPaths := by
  intro q hq hsq
  obtain ⟨j, hj, hq⟩ := List.mem_filterMap.1 hq
  have hk := (h.named hp hs).resolve_right fun hk => hroot hk.2
  have hj' := (h.named hq hsq).resolve_right fun hj => hroot hj.2
  obtain rfl : k = j := Option.some.inj (hk.symm.trans hj')
  have hnodup := buildOrder_nodup g
  rw [hsplit] at hnodup
  exact (List.nodup_cons.1 hnodup.of_append_right).1 hj

/-- **The entry of an import path:** the archive of the standard library that is registered for
it last. If there is none, it is the archive of the root for the import path of the root, and
that of its package for any other one. -/
theorem archive?_final (h : Sifts c start precompiled found g) (layout : Layout) (target : Target)
    (archives : List (String × Path)) (hp : g.package? k = some p) (hs : s ∈ p.importPaths) :
    (Plan.final ⟨layout, target⟩ g archives).importcfg.archive? s =
      some ((archives.reverse.lookup s).getD
        (if s = start.importPath then layout.archive s else p.archiveIn layout)) := by
  have hentry : (Plan.final ⟨layout, target⟩ g archives).importcfg.archive? s =
      (archives.reverse.lookup s).or
        ((g.inBuildOrder.flatMap (fun p => p.entriesIn layout)).reverse.lookup s) := by
    rw [Plan.importcfg_final, archive?_registerEach, List.reverse_append, List.lookup_append]
    exact Option.or_none
  have hpackages : (g.inBuildOrder.flatMap (fun p => p.entriesIn layout)).reverse.lookup s =
      some (if s = start.importPath then layout.archive s else p.archiveIn layout) := by
    rw [inBuildOrder]
    split
    · rename_i hroot
      obtain ⟨r, hr⟩ := exists_package (h.size_eq ▸ h.finds.root_lt_size)
      obtain ⟨hpath, hnone⟩ := h.root_eq hr
      obtain ⟨before, hsplit⟩ := exists_buildOrder_eq (lt_size_of_package? hr)
      have hlast : s ∈ r.importPaths := by simp [Package.importPaths, hpath, hroot]
      rw [hsplit, List.filterMap_append, List.filterMap_cons_some hr,
        lookup_entries hlast (by simp), Package.archiveIn_of_none hnone, hpath, hroot]
    · rename_i hroot
      have hk := lt_size_of_package? hp
      obtain ⟨before, after, hsplit⟩ := List.append_of_mem (mem_buildOrder.2 ⟨hk, h.leads hk⟩)
      rw [hsplit, List.filterMap_append, List.filterMap_cons_some hp,
        lookup_entries hs (h.notMem_importPaths_of_after hp hs hroot hsplit)]
  rw [hentry, hpackages]
  cases archives.reverse.lookup s <;> rfl

/-- What the entry of an import path can be: an archive of the standard library, or that of its
package, or that of the root if the import path is that of the root. -/
theorem entry_cases (h : Sifts c start precompiled found g) (layout : Layout) (target : Target)
    (archives : List (String × Path)) (hp : g.package? k = some p) (hs : s ∈ p.importPaths) :
    ∃ archive, (Plan.final ⟨layout, target⟩ g archives).importcfg.archive? s = some archive ∧
      ((s, archive) ∈ archives ∨ archive = p.archiveIn layout ∨
        (s = start.importPath ∧ archive = layout.archive s)) := by
  refine ⟨_, h.archive?_final layout target archives hp hs, ?_⟩
  cases hstandard : archives.reverse.lookup s with
  | some archive => exact Or.inl (List.mem_reverse.1 (mem_of_lookup hstandard))
  | none =>
      by_cases hroot : s = start.importPath
      · exact Or.inr (Or.inr ⟨hroot, by simp [hroot]⟩)
      · exact Or.inr (Or.inl (by simp [hroot]))

end Sifts

/-! ### Archives that are there -/

/-- **The file that a compilation writes:** the operand behind its first flag. -/
def Invocation.output? (i : Invocation) : Option String :=
  match i.args with
  | "-o" :: output :: _ => some output
  | _ => none

theorem Block.output?_compile (c : PlanContext) (p : Package) :
    (Block.compile c p).output? = some (c.layout.archive p.importPath).text :=
  rfl

/-- **An archive is at hand** for the import of a package, behind some invocations: it is that
of the package, in use from the start, or it belongs to the standard library, or a
compilation has written it. -/
def IsAtHand (t : FileTree) (target : Target) (earlier : List Invocation) (p : Package)
    (archive : Path) : Prop :=
  p.cachedArchive = some archive ∨ t.HoldsBelow target.archiveDir archive ∨
    ∃ i ∈ earlier, i.tool = .compile ∧ i.output? = some archive.text

/-- A block starts with one compilation, after the symbols were collected. -/
theorem Block.exists_ofPackage_eq (c : PlanContext) (p : Package) :
    ∃ first rest, Block.ofPackage c p = first ++ Block.compile c p :: rest ∧
      first.filter (fun i => i.tool = .compile) = [] := by
  rw [Block.ofPackage]
  split
  · refine ⟨[Block.symbols c p], _, List.append_assoc _ _ _, ?_⟩
    have hsymbols : (Block.symbols c p).tool = .asm := rfl
    simp [hsymbols]
  · exact ⟨[], [], rfl, rfl⟩

/-- **The invocations before a compilation** compile the packages that are built before. -/
theorem Plan.exists_invocations_eq (c : PlanContext) (archives : List (String × Path))
    (importPath : String) {before after : List PackageId} {id : PackageId}
    (hsplit : g.toBuild = before ++ id :: after) (hp : g.package? id = some p) :
    ∃ earlier later,
      ((Plan.final c g archives).withInvocations [linkOf c.layout importPath]).invocations =
        earlier ++ Block.compile c p :: later ∧
      earlier.filter (fun i => i.tool = .compile) =
        (before.filterMap g.package?).map (Block.compile c) := by
  obtain ⟨first, rest, hblock, hfirst⟩ := Block.exists_ofPackage_eq c p
  have hbefore : ((before.filterMap g.package?).flatMap (Block.ofPackage c)).filter
      (fun i => i.tool = .compile) = (before.filterMap g.package?).map (Block.compile c) := by
    rw [List.filter_flatMap, List.map_eq_flatMap]
    simp only [Block.filter_ofPackage]
  refine ⟨(before.filterMap g.package?).flatMap (Block.ofPackage c) ++ first,
    rest ++ (after.filterMap g.package?).flatMap (Block.ofPackage c) ++
      [linkOf c.layout importPath], ?_, ?_⟩
  · rw [withInvocations, invocations_final, filter_inBuildOrder, hsplit, List.filterMap_append,
      List.filterMap_cons_some hp, List.flatMap_append, List.flatMap_cons, hblock]
    simp
  · rw [List.filter_append, hbefore, hfirst, List.append_nil]

/-- The packages before one that is built. -/
theorem PackageGraph.exists_buildOrder_split {before after : List PackageId} {id : PackageId}
    (hsplit : g.toBuild = before ++ id :: after) :
    ∃ earlier later, g.buildOrder = earlier ++ id :: later ∧
      before = earlier.filter (fun id => !g.isCached id) ∧
      after = later.filter (fun id => !g.isCached id) := by
  obtain ⟨first, rest, horder, rfl, hrest⟩ := List.filter_eq_append_iff.1 hsplit
  obtain ⟨cached, later, rfl, hcached, -, rfl⟩ := List.filter_eq_cons_iff.1 hrest
  refine ⟨first ++ cached, later, by simp [horder], ?_, rfl⟩
  rw [List.filter_append, List.filter_eq_nil_iff.2 hcached, List.append_nil]

/-- **Imports are built before** a package that leads to no circle. -/
theorem PackageGraph.mem_before_toBuild {before after : List PackageId} {id k : PackageId}
    (hsplit : g.toBuild = before ++ id :: after) (hgrounded : g.Grounded id)
    (himports : g.Imports id k) (hk : k < g.size) (hcached : g.isCached k = false) :
    k ∈ before := by
  obtain ⟨earlier, later, horder, rfl, -⟩ := exists_buildOrder_split hsplit
  have hmem := mem_before_of_imports horder hgrounded himports hk
  exact List.mem_filter.2 ⟨hmem, by simp [hcached]⟩

/-- **The root is built last.** -/
theorem PackageGraph.root_notMem_before {before after : List PackageId} {id : PackageId}
    (hsplit : g.toBuild = before ++ id :: after) : root ∉ before := by
  obtain ⟨earlier, later, horder, rfl, -⟩ := exists_buildOrder_split hsplit
  intro hroot
  have hmem : root ∈ earlier := (List.mem_filter.1 hroot).1
  have hsize : root < g.size := (mem_buildOrder.1 (by simp [horder, hmem])).1
  obtain ⟨others, hlast⟩ := exists_buildOrder_eq hsize
  have hnodup := buildOrder_nodup g
  have hend : (id :: later).getLast? = some root := by
    simpa using congrArg List.getLast? (horder.symm.trans hlast)
  rw [horder] at hnodup
  exact List.disjoint_of_nodup_append hnodup hmem (List.mem_of_getLast? hend)

/-! ### Builds -/

/-- **The root has taken an import path:** it is that of the root, and its entry is the
archive of the root instead of that of the package that it stands for. -/
def IsShadowed (b : Build) (importPath : String) (p : Package) : Prop :=
  importPath = mainPackage ∧
    b.plan.importcfg.archive? importPath = some (b.layout.archive mainPackage) ∧
    p.archiveIn b.layout ≠ b.layout.archive mainPackage

/-- **An import is supplied** when it has an entry with an archive that is at hand. -/
def IsSupplied (t : FileTree) (target : Target) (b : Build) (earlier : List Invocation)
    (importPath : String) (p : Package) : Prop :=
  ∃ archive, b.plan.importcfg.archive? importPath = some archive ∧
    IsAtHand t target earlier p archive

namespace Planned

variable {t t' : FileTree} {input : Path} {target : Target} {b : Build}

/-- The plan is that of the graph and of archives below the directory of the standard
library. -/
theorem exists_plan_eq (h : Planned t input target b t') :
    ∃ archives importPath, b.plan =
        (Plan.final ⟨b.layout, target⟩ b.graph archives).withInvocations
          [linkOf b.layout importPath] ∧
      ∀ s archive, (s, archive) ∈ archives → t'.HoldsBelow target.archiveDir archive := by
  obtain ⟨archives, plan, r, hgenerates, -, hplan⟩ := h.plan
  obtain ⟨c, place, found, -, hsifts⟩ := sifts_of_discover h.graph
  refine ⟨archives, r.importPath, by rw [hplan, hgenerates.plan_eq], ?_⟩
  intro s archive hmem
  obtain ⟨t₁, t₂, hdirs, hwrite, harchives, hlast⟩ := hgenerates.files
  rw [standardArchives] at harchives
  split at harchives
  · rename_i hprecompiled
    rw [hsifts.precompiled_eq, FileTree.isDirectory_iff] at hprecompiled
    obtain ⟨place, hfind⟩ := hprecompiled
    have hretains := (FileTree.retains_makeDirectories hdirs).trans (FileTree.retains_write hwrite)
    have hdir := FileTree.isDirectory_iff.2 ⟨place, hretains.find_directory hfind⟩
    exact (holdsBelow_of_archivesIn hdir harchives hmem).write hlast
  · obtain rfl := Except.ok.inj harchives
    cases hmem

end Planned

section

variable {t : FileTree} {target : Target} {earlier : List Invocation} {before after : List PackageId}
  {id k : PackageId} {archive : Path}

/-- **The archive of a package that is imported** is at hand. -/
theorem isAtHand_archiveIn (hsplit : g.toBuild = before ++ id :: after)
    (hearlier : earlier.filter (fun i => i.tool = .compile) =
      (before.filterMap g.package?).map (Block.compile ⟨layout, target⟩))
    (hgrounded : g.Grounded id) (himports : g.Imports id k) (hq : g.package? k = some q) :
    IsAtHand t target earlier q (q.archiveIn layout) := by
  cases hcached : q.cachedArchive with
  | some archive =>
      rw [Package.archiveIn_of_some hcached]
      exact Or.inl hcached
  | none =>
      rw [Package.archiveIn_of_none hcached]
      have hbefore : k ∈ before :=
        mem_before_toBuild hsplit hgrounded himports (lt_size_of_package? hq)
          (by simp [isCached_eq hq, Package.isCached, hcached])
      have hmem : Block.compile ⟨layout, target⟩ q ∈ earlier.filter (fun i => i.tool = .compile) := by
        rw [hearlier]
        exact List.mem_map_of_mem (List.mem_filterMap.2 ⟨k, hbefore, hq⟩)
      exact Or.inr (Or.inr ⟨_, List.mem_of_mem_filter hmem, rfl, Block.output?_compile _ _⟩)

/-- What an archive that is at hand can be. -/
theorem IsAtHand.cases (h : IsAtHand t target earlier q archive)
    (hearlier : earlier.filter (fun i => i.tool = .compile) =
      (before.filterMap g.package?).map (Block.compile ⟨layout, target⟩)) :
    q.cachedArchive = some archive ∨ t.HoldsBelow target.archiveDir archive ∨
      ∃ j ∈ before, ∃ r, g.package? j = some r ∧ layout.archive r.importPath = archive := by
  rcases h with hcached | hbelow | ⟨i, hi, htool, houtput⟩
  · exact Or.inl hcached
  · exact Or.inr (Or.inl hbelow)
  · have hmem : i ∈ earlier.filter (fun i => i.tool = .compile) :=
      List.mem_filter.2 ⟨hi, by simpa using htool⟩
    rw [hearlier] at hmem
    obtain ⟨r, hr, rfl⟩ := List.mem_map.1 hmem
    obtain ⟨j, hj, hr⟩ := List.mem_filterMap.1 hr
    rw [Block.output?_compile] at houtput
    exact Or.inr (Or.inr ⟨j, hj, r, hr, Path.eq_of_text (Option.some.inj houtput)⟩)

/-- **A shadowed import** is supplied only by a file of the same name. -/
theorem Sifts.of_isShadowed {c : Discovery} {start : Arrival} {precompiled : Bool}
    {found : PackageGraph} {b : Build} (h : Sifts c start precompiled found b.graph)
    (hsplit : b.graph.toBuild = before ++ id :: after)
    (hearlier : earlier.filter (fun i => i.tool = .compile) =
      (before.filterMap b.graph.package?).map (Block.compile ⟨b.layout, target⟩))
    (hk : c.dependency? b.graph s = some k) (hq : b.graph.package? k = some q)
    (hshadowed : IsShadowed b s q) (hsupplied : IsSupplied t target b earlier s q) :
    t.HoldsBelow target.archiveDir (b.layout.archive mainPackage) ∨
      ∃ j ∈ before, ∃ r, b.graph.package? j = some r ∧ r.importPath ≠ mainPackage ∧
        b.layout.archive r.importPath = b.layout.archive mainPackage := by
  obtain ⟨rfl, hentry, hother⟩ := hshadowed
  obtain ⟨archive, hentry', hathand⟩ := hsupplied
  obtain rfl : b.layout.archive mainPackage = archive := Option.some.inj (hentry.symm.trans hentry')
  rcases hathand.cases hearlier with hcached | hbelow | ⟨j, hj, r, hr, hsame⟩
  · exact absurd (Package.archiveIn_of_some hcached) hother
  · exact Or.inl hbelow
  · refine Or.inr ⟨j, hj, r, hr, ?_, hsame⟩
    intro hpath
    have hmain : mainPackage ∈ r.importPaths := by simp [Package.importPaths, hpath]
    rcases h.named hr hmain with hj' | ⟨rfl, -⟩
    · -- The package that was built is that of the import, and its archive is not the root's.
      obtain rfl : k = j := Option.some.inj (hk.symm.trans hj')
      obtain rfl : q = r := Option.some.inj (hq.symm.trans hr)
      have hbuilt : k ∈ b.graph.toBuild := by simp [hsplit, hj]
      have hnone : q.cachedArchive = none := by
        simpa [isCached_eq hq, Package.isCached] using (mem_toBuild.1 hbuilt).2.2
      rw [Package.archiveIn_of_none hnone, hpath] at hother
      exact hother rfl
    · exact root_notMem_before hsplit hj

end

theorem importPath_rootOf (t : FileTree) (place : Place) :
    (rootOf t place).importPath = mainPackage := by
  rw [rootOf]
  split <;> rfl

/-- **Imports are there when they are needed.** Every import path of every package has one
entry. When a package is compiled, each of its imports is supplied, unless the root has taken
its import path. In that case it is not, but for archives of the same name. -/
theorem planBuild_closed {input buildDir : Path} {target : Target} {s s' : Session} {b : Build}
    (h : (planBuild input buildDir target).outcome s = (.ok b, s')) :
    ∃ c, IsFor c s.tree input b.layout.base target ∧
      (∀ id p, b.graph.Leads root id → b.graph.package? id = some p →
        ∀ importPath ∈ p.importPaths, b.plan.importcfg.keys.count importPath = 1) ∧
      b.plan.compilations =
        (b.graph.toBuild.filterMap b.graph.package?).map (Block.compile ⟨b.layout, target⟩) ∧
      ∀ before id after p, b.graph.toBuild = before ++ id :: after →
        b.graph.package? id = some p →
        ∃ earlier later,
          b.plan.invocations = earlier ++ Block.compile ⟨b.layout, target⟩ p :: later ∧
          earlier.filter (fun i => i.tool = .compile) =
            (before.filterMap b.graph.package?).map (Block.compile ⟨b.layout, target⟩) ∧
          ∀ importPath, p.Writes s.tree importPath → ¬ c.Passes b.graph.precompiled importPath →
            ∃ k q, c.dependency? b.graph importPath = some k ∧ b.graph.package? k = some q ∧
              (¬ IsShadowed b importPath q → IsSupplied s'.tree target b earlier importPath q) ∧
              (IsShadowed b importPath q → IsSupplied s'.tree target b earlier importPath q →
                s'.tree.HoldsBelow target.archiveDir (b.layout.archive mainPackage) ∨
                  ∃ j ∈ before, ∃ r, b.graph.package? j = some r ∧ r.importPath ≠ mainPackage ∧
                    b.layout.archive r.importPath = b.layout.archive mainPackage) := by
  have hplanned := planBuild_ok h
  obtain ⟨c, place, found, hfor, hsifts⟩ := sifts_of_discover hplanned.graph
  obtain ⟨archives, rootPath, hplan, hstandard⟩ := hplanned.exists_plan_eq
  have hentry {k : PackageId} {q : Package} {importPath : String}
      (hq : b.graph.package? k = some q) (hs : importPath ∈ q.importPaths) :
      ∃ archive, b.plan.importcfg.archive? importPath = some archive ∧
        ((importPath, archive) ∈ archives ∨ archive = q.archiveIn b.layout ∨
          (importPath = mainPackage ∧ archive = b.layout.archive importPath)) := by
    have hcases := hsifts.entry_cases b.layout target archives hq hs
    rw [importPath_rootOf] at hcases
    rw [hplan]
    exact hcases
  refine ⟨c, hfor, ?_, ?_, ?_⟩
  · intro id p _ hp importPath hs
    obtain ⟨archive, harchive, -⟩ := hentry hp hs
    exact List.count_eq_one_of_mem (nodup_keys _) (mem_keys_iff.2 ⟨archive, harchive⟩)
  · rw [hplan]
    exact Plan.compilations_final ⟨b.layout, target⟩ b.graph archives rootPath
  · intro before id after p hsplit hp
    obtain ⟨earlier, later, hinvocations, hearlier⟩ :=
      Plan.exists_invocations_eq ⟨b.layout, target⟩ archives rootPath hsplit hp
    refine ⟨earlier, later, by rw [hplan]; exact hinvocations, hearlier, ?_⟩
    intro importPath hwrites hpasses
    rw [← hfor.tree_eq] at hwrites
    rw [hsifts.precompiled_eq] at hpasses
    obtain ⟨k, q, hk, himports, hq, hs⟩ := hsifts.imports_of_writes hp hwrites hpasses
    refine ⟨k, q, hk, hq, ?_, ?_⟩
    · intro hshadowed
      obtain ⟨archive, harchive, hcases⟩ := hentry hq hs
      refine ⟨archive, harchive, ?_⟩
      rcases hcases with hmem | rfl | ⟨rfl, rfl⟩
      · exact Or.inr (Or.inl (hstandard importPath archive hmem))
      · exact isAtHand_archiveIn hsplit hearlier (hsifts.grounded (lt_size_of_package? hp))
          himports hq
      · have hown : q.archiveIn b.layout = b.layout.archive mainPackage := by
          by_contra hother
          exact hshadowed ⟨rfl, harchive, hother⟩
        rw [← hown]
        exact isAtHand_archiveIn hsplit hearlier (hsifts.grounded (lt_size_of_package? hp))
          himports hq
    · exact hsifts.of_isShadowed hsplit hearlier hk hq

/-- A file tree in which the root package imports a package under the import path of the
root, and under another one before. -/
def shadowTree : FileTree where
  entries :=
    [(["app"], ⟨.directory, 0⟩),
      (["app", "main.go"],
        ⟨.file (.text "package main\nimport (\n\"main/v2\"\n\"main\"\n)\n") false, 0⟩),
      (["p"], ⟨.directory, 0⟩), (["p", "main"], ⟨.directory, 0⟩),
      (["p", "main", "m.go"], ⟨.file (.text "package m\n") false, 0⟩), (["b"], ⟨.directory, 0⟩)]

/-- A target that searches packages in one directory. -/
def shadowTarget : Target :=
  { searchPath := [⟨"/p"⟩] }

/-- The root package of this tree. -/
def shadowRoot : Package :=
  { directory := ⟨"/app"⟩, importPath := "main", name := "main", goFiles := ["main.go"],
    imports := [1] }

/-- The package that it imports. -/
def shadowedPackage : Package :=
  { directory := ⟨"/p/main"⟩, importPath := "main/v2", name := "m", goFiles := ["m.go"],
    aliases := ["main"] }

/-- The graph of this tree. -/
def shadowGraph : PackageGraph where
  packages := [shadowRoot, shadowedPackage]

theorem discoverAll_shadowTree :
    (discoverAll shadowTree ⟨"/app"⟩ ⟨"/b"⟩ shadowTarget).outcome.1 = .ok shadowGraph :=
  ok_of_toOption (by decide +kernel)

theorem isCached_shadowGraph (id : PackageId) : shadowGraph.isCached id = false := by
  match id with
  | 0 => rfl
  | 1 => rfl
  | _ + 2 => rfl

theorem makeDirectories_shadowTree : shadowTree.makeDirectories ⟨"/b"⟩ = .ok shadowTree :=
  rfl

theorem write_shadowTree : shadowTree.write (Layout.importcfg ⟨⟨"/b"⟩⟩) (.text "") =
    .ok (shadowTree.setContent ["b", "importcfg"] (.text "")) :=
  FileTree.write_of_new ["b"] "importcfg" _ rfl rfl rfl rfl (by decide) rfl

theorem inBuildOrder_shadowGraph : shadowGraph.inBuildOrder = [shadowedPackage, shadowRoot] := by
  cbv

theorem exists_planBuild_shadowTree :
    ∃ b s', (planBuild ⟨"/app"⟩ ⟨"/b"⟩ shadowTarget).outcome ⟨shadowTree, []⟩ = (.ok b, s') ∧
      b.graph = shadowGraph ∧ b.layout = ⟨⟨"/b"⟩⟩ := by
  have hgraph := outcome_discover_of_kept discoverAll_shadowTree
    (grounded_of_later (by decide) root) (by simp [isCached_shadowGraph])
  exact exists_planBuild (s := ⟨shadowTree, []⟩) (by decide) hgraph makeDirectories_shadowTree
    write_shadowTree (by rw [inBuildOrder_shadowGraph]; rfl)
    (standardArchives_of_not_precompiled rfl)

/-- The discovery of this tree. -/
def shadowDiscovery : Discovery where
  tree := shadowTree
  target := shadowTarget
  locator := ⟨shadowTarget, ⟨"/app"⟩, none⟩
  layout := ⟨⟨"/b"⟩⟩

theorem isFor_shadowTree {c : Discovery} :
    IsFor c shadowTree ⟨"/app"⟩ ⟨"/b"⟩ shadowTarget ↔ c = shadowDiscovery := by
  have hplace : shadowTree.resolve ⟨"/app"⟩ = .ok ["app"] := rfl
  have hdirectory : (rootOf shadowTree ["app"]).directory = ⟨"/app"⟩ := rfl
  have hmodule : shadowTree.loadModule ⟨"/app"⟩ = .ok none := rfl
  have hends (module? : Option Module) :
      (moduleOf shadowTree ⟨"/app"⟩).Ends (.ok module?) ↔ module? = none := by
    rw [moduleOf, hmodule]
    simp
  constructor
  · rintro ⟨place, module?, hplace', hmodule', rfl⟩
    obtain rfl := Except.ok.inj (hplace.symm.trans hplace')
    rw [hdirectory] at hmodule' ⊢
    rw [(hends module?).1 hmodule']
    rfl
  · rintro rfl
    refine ⟨["app"], none, hplace, ?_, ?_⟩
    · rw [hdirectory]
      exact (hends none).2 rfl
    · rw [hdirectory]
      rfl

theorem writes_shadowRoot {s : String} (hs : s ∈ ["main/v2", "main"]) :
    shadowRoot.Writes shadowTree s := by
  have hsrc : shadowTree.readSource ⟨"/app/main.go"⟩ =
      .ok "package main\nimport (\n\"main/v2\"\n\"main\"\n)\n" := rfl
  have hscan : (scanHeader "package main\nimport (\n\"main/v2\"\n\"main\"\n)\n").toOption.map
      (fun header => header.imports.map (·.path)) = some ["main/v2", "main"] := by
    decide +kernel
  cases hheader : scanHeader "package main\nimport (\n\"main/v2\"\n\"main\"\n)\n" with
  | error e => simp [hheader, Except.toOption] at hscan
  | ok header =>
      have himports : header.imports.map (·.path) = ["main/v2", "main"] := by
        simpa [hheader, Except.toOption] using hscan
      exact ⟨⟨"/app/main.go"⟩, by decide, _, header, hsrc, hheader, himports ▸ hs⟩

theorem toBuild_shadowGraph : shadowGraph.toBuild = [1] ++ root :: [] := by
  cbv

theorem locate_shadowDiscovery {s : String} (hs : s ∈ ["main/v2", "main"]) :
    shadowDiscovery.locator.locate shadowTree s = some (.source ⟨"/p/main"⟩ false) := by
  have hversion : shadowDiscovery.locator.locateExactly shadowTree "main/v2" = none := rfl
  have hexact : shadowDiscovery.locator.locateExactly shadowTree "main" =
      some (.source ⟨"/p/main"⟩ false) := rfl
  have hmain : shadowDiscovery.locator.locate shadowTree "main" =
      some (.source ⟨"/p/main"⟩ false) := by
    rw [Locator.locate]
    simp only [hexact]
  rcases List.mem_pair.1 hs with rfl | rfl
  · rw [Locator.locate]
    simp only [hversion]
    exact hmain
  · exact hmain

theorem dependency?_shadowDiscovery {s : String} (hs : s ∈ ["main/v2", "main"]) :
    shadowDiscovery.dependency? shadowGraph s = some 1 := by
  have hlocate : shadowDiscovery.locator.locate shadowDiscovery.tree s =
      some (.source ⟨"/p/main"⟩ false) := locate_shadowDiscovery hs
  rw [dependency?, goal?]
  rw [hlocate]
  rfl

theorem not_passes_shadowDiscovery {s : String} (hs : s ∈ ["main/v2", "main"])
    {precompiled : Bool} : ¬ shadowDiscovery.Passes precompiled s := by
  have hlocate := locate_shadowDiscovery hs
  rintro (h | ⟨directory, h, -⟩) <;> cases Option.some.inj (hlocate.symm.trans h)

/-- The first import path of the package is not that of the root, and it is supplied. -/
theorem planBuild_closed_shadow :
    ∃ b s' earlier later,
      (planBuild ⟨"/app"⟩ ⟨"/b"⟩ shadowTarget).outcome ⟨shadowTree, []⟩ = (.ok b, s') ∧
      b.plan.importcfg.keys.count "main/v2" = 1 ∧
      b.plan.invocations =
        earlier ++ Block.compile ⟨⟨⟨"/b"⟩⟩, shadowTarget⟩ shadowRoot :: later ∧
      IsSupplied s'.tree shadowTarget b earlier "main/v2" shadowedPackage := by
  obtain ⟨b, s', hbuild, hgraph, hlayout⟩ := exists_planBuild_shadowTree
  obtain ⟨c, hfor, hkeys, -, hcompiled⟩ := planBuild_closed hbuild
  rw [hlayout] at hfor hcompiled
  rw [hgraph] at hkeys hcompiled
  obtain rfl := isFor_shadowTree.1 hfor
  obtain ⟨earlier, later, hinvocations, -, hsupplied⟩ :=
    hcompiled [1] root [] shadowRoot toBuild_shadowGraph rfl
  obtain ⟨k, q, hk, hq, hsupplied, -⟩ := hsupplied "main/v2" (writes_shadowRoot (by simp))
    (not_passes_shadowDiscovery (by simp))
  obtain rfl : 1 = k :=
    Option.some.inj ((dependency?_shadowDiscovery (by simp)).symm.trans hk)
  obtain rfl : shadowedPackage = q := Option.some.inj hq
  have hleads : shadowGraph.Leads root 1 := ReflTransGen.single (by decide)
  exact ⟨b, s', earlier, later, hbuild, hkeys 1 shadowedPackage hleads rfl _ (by decide),
    hinvocations, hsupplied fun hshadowed => absurd hshadowed.1 (by decide)⟩

/-- The plan of this tree. -/
def shadowPlan : Plan :=
  Plan.final ⟨⟨⟨"/b"⟩⟩, shadowTarget⟩ shadowGraph []

/-- The archive of the root is entered last. -/
theorem archive?_shadowPlan :
    shadowPlan.importcfg.archive? "main" = some (Layout.archive ⟨⟨"/b"⟩⟩ "main") := by
  rw [shadowPlan, Plan.importcfg_final, inBuildOrder_shadowGraph, archive?_registerEach]
  rfl

/-- This tree, with the import configuration. -/
def shadowTreeAfter : FileTree :=
  (shadowTree.setContent ["b", "importcfg"] (.text "")).setContent ["b", "importcfg"]
    (.text shadowPlan.importcfg.render)

theorem generates_shadowTree {archives : List (String × Path)} {plan : Plan} {t' : FileTree}
    (h : Generates shadowTree shadowGraph ⟨"/b"⟩ shadowTarget archives plan t') :
    plan = shadowPlan ∧ t' = shadowTreeAfter := by
  obtain ⟨t₁, t₂, hdirs, hwrite, harchives, hlast⟩ := h.files
  obtain rfl : [] = archives := Except.ok.inj harchives
  obtain rfl : plan = shadowPlan := h.plan_eq
  obtain rfl := Except.ok.inj (makeDirectories_shadowTree.symm.trans hdirs)
  obtain rfl := Except.ok.inj (write_shadowTree.symm.trans hwrite)
  have hplace : (shadowTree.setContent ["b", "importcfg"] (.text "")).resolveWrite
      (Layout.importcfg ⟨⟨"/b"⟩⟩) = .ok ["b", "importcfg"] :=
    FileTree.resolveWrite_of_isWritable ["b"] "importcfg" rfl rfl rfl rfl (by decide)
      (Or.inl ⟨rfl, by rintro node ⟨⟩; rfl⟩)
  rw [FileTree.write, hplace] at hlast
  exact ⟨rfl, (Except.ok.inj hlast).symm⟩

/-- **An import that is not supplied:** the other import path of the package is that of the
root, whose archive is written last. -/
theorem exists_import_not_supplied :
    ∃ b s' c earlier later,
      (planBuild ⟨"/app"⟩ ⟨"/b"⟩ shadowTarget).outcome ⟨shadowTree, []⟩ = (.ok b, s') ∧
      IsFor c shadowTree ⟨"/app"⟩ b.layout.base shadowTarget ∧
      b.graph.package? root = some shadowRoot ∧
      b.plan.invocations =
        earlier ++ Block.compile ⟨b.layout, shadowTarget⟩ shadowRoot :: later ∧
      earlier.filter (fun i => i.tool = .compile) =
        [Block.compile ⟨b.layout, shadowTarget⟩ shadowedPackage] ∧
      shadowRoot.Writes shadowTree "main" ∧ ¬ c.Passes b.graph.precompiled "main" ∧
      c.dependency? b.graph "main" = some 1 ∧ b.graph.package? 1 = some shadowedPackage ∧
      ¬ IsSupplied s'.tree shadowTarget b earlier "main" shadowedPackage := by
  obtain ⟨b, s', hbuild, hgraph, hlayout⟩ := exists_planBuild_shadowTree
  obtain ⟨archives, plan, r, hgenerates, -, hplan⟩ := (planBuild_ok hbuild).plan
  rw [hgraph, hlayout] at hgenerates
  obtain ⟨rfl, htree⟩ := generates_shadowTree hgenerates
  obtain ⟨earlier, later, hinvocations, hearlier⟩ :=
    Plan.exists_invocations_eq ⟨⟨⟨"/b"⟩⟩, shadowTarget⟩ [] r.importPath toBuild_shadowGraph rfl
  refine ⟨b, s', shadowDiscovery, earlier, later, hbuild, ?_⟩
  rw [hgraph, hlayout]
  refine ⟨isFor_shadowTree.2 rfl, rfl, ?_, hearlier, writes_shadowRoot (by simp),
    not_passes_shadowDiscovery (by simp), dependency?_shadowDiscovery (by simp), rfl, ?_⟩
  · rw [hplan, hlayout]
    exact hinvocations
  · rintro ⟨archive, hentry, hathand⟩
    rw [hplan] at hentry
    obtain rfl := Option.some.inj (archive?_shadowPlan.symm.trans hentry)
    rcases hathand.cases hearlier with hcached | ⟨place, steps, hfind, -⟩ | ⟨j, hj, q, hq, hsame⟩
    · cases hcached
    · have hnone : (shadowTreeAfter.find shadowTarget.archiveDir).toOption = none := rfl
      rw [← htree, hfind] at hnone
      cases hnone
    · obtain rfl := List.mem_singleton.1 hj
      obtain rfl := Option.some.inj hq
      revert hsame
      decide

end GoPlanner

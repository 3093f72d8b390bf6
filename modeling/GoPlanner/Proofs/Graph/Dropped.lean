import GoPlanner.Proofs.Graph.Bare

/-!
# Dropping Stale Archives

The archives of a graph are sifted once, behind discovery. What is left is said here without the
walk that does it: which archives stay, which import paths are reported and in what order, and that
nothing else changes. Sifting the result again finds nothing to drop.

## Main definitions

* `PackageGraph.archive?`, `PackageGraph.importPath?`: fields of a package, by its number.
* `PackageGraph.DropsStale`: the graph and the report that dropping stale archives leaves.

## Main results

* `PackageGraph.DropsStale.isCached_iff`: which packages are used as archives afterwards.
* `PackageGraph.DropsStale.keepsArchive`: the archives that stay are not stale.
* `PackageGraph.exists_dropsStale`: what dropping stale archives leaves, and that doing it again
  changes nothing.
-/

namespace GoPlanner

namespace PackageGraph

open Relation

variable {g g' : PackageGraph} {id : PackageId} {archive : Path} {lost : List String}

/-! ### Archives and import paths by number -/

/-- The archive that is used for a package. -/
def archive? (g : PackageGraph) (id : PackageId) : Option Path :=
  (g.package? id).bind (·.cachedArchive)

/-- The import path of a package. -/
def importPath? (g : PackageGraph) (id : PackageId) : Option String :=
  (g.package? id).map (·.importPath)

theorem isCached_eq_isSome : g.isCached id = (g.archive? id).isSome := by
  rw [isCached, archive?]
  cases g.package? id <;> rfl

theorem archive?_withoutArchives {stale : PackageId → Bool} :
    (g.withoutArchives stale).archive? id = if stale id then none else g.archive? id := by
  rw [archive?, package?_withoutArchives, archive?]
  cases g.package? id <;> cases stale id <;> rfl

/-- Only packages of the graph have archives. -/
theorem lt_size_of_isCached (h : g.isCached id = true) : id < g.size := by
  obtain ⟨p, hp, -⟩ := exists_of_isCached h
  exact lt_size_of_package? hp

/-! ### What is left -/

/-- **What dropping stale archives leaves:** a graph and a report. -/
structure DropsStale (g g' : PackageGraph) (lost : List String) : Prop where
  /-- A package that the root leads to has an archive exactly if it had this archive, and every
  package that it leads to had one. -/
  archive_iff : ∀ id archive, g.Leads root id → (g'.archive? id = some archive ↔
    g.archive? id = some archive ∧ ∀ other, g.Leads id other → g.isCached other = true)
  /-- The other packages stay as they are. -/
  others : ∀ id, ¬ g.Leads root id → g'.package? id = g.package? id
  /-- Nothing but archives changes. -/
  bare_eq : g'.bare = g.bare
  /-- The report has one import path for every package that lost its archive, in build order. -/
  lost_eq : lost.map some =
    (g.buildOrder.filter (fun id => g.isCached id && !g'.isCached id)).map g.importPath?

namespace DropsStale

/-- **The packages that are used as archives** are those that keep theirs. -/
theorem isCached_iff (h : g.DropsStale g' lost) (hleads : g.Leads root id) :
    g'.isCached id = true ↔ g.KeepsArchive id := by
  rw [isCached_eq_isSome, Option.isSome_iff_exists]
  constructor
  · rintro ⟨archive, harchive⟩
    exact ((h.archive_iff id archive hleads).1 harchive).2
  · intro hkeeps
    have hcached := hkeeps.isCached
    rw [isCached_eq_isSome, Option.isSome_iff_exists] at hcached
    obtain ⟨archive, harchive⟩ := hcached
    exact ⟨archive, (h.archive_iff id archive hleads).2 ⟨harchive, hkeeps⟩⟩

theorem imports_eq (h : g.DropsStale g' lost) : g'.Imports = g.Imports := by
  funext importer dependency
  rw [Imports, Imports, importsOf_eq_of_bare h.bare_eq]

theorem leads_iff (h : g.DropsStale g' lost) {other : PackageId} :
    g'.Leads id other ↔ g.Leads id other := by
  rw [Leads, Leads, h.imports_eq]

/-- **The archives that stay** are not stale. -/
theorem keepsArchive (h : g.DropsStale g' lost) (hleads : g.Leads root id)
    (hcached : g'.isCached id = true) : g'.KeepsArchive id := by
  intro other hother
  have hother' : g.Leads id other := h.leads_iff.1 hother
  refine (h.isCached_iff (hleads.trans hother')).2 fun last hlast => ?_
  exact (h.isCached_iff hleads).1 hcached last (hother'.trans hlast)

end DropsStale

/-! ### The report -/

theorem lostPath?_eq : g.lostPath? id =
    if g.isCached id && !(g.withoutArchives (g.lostAmong [id])).isCached id then g.importPath? id
    else none := by
  rw [isCached_withoutArchives, importPath?]
  by_cases hkeeps : g.KeepsArchive id
  · simp [lostPath?, lostAmong, hkeeps]
  · rw [isCached]
    cases hp : g.package? id with
    | none => simp [lostPath?, hp]
    | some p =>
        by_cases hcached : p.isCached = true <;>
          simp [lostPath?, lostAmong, hkeeps, hp, hcached]

/-! ### Sifting -/

/-- **What sifting leaves** when the packages of the build order have been left. -/
theorem dropsStale_withoutArchives (g : PackageGraph) :
    g.DropsStale (g.withoutArchives (g.lostAmong g.buildOrder))
      (g.buildOrder.filterMap g.lostPath?) where
  archive_iff := by
    intro id archive hleads
    rw [archive?_withoutArchives]
    by_cases hid : id < g.size
    · have hlisted : id ∈ g.buildOrder := mem_buildOrder.2 ⟨hid, hleads⟩
      by_cases hkeeps : g.KeepsArchive id
      · have hlost : g.lostAmong g.buildOrder id = false := by simp [lostAmong, hkeeps]
        rw [hlost]
        exact (and_iff_left hkeeps).symm
      · have hlost : g.lostAmong g.buildOrder id = true := by simp [lostAmong, hkeeps, hlisted]
        rw [hlost]
        constructor
        · intro hkept
          cases hkept
        · exact fun hkept => absurd hkept.2 hkeeps
    · have hnone : g.archive? id = none := by
        rw [← Option.not_isSome_iff_eq_none, ← isCached_eq_isSome]
        exact fun hcached => hid (lt_size_of_isCached hcached)
      simp [hnone]
  others := by
    intro id hleads
    have hlost : g.lostAmong g.buildOrder id = false := by
      simp [lostAmong, mem_buildOrder, hleads]
    rw [package?_withoutArchives, hlost]
    simp
  bare_eq := bare_withoutArchives
  lost_eq := by
    have hpaths : ∀ id ∈ g.buildOrder, g.lostPath? id =
        if g.isCached id && !(g.withoutArchives (g.lostAmong g.buildOrder)).isCached id then
          g.importPath? id
        else none := by
      intro id hid
      have hlost : g.lostAmong g.buildOrder id = g.lostAmong [id] id := by simp [lostAmong, hid]
      rw [lostPath?_eq, isCached_withoutArchives, isCached_withoutArchives, hlost]
    rw [List.filterMap_congr hpaths, ← List.filterMap_filter,
      List.map_filterMap_some_eq_filter_map_isSome, List.filter_eq_self]
    intro path hpath
    obtain ⟨id, hid, rfl⟩ := List.mem_map.1 hpath
    rw [importPath?, Option.isSome_map]
    exact package?_isSome.2 (mem_buildOrder.1 (List.mem_filter.1 hid).1).1

/-- **Where no archive is stale,** nothing is dropped. -/
theorem dropStale?_eq_self (hg : g.ClosedBelow root) (hroot : g.Grounded root)
    (h : ∀ id, g.Leads root id → g.isCached id = true → g.KeepsArchive id) :
    g.dropStale? = some (g, []) := by
  have hlisted : ∀ id ∈ g.buildOrder, g.isCached id = true → g.KeepsArchive id :=
    fun id hid => h id (mem_buildOrder.1 hid).2
  have hlost : g.buildOrder.filterMap g.lostPath? = [] :=
    List.filterMap_eq_nil_iff.2 fun id hid => lostPath?_eq_none (hlisted id hid)
  rw [dropStale?_eq hg hroot, withoutArchives_lostAmong_eq hlisted, hlost]

/-- **Dropping stale archives** ends where the root leads to no circle. It leaves the archives of
exactly those packages that lead to packages with archives only, reports the others that had one in
build order, and changes nothing else; when it is done again, it changes nothing at all. -/
theorem exists_dropsStale (hclosed : g.ClosedBelow root)
    (hcircle : ∀ id, g.Leads root id → ¬ g.OnCircle id) :
    ∃ g' lost, g.dropStale? = some (g', lost) ∧ g.DropsStale g' lost ∧
      g'.dropStale? = some (g', []) := by
  have hroot : g.Grounded root := by
    by_cases hsize : root < g.size
    · exact grounded_of_no_circle hclosed hsize hcircle
    · exact grounded_of_size_le (Nat.not_lt.1 hsize)
  have hdrops := dropsStale_withoutArchives g
  refine ⟨_, _, dropStale?_eq hclosed hroot, hdrops, ?_⟩
  refine dropStale?_eq_self ?_ (grounded_of_bare hdrops.bare_eq hroot)
    fun id hleads hcached => hdrops.keepsArchive (hdrops.leads_iff.1 hleads) hcached
  intro importer dependency hleads himports
  rw [hdrops.imports_eq] at himports
  rw [size_eq_of_bare hdrops.bare_eq]
  exact hclosed importer dependency (hdrops.leads_iff.1 hleads) himports

/-- A package with the given archive and imports. -/
def stalePackage (importPath : String) (archive? : Option Path) (imports : List PackageId) :
    Package where
  directory := ⟨"/src/" ++ importPath⟩
  importPath := importPath
  name := importPath
  cachedArchive := archive?
  imports := imports

/-- The root imports `a` and `b`. Both import `d`, which has an archive, and `a` imports `c`, which
has none. Nothing leads to `e`. -/
def staleGraph : PackageGraph where
  packages :=
    [stalePackage "main" none [1, 2], stalePackage "a" (some ⟨"/a.a"⟩) [4, 5],
      stalePackage "b" (some ⟨"/b.a"⟩) [5], stalePackage "e" (some ⟨"/e.a"⟩) [4],
      stalePackage "c" none [], stalePackage "d" (some ⟨"/d.a"⟩) []]

theorem exists_dropsStale_shared :
    staleGraph.ClosedBelow root ∧ (∀ id, staleGraph.Leads root id → ¬ staleGraph.OnCircle id) ∧
      ∃ g', staleGraph.dropStale? = some (g', ["a"]) ∧ staleGraph.DropsStale g' ["a"] ∧
        g'.dropStale? = some (g', []) := by
  have hlater : ∀ importer < staleGraph.size, ∀ dependency ∈ staleGraph.importsOf importer,
      importer < dependency ∧ dependency < staleGraph.size := by decide
  have hclosed : staleGraph.ClosedBelow root := fun importer dependency _ himports =>
    (hlater importer himports.importer_lt dependency himports).2
  have hcircle : ∀ id, staleGraph.Leads root id → ¬ staleGraph.OnCircle id :=
    fun id => not_onCircle_of_grounded (grounded_of_later hlater root)
  obtain ⟨g', lost, hdrop, hdrops, hagain⟩ := exists_dropsStale hclosed hcircle
  obtain rfl : ["a"] = lost := by
    have hlost : staleGraph.dropStale?.map (·.2) = some ["a"] := by decide +kernel
    rw [hdrop] at hlost
    exact (Option.some.inj hlost).symm
  exact ⟨hclosed, hcircle, g', hdrop, hdrops, hagain⟩

end PackageGraph

end GoPlanner

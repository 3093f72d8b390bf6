import GoPlanner.Proofs.Graph.Growth
import GoPlanner.Proofs.Graph.Stale

/-!
# Graphs Without Archives

Which archives of a graph are in use depends on times. Everything else about two graphs is the
same exactly if they are equal without their archives.

## Main definitions

* `Package.bare`, `PackageGraph.bare`: a package and a graph without archives.

## Main results

* `PackageGraph.bare_extended`, `PackageGraph.bare_addImport`, `PackageGraph.bare_addAlias`: what
  is added to a graph is added to the one without archives.
* `PackageGraph.bare_withoutArchives`: archives that are taken away make no difference.
* `PackageGraph.byDirectory?_eq_of_bare`, `PackageGraph.importsOf_eq_of_bare`,
  `PackageGraph.exists_package_of_bare`: what graphs share that are equal without archives.
-/

namespace GoPlanner

/-- A package without an archive. -/
def Package.bare (p : Package) : Package :=
  { p with cachedArchive := none }

theorem Package.bare_withImport (p : Package) (dependency : PackageId) :
    (p.withImport dependency).bare = p.bare.withImport dependency := by
  rw [withImport, withImport, apply_ite bare]
  rfl

theorem Package.bare_withAlias (p : Package) (importPath : String) :
    (p.withAlias importPath).bare = p.bare.withAlias importPath := by
  rw [withAlias, withAlias, apply_ite bare]
  rfl

/-- Packages that are equal without their archives differ in these only. -/
theorem Package.eq_of_bare {p q : Package} (h : q.bare = p.bare) :
    q = { p with cachedArchive := q.cachedArchive } := by
  cases p
  cases q
  simpa [bare] using h

namespace PackageGraph

variable {g g' : PackageGraph} {id k : PackageId} {p : Package} {directory : Path}

/-- **A graph without archives.** -/
def bare (g : PackageGraph) : PackageGraph :=
  { g with packages := g.packages.map Package.bare }

theorem package?_bare : g.bare.package? id = (g.package? id).map Package.bare := by
  simp [package?, bare]

theorem bare_extended : (g.extended p).bare = g.bare.extended p.bare := by
  simp [bare, extended]

theorem bare_modify {f : Package → Package} (hf : ∀ p, (f p).bare = f p.bare) :
    (g.modify id f).bare = g.bare.modify id f := by
  refine ext_package? (fun k => ?_) rfl
  rw [package?_bare, package?_modify, package?_modify, package?_bare, Option.map_map, Option.map_map]
  congr 1
  funext p
  dsimp only [Function.comp]
  split
  · exact hf p
  · rfl

theorem bare_addImport : (g.addImport id k).bare = g.bare.addImport id k :=
  bare_modify fun p => p.bare_withImport k

theorem bare_addAlias {importPath : String} :
    (g.addAlias id importPath).bare = g.bare.addAlias id importPath :=
  bare_modify fun p => p.bare_withAlias importPath

theorem bare_withoutArchives {stale : PackageId → Bool} :
    (g.withoutArchives stale).bare = g.bare := by
  refine ext_package? (fun id => ?_) rfl
  rw [package?_bare, package?_bare, package?_withoutArchives, Option.map_map]
  refine congrFun (congrArg Option.map (funext fun p => ?_)) _
  dsimp only [Function.comp]
  split <;> rfl

/-! ### Graphs that are equal without archives -/

section

variable (h : g'.bare = g.bare)
include h

theorem precompiled_eq_of_bare : g'.precompiled = g.precompiled := by
  have hprecompiled : g'.bare.precompiled = g.bare.precompiled := congrArg precompiled h
  exact hprecompiled

theorem size_eq_of_bare : g'.size = g.size := by
  simpa [size, bare] using congrArg size h

theorem byDirectory?_eq_of_bare : g'.byDirectory? directory = g.byDirectory? directory := by
  refine byDirectory?_eq_of_directories fun id => ?_
  have hpackage := congrArg (fun g => (g.package? id).map (·.directory)) h
  simpa [package?_bare, Package.bare, Function.comp_def] using hpackage

theorem importsOf_eq_of_bare : g'.importsOf id = g.importsOf id := by
  have hpackage := congrArg (fun g => ((g.package? id).map (·.imports)).getD []) h
  simpa [package?_bare, Package.bare, importsOf, Function.comp_def] using hpackage

/-- **The packages** are the same, but for their archives. -/
theorem exists_package_of_bare (hp : g.package? id = some p) :
    ∃ archive?, g'.package? id = some { p with cachedArchive := archive? } := by
  have hpackage := congrArg (fun g => g.package? id) h
  simp only [package?_bare, hp] at hpackage
  obtain ⟨q, hq, hbare⟩ := Option.map_eq_some_iff.1 hpackage
  exact ⟨q.cachedArchive, hq.trans (congrArg some (Package.eq_of_bare hbare))⟩

theorem grounded_of_bare (hid : g.Grounded id) : g'.Grounded id := by
  have himports : g'.Imports = g.Imports := by
    funext importer dependency
    rw [Imports, Imports, importsOf_eq_of_bare h]
  rwa [Grounded, himports]

end

end PackageGraph

end GoPlanner

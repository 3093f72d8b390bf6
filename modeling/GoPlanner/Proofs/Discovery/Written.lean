import GoPlanner.Proofs.Discovery.Contents

/-!
# Written Imports

The imports of a package are the import paths that are written in the headers of its Go
files. Each of them is recorded for the package that it stands for, and nothing else is.

## Main definitions

* `WrittenIn`: an import path in the header of a file.
* `Package.Writes`: an import path in a Go file of a package.

## Main results

* `Discovery.Complete.mem_imports_iff`: the import paths of a complete package.
* `Discovery.Finds.imports_of_writes`, `Discovery.Finds.exists_writes`: imports and import
  paths in a graph that is found.
-/

namespace GoPlanner

/-- **An import path is written in a file** when its header has it. -/
def WrittenIn (t : FileTree) (file : Path) (importPath : String) : Prop :=
  ∃ src header, t.readSource file = .ok src ∧ scanHeader src = .ok header ∧
    importPath ∈ header.imports.map (·.path)

/-- **An import path is written in a package** when one of its Go files has it. -/
def Package.Writes (p : Package) (t : FileTree) (importPath : String) : Prop :=
  ∃ file ∈ p.goPaths, WrittenIn t file importPath

/-- What is written in a package does not change when it evolves. -/
theorem Package.Evolves.writes {p q : Package} (h : p.Evolves q) {t : FileTree} {s : String} :
    q.Writes t s ↔ p.Writes t s := by
  rw [Package.Writes, Package.Writes, Package.goPaths, Package.goPaths, h.directory, h.goFiles]

/-- The import paths in a file are those that are written in it. -/
theorem FileTree.mem_importsIn {t : FileTree} {file : Path} {s : String} :
    s ∈ t.importsIn file ↔ WrittenIn t file s := by
  constructor
  · intro h
    rw [importsIn] at h
    split at h
    · rename_i header hheader
      obtain ⟨src, hsrc, hheader⟩ := Option.bind_eq_some_iff.1 hheader
      exact ⟨src, header, ok_of_toOption hsrc, ok_of_toOption hheader, h⟩
    · simp at h
  · rintro ⟨src, header, hsrc, hheader, h⟩
    rwa [importsIn, header?_eq_some hsrc hheader]

theorem Package.mem_written {p : Package} {t : FileTree} {s : String} :
    s ∈ p.written t ↔ p.Writes t s := by
  rw [Package.written, List.mem_flatMap]
  exact exists_congr fun file => and_congr_right fun _ => FileTree.mem_importsIn

namespace Discovery

variable {c : Discovery} {start : Arrival} {g : PackageGraph} {id : PackageId} {p : Package}
  {imports : List String} {s : String} {precompiled : Bool}

/-- The import paths of a package that was read are written in it. -/
theorem Reads.mem_imports_iff {a : Arrival} {isRoot : Bool} (h : c.Reads a isRoot p imports) :
    s ∈ imports ↔ p.Writes c.tree s := by
  rw [h.imports_eq, List.mem_eraseDups, Package.mem_written]

/-- **The import paths of a complete package** are written in it. -/
theorem Complete.mem_imports_iff (h : c.Complete start g id p imports) :
    s ∈ imports ↔ p.Writes c.tree s := by
  rw [h.imports_eq, List.mem_eraseDups, Package.mem_written]

/-- **A written import is recorded,** and its package knows the import path. -/
theorem Finds.imports_of_writes (h : c.Finds start precompiled g) (hp : g.package? id = some p)
    (hs : p.Writes c.tree s) {directory : Path} (hgoal : c.goal? precompiled s = some directory) :
    ∃ k q, g.Imports id k ∧ g.byDirectory? directory = some k ∧ g.package? k = some q ∧
      s ∈ q.importPaths := by
  obtain ⟨p', imports, hcomplete⟩ := h.complete (PackageGraph.lt_size_of_package? hp)
  obtain rfl : p = p' := Option.some.inj (hp.symm.trans hcomplete.package)
  have hmem := hcomplete.mem_imports_iff.2 hs
  rw [← h.precompiled_eq] at hgoal
  obtain ⟨k, q, hk, hq, hpath⟩ := (hcomplete.settled s hmem).known directory hgoal
  refine ⟨k, q, ?_, hk, hq, hpath⟩
  rw [PackageGraph.Imports, PackageGraph.importsOf_eq hp, hcomplete.linked, mem_recordAll]
  exact Or.inr (List.mem_filterMap.2 ⟨s, hmem, by simp [dependency?, hgoal, hk]⟩)

/-- **A written import path** stands for a package, unless it passes. -/
theorem Finds.exists_goal (h : c.Finds start precompiled g) (hp : g.package? id = some p)
    (hs : p.Writes c.tree s) (hpasses : ¬ c.Passes precompiled s) :
    ∃ directory, c.goal? precompiled s = some directory := by
  obtain ⟨p', imports, hcomplete⟩ := h.complete (PackageGraph.lt_size_of_package? hp)
  obtain rfl : p = p' := Option.some.inj (hp.symm.trans hcomplete.package)
  exact exists_goal? (hcomplete.settled s (hcomplete.mem_imports_iff.2 hs)).located hpasses

/-- **Every import is written** in the package. -/
theorem Finds.exists_writes (h : c.Finds start precompiled g) (hp : g.package? id = some p)
    {k : PackageId} (himports : g.Imports id k) :
    ∃ s, p.Writes c.tree s ∧ c.dependency? g s = some k := by
  obtain ⟨p', imports, hcomplete⟩ := h.complete (PackageGraph.lt_size_of_package? hp)
  obtain rfl : p = p' := Option.some.inj (hp.symm.trans hcomplete.package)
  rw [PackageGraph.Imports, PackageGraph.importsOf_eq hp, hcomplete.linked, mem_recordAll] at himports
  rcases himports with himports | himports
  · simp at himports
  · obtain ⟨s, hs, hk⟩ := List.mem_filterMap.1 himports
    exact ⟨s, hcomplete.mem_imports_iff.1 hs, hk⟩

end Discovery

end GoPlanner

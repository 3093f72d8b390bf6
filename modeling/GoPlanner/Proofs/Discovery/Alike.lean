import GoPlanner.Proofs.Discovery.Succeeds
import GoPlanner.Proofs.FileTree.Descend

/-!
# Discoveries That Look Up Alike

What an import path stands for depends on the directories, on the archives and on the module file
only. Two file trees that agree about these differ for discovery in what reading a directory gives,
and in nothing else.

## Main definitions

* `Discovery.inTree`: the same discovery in another file tree.
* `Discovery.LooksUpAlike`: two trees in which import paths stand for the same places.

## Main results

* `FileTree.loadModule_congr`: trees with the same module.
* `Discovery.LooksUpAlike.arrives_iff`, `Discovery.LooksUpAlike.goal?_eq`: import paths in them.
* `Discovery.IsFor.inTree`: the discovery of an input in the other tree.
* `exists_discover_of_finds`: the graph that is discovered in the other tree.
-/

namespace GoPlanner

open Telling

/-! ### Modules -/

theorem Place.text_path_ne (place : Place) : place.path.text ≠ "" := by
  rw [Place.path]
  intro hempty
  have htext := congrArg String.toList hempty
  simp at htext

/-- **The module is the same** in trees with the same module files. -/
theorem FileTree.loadModule_congr {t t' : FileTree} {root : Path} (hroot : root.text ≠ "")
    (hfile : ∀ above : Path,
      t'.isFile (above.child moduleFileName) = t.isFile (above.child moduleFileName))
    (htext : ∀ above : Path, t.isFile (above.child moduleFileName) = true →
      t'.readText (above.child moduleFileName) = t.readText (above.child moduleFileName)) :
    t'.loadModule root = t.loadModule root := by
  have hmodule : t'.moduleRoot? root = t.moduleRoot? root := by
    rw [moduleRoot?, moduleRoot?, upward?_eq hroot (by decide) (by decide),
      upward?_eq hroot (by decide) (by decide)]
    simp only [hfile]
  rw [loadModule, loadModule, hmodule]
  cases habove : t.moduleRoot? root with
  | none => rfl
  | some above =>
      rw [moduleRoot?, upward?] at habove
      have hthere : t.isFile (above.child moduleFileName) = true := by
        simpa using List.find?_some habove
      simp only [htext above hthere]

namespace Discovery

variable {c : Discovery} {t t' : FileTree} {s : String} {a : Arrival} {directory : Path}
  {precompiled : Bool}

/-- **The same discovery** in another file tree. -/
def inTree (c : Discovery) (t : FileTree) : Discovery :=
  { c with tree := t }

@[simp] theorem tree_inTree : (c.inTree t).tree = t :=
  rfl

@[simp] theorem target_inTree : (c.inTree t).target = c.target :=
  rfl

@[simp] theorem locator_inTree : (c.inTree t).locator = c.locator :=
  rfl

@[simp] theorem layout_inTree : (c.inTree t).layout = c.layout :=
  rfl

/-- **Import paths stand for the same places** in another tree. -/
structure LooksUpAlike (c : Discovery) (t : FileTree) : Prop where
  /-- Their locations are the same. -/
  locate : ∀ s, c.locator.locate t s = c.locator.locate c.tree s
  /-- Paths of directories lead to the same places. -/
  resolve : ∀ directory place, c.tree.isDirectory directory = true →
    (t.resolve directory = .ok place ↔ c.tree.resolve directory = .ok place)

namespace LooksUpAlike

theorem symm (h : c.LooksUpAlike t) (hdirectory : ∀ p, t.isDirectory p = c.tree.isDirectory p) :
    (c.inTree t).LooksUpAlike c.tree where
  locate := fun s => (h.locate s).symm
  resolve := fun directory place hdir =>
    (h.resolve directory place (hdirectory directory ▸ hdir)).symm

theorem passes_iff (h : c.LooksUpAlike t) :
    (c.inTree t).Passes precompiled s ↔ c.Passes precompiled s := by
  rw [Passes, Passes, tree_inTree, locator_inTree, h.locate]

theorem isArchived_iff (h : c.LooksUpAlike t) :
    (c.inTree t).IsArchived s directory ↔ c.IsArchived s directory := by
  rw [IsArchived, IsArchived, tree_inTree, locator_inTree, h.locate]

theorem arrives_iff (h : c.LooksUpAlike t) :
    (c.inTree t).Arrives precompiled s a ↔ c.Arrives precompiled s a := by
  have hlocated : (∃ directory, (c.inTree t).locator.locate (c.inTree t).tree s =
        some (.source directory a.isInternal) ∧ (c.inTree t).tree.resolve directory = .ok a.place) ↔
      ∃ directory, c.locator.locate c.tree s = some (.source directory a.isInternal) ∧
        c.tree.resolve directory = .ok a.place := by
    refine exists_congr fun directory => ?_
    rw [tree_inTree, locator_inTree, h.locate]
    refine and_congr_right fun hsource => ?_
    exact h.resolve directory a.place (Locator.isThere_of_locate hsource)
  exact ⟨fun ⟨h₁, h₂, h₃, h₄⟩ => ⟨hlocated.1 h₁, h₂, h₃, h₄⟩,
    fun ⟨h₁, h₂, h₃, h₄⟩ => ⟨hlocated.2 h₁, h₂, h₃, h₄⟩⟩

/-- **Import paths stand for the same directories.** -/
theorem goal?_eq (h : c.LooksUpAlike t) :
    (c.inTree t).goal? precompiled s = c.goal? precompiled s := by
  cases hgoal : c.goal? precompiled s with
  | some directory =>
      rcases cases_of_goal? hgoal with harchived | ⟨a, harrives, rfl⟩
      · exact goal?_of_archived (h.isArchived_iff.2 harchived)
      · exact goal?_of_arrives (h.arrives_iff.2 harrives)
  | none =>
      cases hgoal' : (c.inTree t).goal? precompiled s with
      | none => rfl
      | some directory =>
          rcases cases_of_goal? hgoal' with harchived | ⟨a, harrives, rfl⟩
          · rw [goal?_of_archived (h.isArchived_iff.1 harchived)] at hgoal
            cases hgoal
          · rw [goal?_of_arrives (h.arrives_iff.1 harrives)] at hgoal
            cases hgoal

end LooksUpAlike

/-- **An import path arrives** at one place only. -/
theorem Arrives.unique {b : Arrival} (h : c.Arrives precompiled s a)
    (h' : c.Arrives precompiled s b) : a = b := by
  obtain ⟨directory, hlocated, hplace⟩ := h.located
  obtain ⟨directory', hlocated', hplace'⟩ := h'.located
  obtain ⟨rfl, hinternal⟩ := Location.source.inj (Option.some.inj (hlocated.symm.trans hlocated'))
  have hsame : a.place = b.place := Except.ok.inj (hplace.symm.trans hplace')
  obtain ⟨place, importPath, isInternal, onlyFile⟩ := a
  obtain ⟨place', importPath', isInternal', onlyFile'⟩ := b
  obtain ⟨-, -, hpath, hfile⟩ := h
  obtain ⟨-, -, hpath', hfile'⟩ := h'
  simp_all

theorem Arrives.not_isArchived (h : c.Arrives precompiled s a) : ¬ c.IsArchived s directory := by
  rintro ⟨archive, harchived⟩
  obtain ⟨other, hlocated, -⟩ := h.located
  cases hlocated.symm.trans harchived

/-- **The discovery of an input** in a tree with the same module. -/
theorem IsFor.inTree {input buildDir : Path} {target : Target} {place : Place}
    (h : c.IsFor t input buildDir target) (hplace : t.resolve input = .ok place)
    (hplace' : t'.resolve input = .ok place) (hroot : rootOf t' place = rootOf t place)
    (hmodule : t'.loadModule (rootOf t place).directory = t.loadModule (rootOf t place).directory) :
    (c.inTree t').IsFor t' input buildDir target := by
  obtain ⟨other, module?, hother, hmodule?, rfl⟩ := h
  obtain rfl : place = other := Except.ok.inj (hplace.symm.trans hother)
  refine ⟨place, module?, hplace', ?_, by rw [hroot]; rfl⟩
  rw [hroot]
  rw [moduleOf, hmodule]
  exact hmodule?

end Discovery

open Discovery

/-- **What is found in another tree** is the graph that is discovered there, but for archives. -/
theorem exists_discover_of_finds {c : Discovery} {t t' : FileTree} {input buildDir : Path}
    {target : Target} {place : Place} {g found : PackageGraph}
    (hfor : IsFor (c.inTree t') t' input buildDir target) (hplace : t.resolve input = .ok place)
    (hplace' : t'.resolve input = .ok place)
    (hdirectoryAt : ∀ place, t'.isDirectoryAt place = t.isDirectoryAt place)
    (hdirectory : ∀ p, t'.isDirectory p = t.isDirectory p)
    (hg : (discover t input buildDir target).outcome.1 = .ok g)
    (hfinds : (c.inTree t').Finds (rootOf t place) (t.isDirectory target.archiveDir) found)
    (hgrounded : found.Grounded PackageGraph.root) :
    ∃ g', (discover t' input buildDir target).outcome.1 = .ok g' ∧ g'.bare = found.bare := by
  have hends := ends_of_outcome hg
  rw [discover] at hends
  obtain ⟨_, hfound, -⟩ := hends.bind
  have hdir := isDirectoryAt_of_discoverAll hplace hfound
  have hroot : rootOf t' place = rootOf t place := by rw [rootOf, rootOf, hdirectoryAt]
  rw [← hdirectoryAt, ← hroot] at hdir
  rw [← hdirectory, ← hroot] at hfinds
  have hsifts : Sifts (c.inTree t') _ _ found _ := ⟨hfinds, hgrounded, rfl⟩
  exact ⟨_, outcome_discover_of_finds hfor hplace' hdir hfinds hgrounded, hsifts.bare_eq⟩

end GoPlanner

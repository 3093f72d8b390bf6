import GoPlanner.Graph.Basic
import Mathlib.Data.List.Perm.Subperm
import Mathlib.Logic.Relation

/-!
# The Import Relation of a Graph

A package leads to another one if it is that package, or imports a package that leads to
it. A package lies on a circle if one of its imports leads back to it.

## Main definitions

* `PackageGraph.Imports`, `PackageGraph.Leads`, `PackageGraph.OnCircle`: the relations.
* `PackageGraph.IsClosed`, `PackageGraph.ClosedBelow`: every import is a package of the graph, or
  every one that a package leads to.
* `PackageGraph.Grounded`: the packages from which every walk along imports ends.

## Main results

* `PackageGraph.not_onCircle_of_grounded`: a grounded package leads to no circle.
* `PackageGraph.grounded_of_no_circle`: without circles all packages are grounded.
-/

namespace GoPlanner

namespace PackageGraph

open Relation

variable {g : PackageGraph}

/-- One package imports another one. -/
def Imports (g : PackageGraph) (importer dependency : PackageId) : Prop :=
  dependency ∈ g.importsOf importer

instance (g : PackageGraph) (importer dependency : PackageId) :
    Decidable (g.Imports importer dependency) :=
  inferInstanceAs (Decidable (dependency ∈ g.importsOf importer))

/-- **A package leads to another one** along imports. -/
def Leads (g : PackageGraph) : PackageId → PackageId → Prop :=
  ReflTransGen g.Imports

/-- **A package lies on a circle** of imports. -/
def OnCircle (g : PackageGraph) (id : PackageId) : Prop :=
  TransGen g.Imports id id

/-- Every import is a package of the graph. -/
def IsClosed (g : PackageGraph) : Prop :=
  ∀ importer dependency, g.Imports importer dependency → dependency < g.size

/-- Every import of the packages that a package leads to is a package of the graph. -/
def ClosedBelow (g : PackageGraph) (id : PackageId) : Prop :=
  ∀ importer dependency, g.Leads id importer → g.Imports importer dependency → dependency < g.size

/-- **Every walk along imports** from a package ends. -/
def Grounded (g : PackageGraph) : PackageId → Prop :=
  Acc (fun dependency importer => g.Imports importer dependency)

/-! ### Packages by number -/

theorem package?_isSome {id : PackageId} : (g.package? id).isSome ↔ id < g.size := by
  simp [package?, size]

theorem exists_package {id : PackageId} (h : id < g.size) : ∃ p, g.package? id = some p :=
  Option.isSome_iff_exists.1 (package?_isSome.2 h)

theorem lt_size_of_package? {id : PackageId} {p : Package} (h : g.package? id = some p) :
    id < g.size :=
  package?_isSome.1 (by simp [h])

theorem importsOf_eq {id : PackageId} {p : Package} (h : g.package? id = some p) :
    g.importsOf id = p.imports := by
  simp [importsOf, h]

/-- Only packages of the graph import anything. -/
theorem Imports.exists_importer {importer dependency : PackageId}
    (h : g.Imports importer dependency) :
    ∃ p, g.package? importer = some p ∧ dependency ∈ p.imports := by
  rw [Imports, importsOf] at h
  cases hp : g.package? importer with
  | none => simp [hp] at h
  | some p => exact ⟨p, rfl, by simpa [hp] using h⟩

theorem Imports.importer_lt {importer dependency : PackageId}
    (h : g.Imports importer dependency) : importer < g.size := by
  obtain ⟨p, hp, -⟩ := h.exists_importer
  exact lt_size_of_package? hp

theorem isCached_eq {id : PackageId} {p : Package} (h : g.package? id = some p) :
    g.isCached id = p.isCached := by
  simp [isCached, h]

theorem exists_of_isCached {id : PackageId} (h : g.isCached id = true) :
    ∃ p, g.package? id = some p ∧ p.isCached = true := by
  rw [isCached] at h
  cases hp : g.package? id with
  | none => simp [hp] at h
  | some p => exact ⟨p, rfl, by simpa [hp] using h⟩

/-! ### Closed graphs -/

theorem IsClosed.below (h : g.IsClosed) (id : PackageId) : g.ClosedBelow id :=
  fun importer dependency _ himports => h importer dependency himports

theorem ClosedBelow.lt_size {id dependency : PackageId} (h : g.ClosedBelow id)
    (himports : g.Imports id dependency) : dependency < g.size :=
  h id dependency ReflTransGen.refl himports

theorem ClosedBelow.of_imports {id dependency : PackageId} (h : g.ClosedBelow id)
    (himports : g.Imports id dependency) : g.ClosedBelow dependency :=
  fun k d hleads => h k d (ReflTransGen.head himports hleads)

/-! ### Circles -/

/-- Two packages that lead to each other along an import lie on a circle. -/
theorem onCircle_of_imports {importer dependency : PackageId}
    (h : g.Imports importer dependency) (hback : g.Leads dependency importer) :
    g.OnCircle importer :=
  TransGen.head' h hback

/-- In a closed graph a package leads only to packages of the graph. -/
theorem Leads.lt_size (hg : g.IsClosed) {id other : PackageId} (h : g.Leads id other)
    (hid : id < g.size) : other < g.size := by
  induction h with
  | refl => exact hid
  | tail _ himports _ => exact hg _ _ himports

/-- A grounded package does not lie on a circle. -/
theorem Grounded.not_onCircle {id : PackageId} (h : g.Grounded id) : ¬ g.OnCircle id := by
  induction h with
  | intro id _ ih =>
      intro hcircle
      obtain ⟨dependency, himports, hback⟩ := TransGen.head'_iff.1 hcircle
      exact ih dependency himports (TransGen.tail' hback himports)

theorem Grounded.of_imports {importer dependency : PackageId} (h : g.Grounded importer)
    (himports : g.Imports importer dependency) : g.Grounded dependency :=
  h.inv himports

/-- Whatever a grounded package leads to is grounded. -/
theorem Grounded.of_leads {id other : PackageId} (h : g.Grounded id) (hleads : g.Leads id other) :
    g.Grounded other := by
  induction hleads with
  | refl => exact h
  | tail _ himports ih => exact ih.of_imports himports

/-- **A grounded package leads to no circle.** -/
theorem not_onCircle_of_grounded {id other : PackageId} (h : g.Grounded id)
    (hleads : g.Leads id other) : ¬ g.OnCircle other :=
  (h.of_leads hleads).not_onCircle

/-- An import of a package that leads to no circle does not lead back. -/
theorem Grounded.not_leads_back {importer dependency : PackageId} (h : g.Grounded importer)
    (himports : g.Imports importer dependency) : ¬ g.Leads dependency importer :=
  fun hback => h.not_onCircle (onCircle_of_imports himports hback)

/-- **Without circles all packages are grounded:** a walk along imports that does not end
would have to come back to a package. -/
theorem grounded_of_no_circle {id : PackageId} (hg : g.ClosedBelow id) (hid : id < g.size)
    (h : ∀ other, g.Leads id other → ¬ g.OnCircle other) : g.Grounded id := by
  -- The way holds packages that lead to the current one, so it never holds its imports.
  suffices hway : ∀ (n : Nat) (way : List PackageId) (id : PackageId), way.Nodup →
      (∀ k ∈ way, k < g.size ∧ TransGen g.Imports k id) → g.ClosedBelow id → id < g.size →
      (∀ other, g.Leads id other → ¬ g.OnCircle other) → g.size ≤ way.length + n →
      g.Grounded id from
    hway g.size [] id List.nodup_nil (by simp) hg hid h (by simp)
  intro n
  induction n with
  | zero =>
      intro way id hnodup hbefore _ hid hcircle hlen
      have hfull : id ∈ way := by
        have hsub : way ⊆ List.range g.size := fun k hk => List.mem_range.2 (hbefore k hk).1
        have hperm : way.Perm (List.range g.size) :=
          (List.subperm_of_subset hnodup hsub).perm_of_length_le (by simpa using hlen)
        exact hperm.mem_iff.2 (List.mem_range.2 hid)
      exact absurd (hbefore id hfull).2 (hcircle id ReflTransGen.refl)
  | succ n ih =>
      intro way id hnodup hbefore hg hid hcircle hlen
      have hnew : id ∉ way := fun hmem => hcircle id ReflTransGen.refl (hbefore id hmem).2
      refine Acc.intro id ?_
      intro dependency himports
      refine ih (id :: way) dependency (List.nodup_cons.2 ⟨hnew, hnodup⟩) ?_
        (hg.of_imports himports) (hg.lt_size himports) ?_ (by simp only [List.length_cons]; omega)
      · rintro k (_ | ⟨_, hk⟩)
        · exact ⟨hid, TransGen.single himports⟩
        · exact ⟨(hbefore k hk).1, (hbefore k hk).2.tail himports⟩
      · exact fun other hleads => hcircle other (ReflTransGen.head himports hleads)

/-- **Where imports lead to later packages only,** all packages are grounded. -/
theorem grounded_of_later (hlater : ∀ importer < g.size, ∀ dependency ∈ g.importsOf importer,
    importer < dependency ∧ dependency < g.size) (id : PackageId) : g.Grounded id := by
  refine Acc.intro id ?_
  intro dependency himports
  obtain ⟨hlt, hsize⟩ := hlater id himports.importer_lt dependency himports
  exact grounded_of_later hlater dependency
termination_by g.size - id
decreasing_by exact Nat.sub_lt_sub_left (Nat.lt_trans hlt hsize) hlt

end PackageGraph

end GoPlanner

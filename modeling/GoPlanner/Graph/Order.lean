import GoPlanner.Graph.Basic

/-!
# The Build Order

Packages are built after the packages that they import. The order is that of leaving the
packages in a walk through the imports from the root; packages that the root does not
lead to are left out.

## Main definitions

* `PackageGraph.leave`: the walk from one package.
* `PackageGraph.buildOrder`: the order of all packages.
-/

namespace GoPlanner

namespace PackageGraph

/-- The numbers of packages that are not on a way. -/
def offWay (g : PackageGraph) (way : List PackageId) : List PackageId :=
  (List.range g.size).filter (fun id => !way.contains id)

/-- A package that was not on the way leaves fewer packages off it. -/
theorem offWay_cons_lt {g : PackageGraph} {way : List PackageId} {id : PackageId}
    (hid : id < g.size) (hway : id ∉ way) :
    (g.offWay (id :: way)).length < (g.offWay way).length := by
  unfold offWay
  have hsplit : (List.range g.size).filter (fun k => !(id :: way).contains k) =
      ((List.range g.size).filter (fun k => !way.contains k)).filter (fun k => k != id) := by
    rw [List.filter_filter]
    apply List.filter_congr
    intro k _
    by_cases hk : k = id <;> simp [hk]
  rw [hsplit]
  have hmem : id ∈ (List.range g.size).filter (fun k => !way.contains k) := by
    simp [hid, hway]
  exact List.length_filter_lt_length_iff_exists.2 ⟨id, hmem, by simp⟩

/-- **The walk** from a package: its imports are left first, in their order, and then the
package itself is. Packages that have been left already, and those on the way to this
one, are passed over. -/
def leave (g : PackageGraph) (way : List PackageId) (id : PackageId)
    (left : List PackageId) : List PackageId :=
  if _h : id < g.size ∧ id ∉ way ∧ id ∉ left then
    (g.importsOf id).foldl (fun left dependency => leave g (id :: way) dependency left) left ++
      [id]
  else left
termination_by (g.offWay way).length
decreasing_by exact offWay_cons_lt _h.1 _h.2.1

/-- **The build order:** all packages that the root leads to, dependencies first. -/
def buildOrder (g : PackageGraph) : List PackageId :=
  g.leave [] root []

end PackageGraph

end GoPlanner

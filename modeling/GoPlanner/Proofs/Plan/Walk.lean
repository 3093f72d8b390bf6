import GoPlanner.Plan
import GoPlanner.Proofs.Graph.BuildOrder
import GoPlanner.Proofs.Telling

/-!
# Planning Follows the Build Order

Planning walks through the imports on its own, with a record of the packages that it has
met, while the build order records the packages that have been left. A package has been
met if it is on the way or has been left, so both walks enter the same packages.

## Main results

* `Planning.visit_eq`: one run of the walk plans the packages that one run of the build
  order adds.
* `Plan.ofGraph_eq`: the packages are planned in the build order.
-/

namespace GoPlanner

open PackageGraph

variable {c : PlanContext} {g : PackageGraph}

namespace Planning

/-- The packages that have been met are those on the way and those that were left. -/
def Meets (met way left : List PackageId) : Prop :=
  ∀ k, k ∈ met ↔ k ∈ way ∨ k ∈ left

/-- A run of the walk that plans some packages, and meets them besides others. -/
def Plans (c : PlanContext) (g : PackageGraph) (run : Planning → Telling Planning)
    (met met' added : List PackageId) : Prop :=
  ∀ plan, run ⟨met, plan⟩ = do
    let plan ← added.foldlM (Plan.addPackage c g) plan
    pure ⟨met', plan⟩

/-- The walk from several packages, given what is known about each. -/
theorem visitAll_plans {way : List PackageId}
    (hrun : ∀ met left d, Meets met way left → ∃ added met',
      g.leave way d left = left ++ added ∧ Meets met' way (left ++ added) ∧
        Plans c g (visit c g way d) met met' added)
    (ids met left : List PackageId) (hmet : Meets met way left) :
    ∃ added met', g.leaveAll way ids left = left ++ added ∧ Meets met' way (left ++ added) ∧
      Plans c g (fun s => ids.foldlM (fun s d => visit c g way d s) s) met met' added := by
  induction ids generalizing met left with
  | nil => exact ⟨[], met, by simp, by simpa using hmet, fun plan => by simp⟩
  | cons d ids ih =>
      obtain ⟨first, met₁, hfirst, hmet₁, hplans⟩ := hrun met left d hmet
      obtain ⟨second, met₂, hsecond, hmet₂, hplans'⟩ := ih met₁ (left ++ first) hmet₁
      refine ⟨first ++ second, met₂, ?_, by rwa [← List.append_assoc], fun plan => ?_⟩
      · rw [leaveAll_cons, hfirst, hsecond, List.append_assoc]
      · dsimp only
        rw [List.foldlM_cons, hplans, List.foldlM_append, bind_assoc, bind_assoc]
        congr 1
        funext plan'
        rw [pure_bind]
        exact hplans' plan'

/-- **One run of the walk** plans the packages that one run of the build order adds. -/
theorem visit_eq (c : PlanContext) (g : PackageGraph) (way : List PackageId) (id : PackageId)
    (met left : List PackageId) (hmet : Meets met way left) :
    ∃ added met', g.leave way id left = left ++ added ∧ Meets met' way (left ++ added) ∧
      Plans c g (visit c g way id) met met' added := by
  induction way, id, left using leave.induct g generalizing met with
  | case1 way id left hnew ih =>
      have hmet' : Meets (id :: met) (id :: way) left := by
        intro k
        rw [List.mem_cons, hmet k, List.mem_cons, or_assoc]
      obtain ⟨added, met', hadded, hmet', hplans⟩ :=
        visitAll_plans (fun met left d h => ih left d met h) (g.importsOf id) _ _ hmet'
      refine ⟨added ++ [id], met', ?_, ?_, fun plan => ?_⟩
      · rw [leave_of_new hnew, hadded, List.append_assoc]
      · intro k
        rw [hmet' k]
        simp only [List.mem_cons, List.mem_append, List.not_mem_nil, or_false]
        tauto
      · have hnotMet : id ∉ met := fun h => ((hmet id).1 h).elim hnew.2.1 hnew.2.2
        rw [visit, dif_pos ⟨hnew.1, hnew.2.1, hnotMet⟩, List.foldlM_append]
        have hrun := hplans plan
        dsimp only at hrun ⊢
        rw [hrun]
        simp
  | case2 way id left hpassed =>
      refine ⟨[], met, by rw [leave_of_passed hpassed, List.append_nil], by simpa using hmet,
        fun plan => ?_⟩
      have hmetOrOut : ¬ (id < g.size ∧ id ∉ way ∧ id ∉ met) := by
        rintro ⟨hid, hway, hnot⟩
        exact hpassed ⟨hid, hway, fun hleft => hnot ((hmet id).2 (Or.inr hleft))⟩
      rw [visit, dif_neg hmetOrOut]
      simp

end Planning

/-- **The packages are planned in the build order.** -/
theorem Plan.ofGraph_eq (c : PlanContext) (g : PackageGraph) :
    Plan.ofGraph c g = g.buildOrder.foldlM (Plan.addPackage c g) (Plan.empty c.layout) := by
  obtain ⟨added, met', hadded, -, hplans⟩ :=
    Planning.visit_eq c g [] root [] [] (by simp [Planning.Meets])
  obtain rfl : g.buildOrder = added := hadded
  rw [Plan.ofGraph, hplans]
  simp

end GoPlanner

import GoPlanner.Graph.Order
import GoPlanner.Proofs.Graph.Imports

/-!
# What the Build Order Lists

The build order lists every package that the root leads to, each once, and an import
stands before its importer unless it leads back to it. One run of the walk adds packages
at the end of those that have been left; what it adds is described by `Added`.

## Main definitions

* `PackageGraph.leaveAll`: the walk from several packages, one after the other.
* `PackageGraph.Added`: what a run of the walk adds.

## Main results

* `PackageGraph.exists_leave_eq`: every run of the walk adds packages in this sense.
* `PackageGraph.mem_buildOrder`: the packages of the build order.
* `PackageGraph.buildOrder_nodup`: no package is listed twice.
* `PackageGraph.mem_before_of_imports`: imports stand before a package that leads to no
  circle.
-/

namespace GoPlanner

namespace PackageGraph

open Relation

variable {g : PackageGraph} {way left : List PackageId} {id : PackageId}

/-- The walk from several packages, one after the other. -/
def leaveAll (g : PackageGraph) (way : List PackageId) (ids left : List PackageId) :
    List PackageId :=
  ids.foldl (fun left id => g.leave way id left) left

@[simp] theorem leaveAll_nil : g.leaveAll way [] left = left :=
  rfl

@[simp] theorem leaveAll_cons {ids : List PackageId} :
    g.leaveAll way (id :: ids) left = g.leaveAll way ids (g.leave way id left) :=
  rfl

/-- A new package is left after its imports. -/
theorem leave_of_new (h : id < g.size ∧ id ∉ way ∧ id ∉ left) :
    g.leave way id left = g.leaveAll (id :: way) (g.importsOf id) left ++ [id] := by
  rw [leave, dif_pos h]
  rfl

/-- A package that is not new is passed over. -/
theorem leave_of_passed (h : ¬ (id < g.size ∧ id ∉ way ∧ id ∉ left)) :
    g.leave way id left = left := by
  rw [leave, dif_neg h]

/-! ### What one run adds -/

/-- **What a run of the walk adds** to the packages left: new packages, each once. Whatever
one of them imports has been left before it, or is on the way, or leads back to it. -/
structure Added (g : PackageGraph) (way left added : List PackageId) : Prop where
  /-- No package is added twice. -/
  nodup : added.Nodup
  /-- Only new packages are added. -/
  new : ∀ k ∈ added, k < g.size ∧ k ∉ way ∧ k ∉ left
  /-- Where the imports of a package are. -/
  imports : ∀ k ∈ added, ∀ d, g.Imports k d → d < g.size →
    d ∈ left ∨ d ∈ way ∨ [d, k].Sublist added ∨ (d ∈ added ∧ g.Leads d k)

theorem Added.nil : Added g way left [] where
  nodup := List.nodup_nil
  new := by simp
  imports := by simp

/-- Two runs, one after the other, add what both of them add. -/
theorem Added.append {first second : List PackageId} (hfirst : Added g way left first)
    (hsecond : Added g way (left ++ first) second) : Added g way left (first ++ second) where
  nodup := List.nodup_append.2 ⟨hfirst.nodup, hsecond.nodup,
    fun a ha b hb hab => (hsecond.new b hb).2.2 (List.mem_append_right _ (hab ▸ ha))⟩
  new := by
    intro k hk
    rcases List.mem_append.1 hk with hk | hk
    · exact hfirst.new k hk
    · obtain ⟨hlt, hway, hleft⟩ := hsecond.new k hk
      exact ⟨hlt, hway, fun hmem => hleft (List.mem_append_left _ hmem)⟩
  imports := by
    intro k hk d himports hd
    rcases List.mem_append.1 hk with hk | hk
    · rcases hfirst.imports k hk d himports hd with h | h | h | ⟨h, hback⟩
      · exact Or.inl h
      · exact Or.inr (Or.inl h)
      · exact Or.inr (Or.inr (Or.inl (h.trans (List.sublist_append_left _ _))))
      · exact Or.inr (Or.inr (Or.inr ⟨List.mem_append_left _ h, hback⟩))
    · rcases hsecond.imports k hk d himports hd with h | h | h | ⟨h, hback⟩
      · rcases List.mem_append.1 h with h | h
        · exact Or.inl h
        · refine Or.inr (Or.inr (Or.inl ?_))
          exact (List.singleton_sublist.2 h).append (List.singleton_sublist.2 hk)
      · exact Or.inr (Or.inl h)
      · exact Or.inr (Or.inr (Or.inl (h.trans (List.sublist_append_right _ _))))
      · exact Or.inr (Or.inr (Or.inr ⟨List.mem_append_right _ h, hback⟩))

/-- **Leaving a package** after its imports have been: what they add is followed by it. -/
theorem Added.leave {added : List PackageId} (hnew : id < g.size ∧ id ∉ way ∧ id ∉ left)
    (h : Added g (id :: way) left added)
    (himports : ∀ d ∈ g.importsOf id, d < g.size → d ∈ id :: way ∨ d ∈ left ++ added)
    (hleads : ∀ k ∈ added, g.Leads id k) : Added g way left (added ++ [id]) where
  nodup := by
    refine List.nodup_append.2 ⟨h.nodup, by simp, ?_⟩
    rintro a ha b hb rfl
    obtain rfl := List.mem_singleton.1 hb
    exact (h.new a ha).2.1 List.mem_cons_self
  new := by
    intro k hk
    rcases List.mem_append.1 hk with hk | hk
    · obtain ⟨hlt, hway, hleft⟩ := h.new k hk
      exact ⟨hlt, fun hmem => hway (List.mem_cons_of_mem _ hmem), hleft⟩
    · obtain rfl := List.mem_singleton.1 hk
      exact hnew
  imports := by
    intro k hk d hd hlt
    have hself : id ∈ added ++ [id] := by simp
    rcases List.mem_append.1 hk with hk | hk
    · rcases h.imports k hk d hd hlt with h | h | h | ⟨h, hback⟩
      · exact Or.inl h
      · rcases List.mem_cons.1 h with heq | h
        · exact Or.inr (Or.inr (Or.inr ⟨heq ▸ hself, heq ▸ hleads k hk⟩))
        · exact Or.inr (Or.inl h)
      · exact Or.inr (Or.inr (Or.inl (h.trans (List.sublist_append_left _ _))))
      · exact Or.inr (Or.inr (Or.inr ⟨List.mem_append_left _ h, hback⟩))
    · obtain rfl := List.mem_singleton.1 hk
      rcases himports d hd hlt with h | h
      · rcases List.mem_cons.1 h with rfl | h
        · exact Or.inr (Or.inr (Or.inr ⟨hself, ReflTransGen.refl⟩))
        · exact Or.inr (Or.inl h)
      · rcases List.mem_append.1 h with h | h
        · exact Or.inl h
        · refine Or.inr (Or.inr (Or.inl ?_))
          exact (List.singleton_sublist.2 h).append (List.Sublist.refl [k])

/-- What is known about several runs, given what is known about each. -/
theorem exists_leaveAll_eq
    (hrun : ∀ left d, ∃ added, g.leave way d left = left ++ added ∧ Added g way left added ∧
      (∀ k ∈ added, g.Leads d k) ∧ (d < g.size → d ∈ way ∨ d ∈ left ++ added))
    (ids left : List PackageId) :
    ∃ added, g.leaveAll way ids left = left ++ added ∧ Added g way left added ∧
      (∀ k ∈ added, ∃ d ∈ ids, g.Leads d k) ∧
      (∀ d ∈ ids, d < g.size → d ∈ way ∨ d ∈ left ++ added) := by
  induction ids generalizing left with
  | nil => exact ⟨[], by simp, Added.nil, by simp, by simp⟩
  | cons d ids ih =>
      obtain ⟨first, hfirst, hadded, hleads, hself⟩ := hrun left d
      obtain ⟨second, hsecond, hadded', hleads', hself'⟩ := ih (left ++ first)
      refine ⟨first ++ second, ?_, hadded.append hadded', ?_, ?_⟩
      · rw [leaveAll_cons, hfirst, hsecond, List.append_assoc]
      · intro k hk
        rcases List.mem_append.1 hk with hk | hk
        · exact ⟨d, List.mem_cons_self, hleads k hk⟩
        · obtain ⟨d', hd', hleads'⟩ := hleads' k hk
          exact ⟨d', List.mem_cons_of_mem _ hd', hleads'⟩
      · intro d' hd' hlt
        rw [← List.append_assoc]
        rcases List.mem_cons.1 hd' with rfl | hd'
        · exact (hself hlt).imp_right (List.mem_append_left _)
        · exact hself' d' hd' hlt

/-- **Every run of the walk adds packages:** only some that the package leads to, and that
package itself unless it is on the way. -/
theorem exists_leave_eq (g : PackageGraph) (way left : List PackageId) (id : PackageId) :
    ∃ added, g.leave way id left = left ++ added ∧ Added g way left added ∧
      (∀ k ∈ added, g.Leads id k) ∧ (id < g.size → id ∈ way ∨ id ∈ left ++ added) := by
  induction way, id, left using leave.induct g with
  | case1 way id left hnew ih =>
      obtain ⟨added, heq, hadded, hleads, himports⟩ :=
        exists_leaveAll_eq (fun left d => ih left d) (g.importsOf id) left
      have hleads' : ∀ k ∈ added, g.Leads id k := fun k hk =>
        let ⟨_, hd, hdk⟩ := hleads k hk
        ReflTransGen.head hd hdk
      refine ⟨added ++ [id], ?_, hadded.leave hnew himports hleads', ?_, by simp⟩
      · rw [leave_of_new hnew, heq, List.append_assoc]
      · intro k hk
        rcases List.mem_append.1 hk with hk | hk
        · exact hleads' k hk
        · obtain rfl := List.mem_singleton.1 hk
          exact ReflTransGen.refl
  | case2 way id left hpassed =>
      refine ⟨[], by rw [leave_of_passed hpassed, List.append_nil], Added.nil, by simp, ?_⟩
      intro hlt
      by_contra hcon
      simp only [List.append_nil, not_or] at hcon
      exact hpassed ⟨hlt, hcon⟩

/-! ### The build order -/

theorem added_buildOrder (g : PackageGraph) :
    Added g [] [] g.buildOrder ∧ (∀ k ∈ g.buildOrder, g.Leads root k) ∧
      (root < g.size → root ∈ g.buildOrder) := by
  obtain ⟨added, heq, hadded, hleads, hself⟩ := exists_leave_eq g [] [] root
  obtain rfl : g.buildOrder = added := heq
  exact ⟨hadded, hleads, fun h => by simpa using hself h⟩

/-- **The root is left last.** -/
theorem exists_buildOrder_eq (h : root < g.size) : ∃ before, g.buildOrder = before ++ [root] :=
  ⟨_, leave_of_new ⟨h, List.not_mem_nil, List.not_mem_nil⟩⟩

/-- **No package is listed twice.** -/
theorem buildOrder_nodup (g : PackageGraph) : g.buildOrder.Nodup :=
  (added_buildOrder g).1.nodup

/-- **The packages of the build order** are those that the root leads to. -/
theorem mem_buildOrder : id ∈ g.buildOrder ↔ id < g.size ∧ g.Leads root id := by
  obtain ⟨hadded, hleads, hroot⟩ := added_buildOrder g
  constructor
  · exact fun h => ⟨(hadded.new id h).1, hleads id h⟩
  · rintro ⟨hlt, h⟩
    induction h with
    | refl => exact hroot hlt
    | tail _ himports ih =>
        rcases hadded.imports _ (ih himports.importer_lt) _ himports hlt with h | h | h | h
        · simp at h
        · simp at h
        · exact h.subset List.mem_cons_self
        · exact h.1

/-- **Imports stand before a package** that leads to no circle. -/
theorem mem_before_of_imports {before after : List PackageId} {d : PackageId}
    (hsplit : g.buildOrder = before ++ id :: after) (hgrounded : g.Grounded id)
    (himports : g.Imports id d) (hd : d < g.size) : d ∈ before := by
  have hid : id ∈ g.buildOrder := by simp [hsplit]
  have hnodup := buildOrder_nodup g
  have hnot := hgrounded.not_leads_back himports
  rcases (added_buildOrder g).1.imports id hid d himports hd with h | h | h | h
  · simp at h
  · simp at h
  · rw [hsplit] at h hnodup
    obtain ⟨ds, ids, hdid, hds, hids⟩ := List.sublist_append_iff.1 h
    cases ds with
    | nil =>
        -- The importer would stand behind itself.
        obtain rfl : [d, id] = ids := hdid
        have hmem : id ∈ after := hids.tail.subset (by simp)
        simp [List.nodup_append, hmem] at hnodup
    | cons d' ds =>
        obtain rfl : d = d' := by simpa using (List.cons.inj hdid).1
        exact hds.subset List.mem_cons_self
  · exact absurd h.2 hnot

end PackageGraph

end GoPlanner

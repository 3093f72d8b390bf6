import GoPlanner.Graph.Stale
import GoPlanner.Proofs.Graph.BuildOrder

/-!
# Which Archives Stay in Use

An archive stays in use when every package that its own one leads to has an archive. The
walk for stale archives ends exactly on graphs in which the root leads to no circle, and it
never has to go deeper than there are packages. It leaves the packages in the build order,
and what it carries along then is a function of the packages that it has left.

## Main definitions

* `PackageGraph.KeepsArchive`: the packages whose archive stays in use.
* `PackageGraph.withoutArchives`: the graph without the archives of some packages.
* `PackageGraph.sifted`: what the walk carries along when it has left some packages.
* `PackageGraph.SiftEnds`: the graphs on which the walk ends.

## Main results

* `PackageGraph.sift?_sifted`: one run of the walk from a grounded package.
* `PackageGraph.sift?_mono`: a run that ends has the same result when it may go deeper.
* `PackageGraph.grounded_of_sift?`: a run that ends starts from a grounded package.
* `PackageGraph.dropStale?_eq`: what is left of the graph.
* `PackageGraph.siftEnds_iff`: the graphs on which the walk ends.
* `PackageGraph.dropStale?_isSome_iff`: how deep it has to go.
-/

namespace GoPlanner

namespace PackageGraph

open Relation

variable {g : PackageGraph} {way left : List PackageId} {id : PackageId}

/-- **The archive of a package stays in use** if all packages that it leads to have one. -/
def KeepsArchive (g : PackageGraph) (id : PackageId) : Prop :=
  ∀ other, g.Leads id other → g.isCached other = true

theorem KeepsArchive.isCached (h : g.KeepsArchive id) : g.isCached id = true :=
  h id ReflTransGen.refl

theorem KeepsArchive.of_imports {d : PackageId} (h : g.KeepsArchive id)
    (himports : g.Imports id d) : g.KeepsArchive d :=
  fun other hleads => h other (ReflTransGen.head himports hleads)

/-- A package keeps its archive if it has one and its imports keep theirs. -/
theorem keepsArchive_iff :
    g.KeepsArchive id ↔ g.isCached id = true ∧ ∀ d ∈ g.importsOf id, g.KeepsArchive d := by
  constructor
  · exact fun h => ⟨h.isCached, fun d hd => h.of_imports hd⟩
  · rintro ⟨hcached, himports⟩ other hleads
    rcases ReflTransGen.cases_head hleads with rfl | ⟨d, hd, hleads⟩
    · exact hcached
    · exact himports d hd other hleads

/-! ### Taking archives away -/

/-- The graph without the archives of some packages. -/
def withoutArchives (g : PackageGraph) (stale : PackageId → Bool) : PackageGraph :=
  { g with packages := g.packages.mapIdx (fun id p =>
      if stale id then { p with cachedArchive := none } else p) }

variable {stale : PackageId → Bool}

/-- Graphs with the same packages are equal. -/
theorem ext_package? {g' : PackageGraph} (h : ∀ id, g.package? id = g'.package? id)
    (hprecompiled : g.precompiled = g'.precompiled) : g = g' := by
  cases g
  cases g'
  obtain rfl := hprecompiled
  congr 1
  exact List.ext_getElem? h

@[simp] theorem package?_withoutArchives :
    (g.withoutArchives stale).package? id =
      (g.package? id).map (fun p => if stale id then { p with cachedArchive := none } else p) := by
  simp [package?, withoutArchives]

@[simp] theorem package?_setArchive {archive : Option Path} {k : PackageId} :
    (g.setArchive id archive).package? k =
      (g.package? k).map (fun p => if id = k then { p with cachedArchive := archive } else p) := by
  simp [package?, setArchive, modify, List.getElem?_modify]

@[simp] theorem size_withoutArchives : (g.withoutArchives stale).size = g.size := by
  simp [size, withoutArchives]

@[simp] theorem precompiled_withoutArchives :
    (g.withoutArchives stale).precompiled = g.precompiled :=
  rfl

@[simp] theorem importsOf_withoutArchives :
    (g.withoutArchives stale).importsOf id = g.importsOf id := by
  simp only [importsOf]
  rw [package?_withoutArchives]
  cases g.package? id with
  | none => rfl
  | some p => by_cases h : stale id = true <;> simp [h]

@[simp] theorem isCached_withoutArchives :
    (g.withoutArchives stale).isCached id = (g.isCached id && !stale id) := by
  simp only [isCached]
  rw [package?_withoutArchives]
  cases g.package? id with
  | none => rfl
  | some p => by_cases h : stale id = true <;> simp [h, Package.isCached]

@[simp] theorem leads_withoutArchives {other : PackageId} :
    (g.withoutArchives stale).Leads id other ↔ g.Leads id other := by
  have himports : (g.withoutArchives stale).Imports = g.Imports := by
    funext importer dependency
    simp [Imports]
  rw [Leads, Leads, himports]

theorem withoutArchives_none : g.withoutArchives (fun _ => false) = g :=
  ext_package? (by simp) rfl

/-- The archive of one more package is taken away. -/
theorem setArchive_withoutArchives :
    (g.withoutArchives stale).setArchive id none =
      g.withoutArchives (fun k => stale k || decide (k = id)) := by
  refine ext_package? (fun k => ?_) rfl
  rw [package?_setArchive, package?_withoutArchives, package?_withoutArchives, Option.map_map]
  congr 1
  funext p
  by_cases hk : id = k <;> by_cases hstale : stale k = true <;>
    simp [hk, hstale, eq_comm]

/-! ### What the walk carries along -/

open Classical in
/-- The packages that are known to have lost their archive, when some have been left. -/
noncomputable def lostAmong (g : PackageGraph) (left : List PackageId) (id : PackageId) : Bool :=
  decide (id ∈ left ∧ ¬ g.KeepsArchive id)

open Classical in
/-- The import path of a package that loses its archive. -/
noncomputable def lostPath? (g : PackageGraph) (id : PackageId) : Option String :=
  if g.KeepsArchive id then none
  else ((g.package? id).filter Package.isCached).map (·.importPath)

open Classical in
/-- **What the walk carries along** when it has left some packages. -/
noncomputable def sifted (g : PackageGraph) (left : List PackageId) : Sifting where
  graph := g.withoutArchives (g.lostAmong left)
  known := (left.map (fun id => (id, decide (g.KeepsArchive id)))).reverse
  lost := left.filterMap g.lostPath?

theorem sifted_nil (g : PackageGraph) : g.sifted [] = { graph := g } := by
  have hnone : g.lostAmong [] = fun _ => false := by
    funext id
    simp [lostAmong]
  simp [sifted, hnone, withoutArchives_none]

open Classical in
/-- The walk knows its answer for the packages that it has left. -/
theorem lookup_known_sifted :
    (g.sifted left).known.lookup id =
      if id ∈ left then some (decide (g.KeepsArchive id)) else none := by
  rw [sifted]
  induction left with
  | nil => simp
  | cons k left ih =>
      simp only [List.map_cons, List.reverse_cons, List.lookup_append] at ih ⊢
      rw [ih]
      by_cases hid : id = k
      · subst hid
        by_cases hmem : id ∈ left <;> simp [hmem]
      · by_cases hmem : id ∈ left <;> simp [hmem, hid]

/-- Whether one more package is left matters for that package only. -/
theorem lostAmong_append (hnew : id ∉ left) :
    g.lostAmong (left ++ [id]) =
      fun k => g.lostAmong left k || (g.lostAmong [id] id && decide (k = id)) := by
  funext k
  by_cases hk : k = id
  · subst hk
    simp [lostAmong, hnew]
  · simp [lostAmong, hk]

/-- Nothing changes when all archives of the packages that have been left are kept. -/
theorem withoutArchives_lostAmong_eq
    (h : ∀ id ∈ left, g.isCached id = true → g.KeepsArchive id) :
    g.withoutArchives (g.lostAmong left) = g := by
  refine ext_package? (fun k => ?_) rfl
  rw [package?_withoutArchives]
  cases hp : g.package? k with
  | none => rfl
  | some p =>
      by_cases hloses : k ∈ left ∧ ¬ g.KeepsArchive k
      · have hnone : p.cachedArchive = none := by
          have hcached : ¬ p.isCached = true :=
            fun hc => hloses.2 (h k hloses.1 (isCached_eq hp ▸ hc))
          simpa [Package.isCached] using hcached
        simp [← hnone]
      · simp [lostAmong, hloses]

/-- A package that has no archive to lose changes nothing when it is left. -/
theorem withoutArchives_lostAmong_append (hnew : id ∉ left)
    (h : g.isCached id = true → g.KeepsArchive id) :
    g.withoutArchives (g.lostAmong (left ++ [id])) = g.withoutArchives (g.lostAmong left) := by
  refine ext_package? (fun k => ?_) rfl
  simp only [package?_withoutArchives, lostAmong_append hnew]
  by_cases hk : k = id
  · subst hk
    by_cases hkeeps : g.KeepsArchive k
    · simp [lostAmong, hkeeps]
    · cases hp : g.package? k with
      | none => rfl
      | some p =>
          have hnone : p.cachedArchive = none := by
            have hcached : ¬ p.isCached = true := fun hc => hkeeps (h (isCached_eq hp ▸ hc))
            simpa [Package.isCached] using hcached
          simp [← hnone]
  · simp [hk]

theorem lostPath?_eq_none (h : g.isCached id = true → g.KeepsArchive id) :
    g.lostPath? id = none := by
  by_cases hkeeps : g.KeepsArchive id
  · simp [lostPath?, hkeeps]
  · have hcached : ¬ g.isCached id = true := fun hc => hkeeps (h hc)
    rw [isCached] at hcached
    cases hp : g.package? id with
    | none => simp [lostPath?, hp]
    | some p => simp_all [lostPath?]

/-- A package that does not keep its archive is dropped. -/
theorem drop_sifted (hnew : id ∉ left) (hloses : ¬ g.KeepsArchive id) :
    (g.sifted left).drop id =
      { g.sifted (left ++ [id]) with known := (g.sifted left).known } := by
  have hlost : g.lostAmong left id = false := by simp [lostAmong, hnew]
  by_cases hcached : g.isCached id = true
  · obtain ⟨p, hp, hpcached⟩ := exists_of_isCached hcached
    have hpackage : (g.sifted left).graph.package? id = some p := by
      simp [sifted, hp, hlost]
    have hgraph : (g.sifted left).graph.setArchive id none = (g.sifted (left ++ [id])).graph := by
      have hself : g.lostAmong [id] id = true := by simp [lostAmong, hloses]
      simp [sifted, setArchive_withoutArchives, lostAmong_append hnew, hself]
    have hpath : g.lostPath? id = some p.importPath := by
      simp [lostPath?, hloses, hp, hpcached]
    simp only [Sifting.drop, hpackage, hpcached, if_true, hgraph]
    simp [sifted, hpath]
  · have hnothing : g.isCached id = true → g.KeepsArchive id := fun h => absurd h hcached
    have hdrop : (g.sifted left).drop id = g.sifted left := by
      rw [Sifting.drop]
      cases hp : (g.sifted left).graph.package? id with
      | none => rfl
      | some p =>
          have hpcached : ¬ p.isCached = true := by
            rw [← isCached_eq hp]
            simpa [sifted, hlost] using hcached
          simp [hpcached]
    rw [hdrop]
    simp [sifted, lostPath?_eq_none hnothing, withoutArchives_lostAmong_append hnew hnothing]

open Classical in
/-- **Leaving a package** whose imports have been left. -/
theorem settle_sifted (hnew : id ∉ left) :
    (g.sifted left).settle id (decide (∀ d ∈ g.importsOf id, g.KeepsArchive d)) =
      (decide (g.KeepsArchive id), g.sifted (left ++ [id])) := by
  have hknown : (g.sifted (left ++ [id])).known =
      (id, decide (g.KeepsArchive id)) :: (g.sifted left).known := by
    simp [sifted]
  by_cases himports : ∀ d ∈ g.importsOf id, g.KeepsArchive d
  · have hnothing : g.isCached id = true → g.KeepsArchive id :=
      fun h => keepsArchive_iff.2 ⟨h, himports⟩
    have hanswer : (g.sifted left).graph.isCached id = decide (g.KeepsArchive id) := by
      have hlost : g.lostAmong left id = false := by simp [lostAmong, hnew]
      by_cases h : g.isCached id = true
      · simp [sifted, hlost, h, hnothing h]
      · have hloses : ¬ g.KeepsArchive id := fun hk => h hk.isCached
        simp [sifted, h, hloses]
    rw [decide_eq_true himports]
    simp only [Sifting.settle, if_true, hanswer, ← hknown]
    simp [sifted, lostPath?_eq_none hnothing, withoutArchives_lostAmong_append hnew hnothing]
  · have hloses : ¬ g.KeepsArchive id := fun h => himports (keepsArchive_iff.1 h).2
    have hanswer : (g.sifted (left ++ [id])).graph.isCached id = decide (g.KeepsArchive id) := by
      simp [sifted, lostAmong, hloses]
    rw [decide_eq_false himports]
    simp only [Sifting.settle, Bool.false_eq_true, if_false, drop_sifted hnew hloses, hanswer,
      ← hknown]

/-! ### The walk -/

theorem sift?_of_known {s : Sifting} {answer : Bool} (h : s.known.lookup id = some answer)
    (depth : ℕ) : Sifting.sift? depth id s = some (answer, s) := by
  rw [Sifting.sift?]
  rw [h]

theorem sift?_zero {s : Sifting} (h : s.known.lookup id = none) : Sifting.sift? 0 id s = none := by
  unfold Sifting.sift?
  rw [h]

/-- The walk visits the imports of a package before it leaves it. -/
theorem sift?_succ {s : Sifting} (h : s.known.lookup id = none) (depth : ℕ) :
    Sifting.sift? (depth + 1) id s =
      ((s.graph.importsOf id).foldlM (Sifting.visit (Sifting.sift? depth)) (true, s)).map
        (fun q => q.2.settle id q.1) := by
  rw [Sifting.sift?.eq_def, h, Option.map_eq_bind]
  rfl

open Classical in
/-- The walk from several packages, given what is known about each. -/
theorem siftAll_sifted {ids : List PackageId} {depth : ℕ}
    (hrun : ∀ d ∈ ids, ∀ left, Sifting.sift? depth d (g.sifted left) =
      some (decide (g.KeepsArchive d), g.sifted (g.leave way d left)))
    (isGrounded : Bool) (left : List PackageId) :
    ids.foldlM (Sifting.visit (Sifting.sift? depth)) (isGrounded, g.sifted left) =
      some (isGrounded && decide (∀ d ∈ ids, g.KeepsArchive d),
        g.sifted (g.leaveAll way ids left)) := by
  induction ids generalizing isGrounded left with
  | nil => simp
  | cons d ids ih =>
      have hrest := ih (fun d' hd' => hrun d' (List.mem_cons_of_mem _ hd'))
        (isGrounded && decide (g.KeepsArchive d)) (g.leave way d left)
      rw [List.foldlM_cons, Sifting.visit, hrun d List.mem_cons_self left, leaveAll_cons]
      refine hrest.trans ?_
      simp [Bool.and_assoc]

open Classical in
/-- **One run of the walk** from a grounded package that may go as deep as there are packages
off the way: it leaves the packages that the build order leaves, and answers whether the
archive stays in use. -/
theorem sift?_sifted {id : PackageId} (hg : g.ClosedBelow id) (hgrounded : g.Grounded id)
    (way left : List PackageId) (hid : id < g.size) (hway : ∀ k ∈ way, TransGen g.Imports k id)
    {depth : ℕ} (hdepth : (g.offWay way).length ≤ depth) :
    Sifting.sift? depth id (g.sifted left) =
      some (decide (g.KeepsArchive id), g.sifted (g.leave way id left)) := by
  induction hgrounded generalizing way left depth with
  | intro id hacc ih =>
      have hgrounded : g.Grounded id := Acc.intro id hacc
      have hoff : id ∉ way := fun hmem => hgrounded.not_onCircle (hway id hmem)
      have hlookup : (g.sifted left).known.lookup id =
          if id ∈ left then some (decide (g.KeepsArchive id)) else none := lookup_known_sifted
      by_cases hleft : id ∈ left
      · rw [if_pos hleft] at hlookup
        rw [sift?_of_known hlookup, leave_of_passed (fun h => h.2.2 hleft)]
      · rw [if_neg hleft] at hlookup
        have hless : (g.offWay (id :: way)).length < (g.offWay way).length :=
          offWay_cons_lt hid hoff
        obtain ⟨depth, rfl⟩ : ∃ d, depth = d + 1 := Nat.exists_eq_succ_of_ne_zero (by omega)
        have hrun : ∀ d ∈ g.importsOf id, ∀ left, Sifting.sift? depth d (g.sifted left) =
            some (decide (g.KeepsArchive d), g.sifted (g.leave (id :: way) d left)) := by
          intro d hd left
          refine ih d hd (hg.of_imports hd) (id :: way) left (hg.lt_size hd) ?_ (by omega)
          rintro k (_ | ⟨_, hk⟩)
          · exact TransGen.single hd
          · exact (hway k hk).tail hd
        have himports : (g.sifted left).graph.importsOf id = g.importsOf id := by
          simp [sifted]
        have hnew : id ∉ g.leaveAll (id :: way) (g.importsOf id) left := by
          obtain ⟨added, heq, hadded, -, -⟩ :=
            exists_leaveAll_eq (exists_leave_eq g (id :: way)) (g.importsOf id) left
          rw [heq, List.mem_append]
          rintro (h | h)
          · exact hleft h
          · exact (hadded.new id h).2.1 List.mem_cons_self
        rw [leave_of_new ⟨hid, hoff, hleft⟩, sift?_succ hlookup, himports, siftAll_sifted hrun,
          Bool.true_and]
        exact congrArg some (settle_sifted hnew)

/-! ### Where the walk ends -/

/-- Several runs keep their results if each of them does. -/
theorem siftAll_mono {sift sift' : PackageId → Sifting → Option (Bool × Sifting)}
    (hsift : ∀ id s r, sift id s = some r → sift' id s = some r) {ids : List PackageId}
    {q r : Bool × Sifting} (hrun : ids.foldlM (Sifting.visit sift) q = some r) :
    ids.foldlM (Sifting.visit sift') q = some r := by
  induction ids generalizing q with
  | nil => exact hrun
  | cons d ids ih =>
      rw [List.foldlM_cons] at hrun ⊢
      obtain ⟨q₁, hvisit, hrest⟩ := Option.bind_eq_some_iff.1 hrun
      obtain ⟨q₂, hd, hq₁⟩ := Option.bind_eq_some_iff.1 hvisit
      have hvisit' : Sifting.visit sift' q d = some q₁ :=
        Option.bind_eq_some_iff.2 ⟨q₂, hsift d q.2 q₂ hd, hq₁⟩
      exact Option.bind_eq_some_iff.2 ⟨q₁, hvisit', ih hrest⟩

/-- **A run that ends has the same result** when it may go deeper. -/
theorem sift?_mono {depth depth' : ℕ} (hdepth : depth ≤ depth') {s : Sifting}
    {r : Bool × Sifting} (hrun : Sifting.sift? depth id s = some r) :
    Sifting.sift? depth' id s = some r := by
  induction depth generalizing depth' id s r with
  | zero =>
      cases hknown : s.known.lookup id with
      | some answer => rwa [sift?_of_known hknown] at hrun ⊢
      | none =>
          rw [sift?_zero hknown] at hrun
          cases hrun
  | succ depth ih =>
      cases hknown : s.known.lookup id with
      | some answer => rwa [sift?_of_known hknown] at hrun ⊢
      | none =>
          obtain ⟨deeper, rfl⟩ : ∃ d, depth' = d + 1 := Nat.exists_eq_succ_of_ne_zero (by omega)
          rw [sift?_succ hknown] at hrun ⊢
          obtain ⟨q, hq, rfl⟩ := Option.map_eq_some_iff.1 hrun
          have hall := siftAll_mono (fun _ _ _ => ih (Nat.le_of_succ_le_succ hdepth)) hq
          rw [hall]
          rfl

theorem importsOf_drop {s : Sifting} {k : PackageId} :
    (s.drop id).graph.importsOf k = s.graph.importsOf k := by
  rw [Sifting.drop]
  split
  · split
    · simp only [importsOf]
      rw [package?_setArchive]
      cases s.graph.package? k with
      | none => rfl
      | some p => by_cases h : id = k <;> simp [h]
    · rfl
  · rfl

theorem known_drop {s : Sifting} : (s.drop id).known = s.known := by
  rw [Sifting.drop]
  split
  · split <;> rfl
  · rfl

/-- The walk changes no imports, and it knows answers for grounded packages only. -/
structure KnowsGrounded (g : PackageGraph) (s : Sifting) : Prop where
  /-- The imports are those of the graph. -/
  imports : ∀ k, s.graph.importsOf k = g.importsOf k
  /-- An answer is known for grounded packages only. -/
  known : ∀ k answer, s.known.lookup k = some answer → g.Grounded k

theorem KnowsGrounded.settle {s : Sifting} (h : KnowsGrounded g s) (hid : g.Grounded id)
    (isGrounded : Bool) : KnowsGrounded g (s.settle id isGrounded).2 := by
  have hdrop : KnowsGrounded g (if isGrounded then s else s.drop id) := by
    cases isGrounded with
    | true => exact h
    | false =>
        exact ⟨fun k => importsOf_drop.trans (h.imports k), by simpa [known_drop] using h.known⟩
  refine ⟨hdrop.imports, ?_⟩
  intro k answer hk
  simp only [Sifting.settle, List.lookup_cons] at hk
  by_cases hkid : k = id
  · exact hkid ▸ hid
  · rw [beq_false_of_ne hkid] at hk
    exact hdrop.known k answer hk

/-- The runs for several packages come one after the other, whatever their answers are. -/
theorem grounded_of_siftAll {sift : PackageId → Sifting → Option (Bool × Sifting)}
    (hsift : ∀ id s r, sift id s = some r → KnowsGrounded g s →
      g.Grounded id ∧ KnowsGrounded g r.2)
    {ids : List PackageId} {q r : Bool × Sifting}
    (hrun : ids.foldlM (Sifting.visit sift) q = some r) (hq : KnowsGrounded g q.2) :
    (∀ d ∈ ids, g.Grounded d) ∧ KnowsGrounded g r.2 := by
  induction ids generalizing q with
  | nil =>
      obtain rfl : q = r := Option.some.inj hrun
      exact ⟨by simp, hq⟩
  | cons d ids ih =>
      rw [List.foldlM_cons] at hrun
      obtain ⟨q₁, hvisit, hrest⟩ := Option.bind_eq_some_iff.1 hrun
      obtain ⟨q₂, hd, hq₁⟩ := Option.bind_eq_some_iff.1 hvisit
      obtain rfl : (q.1 && q₂.1, q₂.2) = q₁ := Option.some.inj hq₁
      obtain ⟨hground, hq₂⟩ := hsift d q.2 q₂ hd hq
      obtain ⟨hgrounds, hr⟩ := ih hrest hq₂
      exact ⟨List.forall_mem_cons.2 ⟨hground, hgrounds⟩, hr⟩

/-- **A run that ends starts from a grounded package.** -/
theorem grounded_of_sift? {depth : ℕ} {s : Sifting} {r : Bool × Sifting}
    (hrun : Sifting.sift? depth id s = some r) (hs : KnowsGrounded g s) :
    g.Grounded id ∧ KnowsGrounded g r.2 := by
  induction depth generalizing id s r with
  | zero =>
      cases hknown : s.known.lookup id with
      | some answer =>
          rw [sift?_of_known hknown] at hrun
          obtain rfl : (answer, s) = r := Option.some.inj hrun
          exact ⟨hs.known id answer hknown, hs⟩
      | none =>
          rw [sift?_zero hknown] at hrun
          cases hrun
  | succ depth ih =>
      cases hknown : s.known.lookup id with
      | some answer =>
          rw [sift?_of_known hknown] at hrun
          obtain rfl : (answer, s) = r := Option.some.inj hrun
          exact ⟨hs.known id answer hknown, hs⟩
      | none =>
          rw [sift?_succ hknown, hs.imports] at hrun
          obtain ⟨q, hq, rfl⟩ := Option.map_eq_some_iff.1 hrun
          obtain ⟨hgrounds, hq'⟩ := grounded_of_siftAll (fun _ _ _ => ih) hq hs
          have hid : g.Grounded id := Acc.intro id hgrounds
          exact ⟨hid, hq'.settle hid q.1⟩

/-! ### What is left of the graph -/

/-- A graph without packages has no imports. -/
theorem grounded_of_size_le (h : g.size ≤ id) : g.Grounded id :=
  Acc.intro id fun _ himports => absurd himports.importer_lt (Nat.not_lt.2 h)

/-- **What is left of the graph:** the packages that the root leads to have lost their
archives, unless these stay in use. They are named in the build order. -/
theorem dropStale?_eq (hg : g.ClosedBelow root) (hroot : g.Grounded root) :
    g.dropStale? = some (g.withoutArchives (g.lostAmong g.buildOrder),
      g.buildOrder.filterMap g.lostPath?) := by
  rw [dropStale?]
  split
  · rename_i hempty
    have hsize : g.size = 0 := by simpa [isEmpty, size] using hempty
    have horder : g.buildOrder = [] := by
      rw [buildOrder, leave_of_passed (by simp [hsize])]
    rw [horder]
    have hsifted := sifted_nil g
    exact congrArg (fun s : Sifting => some (s.graph, s.lost)) hsifted.symm
  · rename_i hempty
    have hsize : root < g.size := by
      rw [isEmpty, List.isEmpty_iff_length_eq_zero] at hempty
      exact Nat.pos_of_ne_zero hempty
    have hdepth : (g.offWay []).length ≤ g.size := by simp [offWay]
    rw [← sifted_nil g, sift?_sifted hg hroot [] [] hsize (by simp) hdepth]
    rfl

/-- A walk that ends shows that the root leads to no circle. -/
theorem grounded_of_dropStale? (h : g.dropStale?.isSome) : g.Grounded root := by
  rw [dropStale?] at h
  split at h
  · rename_i hempty
    have hsize : g.size = 0 := by simpa [isEmpty, size] using hempty
    exact grounded_of_size_le (by simp [hsize])
  · rw [Option.isSome_map] at h
    obtain ⟨r, hr⟩ := Option.isSome_iff_exists.1 h
    exact (grounded_of_sift? hr ⟨fun _ => rfl, by simp⟩).1

/-- **The walk for stale archives ends** if it has a result when it may go deep enough. -/
def SiftEnds (g : PackageGraph) : Prop :=
  ∃ depth, (Sifting.sift? depth root { graph := g }).isSome

/-- **The walk ends** exactly if the root leads to no circle. -/
theorem siftEnds_iff (hg : g.IsClosed) :
    g.SiftEnds ↔ ∀ id, g.Leads root id → ¬ g.OnCircle id := by
  constructor
  · rintro ⟨depth, h⟩ id hleads
    obtain ⟨r, hr⟩ := Option.isSome_iff_exists.1 h
    have hroot := (grounded_of_sift? hr ⟨fun _ => rfl, by simp⟩).1
    exact not_onCircle_of_grounded hroot hleads
  · intro h
    by_cases hsize : root < g.size
    · refine ⟨(g.offWay []).length, ?_⟩
      rw [← sifted_nil g,
        sift?_sifted (hg.below root) (grounded_of_no_circle (hg.below root) hsize h) [] [] hsize
          (by simp) (Nat.le_refl _)]
      rfl
    · have hnone : g.importsOf root = [] := by
        refine List.eq_nil_iff_forall_not_mem.2 fun d hd => hsize ?_
        exact Imports.importer_lt hd
      refine ⟨1, ?_⟩
      rw [sift?_succ rfl, hnone]
      rfl

/-- **It suffices to go as deep as there are packages.** -/
theorem dropStale?_isSome_iff (hg : g.IsClosed) : g.dropStale?.isSome ↔ g.SiftEnds := by
  rw [siftEnds_iff hg]
  constructor
  · exact fun h id hleads => not_onCircle_of_grounded (grounded_of_dropStale? h) hleads
  · intro h
    have hroot : g.Grounded root := by
      by_cases hsize : root < g.size
      · exact grounded_of_no_circle (hg.below root) hsize h
      · exact grounded_of_size_le (Nat.not_lt.1 hsize)
    simp [dropStale?_eq (hg.below root) hroot]

end PackageGraph

end GoPlanner

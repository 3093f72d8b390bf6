import GoPlanner.Proofs.Graph.BuildOrder
import GoPlanner.Proofs.Graph.Growth
import GoPlanner.Report

/-!
# The Order of Recorded Graphs

A graph is recorded by registering packages and imports in any order, so imports may lead around in
circles. The build order of every such graph is what a walk leaves behind that marks a package when
it enters it, and does not enter marked packages again. The walk ends, since there are only so many
packages to be marked.

## Main definitions

* `PackageGraph.IsRecorded`: graphs that are put together from packages and imports.
* `PackageGraph.Marks`, `PackageGraph.Walks`: the walk that marks packages.
* `PackageGraph.DependenciesFirst`: orders of the packages that the root leads to.

## Main results

* `PackageGraph.IsRecorded.isClosed`: imports of recorded graphs are packages.
* `PackageGraph.walks_iff`: the walk ends, and what it leaves is the build order.
* `PackageGraph.dependenciesFirst_buildOrder`: what the build order lists.
* `PackageGraph.IsRecorded.walks_dependenciesFirst`: all of this, and the rows of the table, for
  recorded graphs.
-/

namespace GoPlanner

/-- An import of a package that is recorded once more. -/
theorem Package.mem_imports_withImport {p : Package} {dependency d : PackageId} :
    d ∈ (p.withImport dependency).imports ↔ d ∈ p.imports ∨ d = dependency := by
  rw [Package.withImport]
  split
  · rename_i hmem
    constructor
    · exact Or.inl
    · rintro (hd | rfl)
      · exact hd
      · exact hmem
  · simp

namespace PackageGraph

open Relation

variable {g : PackageGraph} {id : PackageId} {ids way left left' marked marked' : List PackageId}

/-! ### Recording graphs -/

/-- **Graphs that are recorded:** packages are registered, and imports between registered packages
are added. A package may be registered with imports, of packages of the graph. -/
inductive IsRecorded : PackageGraph → Prop
  | empty (precompiled : Bool) : IsRecorded ⟨[], precompiled⟩
  | register {g : PackageGraph} (h : IsRecorded g) (p : Package)
      (hp : ∀ d ∈ p.imports, d < (g.register p).2.size) : IsRecorded (g.register p).2
  | addImport {g : PackageGraph} (h : IsRecorded g) {importer dependency : PackageId}
      (himporter : importer < g.size) (hdependency : dependency < g.size) :
      IsRecorded (g.addImport importer dependency)

theorem register_eq (g : PackageGraph) (p : Package) :
    (g.register p).2 = g ∨ (g.register p).2 = g.extended p := by
  rw [register]
  split
  · exact Or.inl rfl
  · exact Or.inr rfl

/-- **Imports of a recorded graph** are packages of the graph. -/
theorem IsRecorded.isClosed (h : g.IsRecorded) : g.IsClosed := by
  induction h with
  | empty precompiled =>
      intro importer dependency himports
      exact absurd himports.importer_lt (Nat.not_lt_zero importer)
  | @register g _ p hp ih =>
      rcases register_eq g p with heq | heq
      · rwa [heq]
      · rw [heq] at hp ⊢
        intro importer dependency himports
        obtain ⟨q, hq, hmem⟩ := himports.exists_importer
        rw [package?_extended] at hq
        split at hq
        · obtain rfl := Option.some.inj hq
          exact hp dependency hmem
        · have hlt : dependency < g.size :=
            ih importer dependency (by rwa [Imports, importsOf_eq hq])
          exact Nat.lt_of_lt_of_le hlt (by simp [size, extended])
  | @addImport g _ importer dependency _ hdependency ih =>
      intro k d himports
      obtain ⟨q, hq, hmem⟩ := himports.exists_importer
      rw [PackageGraph.addImport, package?_modify] at hq
      rw [PackageGraph.addImport, size_modify]
      obtain ⟨p, hp, rfl⟩ := Option.map_eq_some_iff.1 hq
      have hold (hd : d ∈ p.imports) : d < g.size := ih k d (by rwa [Imports, importsOf_eq hp])
      split at hmem
      · rcases Package.mem_imports_withImport.1 hmem with hd | rfl
        · exact hold hd
        · exact hdependency
      · exact hold hmem

/-! ### The walk that marks packages -/

/-- **The walk from several packages,** one after the other, with the marks and the packages left
before and after it. Marked packages are passed over. Every other package is marked, the walk goes
on from its imports, and then the package is left. -/
inductive Marks (g : PackageGraph) : List PackageId → List PackageId → List PackageId →
    List PackageId → List PackageId → Prop
  | done {marked left : List PackageId} : Marks g [] marked left marked left
  | passed {id : PackageId} {ids marked left marked' left' : List PackageId} (hid : id ∈ marked)
      (rest : Marks g ids marked left marked' left') : Marks g (id :: ids) marked left marked' left'
  | entered {id : PackageId} {ids marked left marked₁ left₁ marked' left' : List PackageId}
      (hid : id ∉ marked) (hsize : id < g.size)
      (inner : Marks g (g.importsOf id) (id :: marked) left marked₁ left₁)
      (rest : Marks g ids marked₁ (left₁ ++ [id]) marked' left') :
      Marks g (id :: ids) marked left marked' left'

/-- **The walk from the root** of a graph that has packages leaves the given ones. -/
def Walks (g : PackageGraph) (order : List PackageId) : Prop :=
  ∃ marked, g.Marks (if g.isEmpty then [] else [root]) [] [] marked order

/-- **The walk has one result.** -/
theorem Marks.unique {marked₁ left₁ marked₂ left₂ : List PackageId}
    (h₁ : g.Marks ids marked left marked₁ left₁) (h₂ : g.Marks ids marked left marked₂ left₂) :
    marked₁ = marked₂ ∧ left₁ = left₂ := by
  induction h₁ generalizing marked₂ left₂ with
  | done =>
      cases h₂
      exact ⟨rfl, rfl⟩
  | passed hid _ ih =>
      cases h₂ with
      | passed _ rest => exact ih rest
      | entered hnot _ _ _ => exact absurd hid hnot
  | entered hid _ _ _ ihinner ihrest =>
      cases h₂ with
      | passed hmem _ => exact absurd hmem hid
      | entered _ _ inner rest =>
          obtain ⟨rfl, rfl⟩ := ihinner inner
          exact ihrest rest

/-- The marked packages are those on the way and those that have been left. -/
def MarksWay (way left marked : List PackageId) : Prop :=
  ∀ k, k ∈ marked ↔ k ∈ way ∨ k ∈ left

/-- The walk from several packages, given the walk from each. -/
theorem exists_marks_all {ids : List PackageId}
    (hrun : ∀ d ∈ ids, ∀ left marked, MarksWay way left marked →
      ∃ marked', MarksWay way (g.leave way d left) marked' ∧ ∀ ids marked'' left'',
        g.Marks ids marked' (g.leave way d left) marked'' left'' →
          g.Marks (d :: ids) marked left marked'' left'')
    (hmarked : MarksWay way left marked) :
    ∃ marked', MarksWay way (g.leaveAll way ids left) marked' ∧
      g.Marks ids marked left marked' (g.leaveAll way ids left) := by
  induction ids generalizing left marked with
  | nil => exact ⟨marked, hmarked, .done⟩
  | cons d ids ih =>
      obtain ⟨marked₁, hmarked₁, hstep⟩ := hrun d List.mem_cons_self left marked hmarked
      obtain ⟨marked', hmarked', hrest⟩ :=
        ih (fun d' hd' => hrun d' (List.mem_cons_of_mem _ hd')) hmarked₁
      exact ⟨marked', hmarked', hstep _ _ _ hrest⟩

/-- **One step of the walk,** whatever follows it: the packages left are those that the build order
leaves. -/
theorem exists_marks (hg : g.IsClosed) (way : List PackageId) (id : PackageId)
    (left : List PackageId) (hid : id < g.size) (hmarked : MarksWay way left marked) :
    ∃ marked', MarksWay way (g.leave way id left) marked' ∧ ∀ ids marked'' left'',
      g.Marks ids marked' (g.leave way id left) marked'' left'' →
        g.Marks (id :: ids) marked left marked'' left'' := by
  induction way, id, left using leave.induct g generalizing marked with
  | case1 way id left hnew ih =>
      have hnot : id ∉ marked := fun hmem => ((hmarked id).1 hmem).elim hnew.2.1 hnew.2.2
      have henter : MarksWay (id :: way) left (id :: marked) := by
        intro k
        rw [List.mem_cons, List.mem_cons, hmarked k, or_assoc]
      obtain ⟨marked', hmarked', hinner⟩ := exists_marks_all
        (fun d (hd : d ∈ g.importsOf id) left marked => ih left d (hg id d hd)) henter
      rw [leave_of_new hnew]
      refine ⟨marked', fun k => ?_, fun ids marked'' left'' hrest => .entered hnot hid hinner hrest⟩
      rw [hmarked' k]
      simp only [List.mem_cons, List.mem_append, List.not_mem_nil, or_false]
      tauto
  | case2 way id left hpassed =>
      have hmem : id ∈ marked := by
        by_contra hnot
        rw [hmarked id, not_or] at hnot
        exact hpassed ⟨hid, hnot⟩
      rw [leave_of_passed hpassed]
      exact ⟨marked, hmarked, fun _ _ _ hrest => .passed hmem hrest⟩

/-- **The walk ends,** and what it leaves is the build order. -/
theorem walks_iff (hg : g.IsClosed) {order : List PackageId} :
    g.Walks order ↔ order = g.buildOrder := by
  have hwalks : g.Walks g.buildOrder := by
    rw [Walks]
    split
    · rename_i hempty
      have hsize : g.size = 0 := by simpa [isEmpty, size] using hempty
      rw [buildOrder, leave_of_passed (by simp [hsize])]
      exact ⟨[], .done⟩
    · rename_i hempty
      have hsize : root < g.size := by
        rw [isEmpty, List.isEmpty_iff_length_eq_zero] at hempty
        exact Nat.pos_of_ne_zero hempty
      have hstart : MarksWay [] [] [] := fun k => by simp
      obtain ⟨marked', -, hstep⟩ := exists_marks hg [] root [] hsize hstart
      exact ⟨marked', hstep _ _ _ .done⟩
  constructor
  · rintro ⟨marked, hmarks⟩
    obtain ⟨marked', hmarks'⟩ := hwalks
    exact (hmarks.unique hmarks').2
  · rintro rfl
    exact hwalks

/-! ### Dependencies first -/

/-- **An order of the packages that the root leads to,** dependencies first. -/
structure DependenciesFirst (g : PackageGraph) (order : List PackageId) : Prop where
  /-- The packages that the root leads to are listed. -/
  mem_iff : ∀ id, id ∈ order ↔ id < g.size ∧ g.Leads root id
  /-- No package is listed twice. -/
  nodup : order.Nodup
  /-- The root is listed last. -/
  last : root < g.size → order.getLast? = some root
  /-- Without circles, imports are listed before the packages that import them. -/
  before : (∀ id, g.Leads root id → ¬ g.OnCircle id) → ∀ front id behind,
    order = front ++ id :: behind → ∀ d, g.Imports id d → d ∈ front

/-- **The build order** lists dependencies first. -/
theorem dependenciesFirst_buildOrder (hg : g.IsClosed) : g.DependenciesFirst g.buildOrder where
  mem_iff := fun _ => mem_buildOrder
  nodup := buildOrder_nodup g
  last := by
    intro hsize
    obtain ⟨before, heq⟩ := exists_buildOrder_eq hsize
    rw [heq, List.getLast?_append_cons]
    rfl
  before := by
    intro hcircle front id behind hsplit d himports
    have hlisted : id ∈ g.buildOrder := by simp [hsplit]
    obtain ⟨hid, hleads⟩ := mem_buildOrder.1 hlisted
    have hgrounded : g.Grounded id := grounded_of_no_circle (hg.below id) hid
      fun other hother => hcircle other (hleads.trans hother)
    exact mem_before_of_imports hsplit hgrounded himports (hg id d himports)

/-- **The table** has one row for every package of the build order. -/
theorem rows_eq (g : PackageGraph) :
    g.rows.map some = g.buildOrder.map (fun id => (g.package? id).map g.row) := by
  rw [rows, List.map_filterMap_some_eq_filter_map_isSome, List.filter_eq_self]
  intro row hrow
  obtain ⟨id, hid, rfl⟩ := List.mem_map.1 hrow
  rw [Option.isSome_map]
  exact package?_isSome.2 (mem_buildOrder.1 hid).1

/-- **The build order of a recorded graph,** whether or not its imports lead around in circles: the
walk that marks packages ends with it, it lists the packages that the root leads to with
dependencies first, and the table has one row for each of them, in this order. -/
theorem IsRecorded.walks_dependenciesFirst (h : g.IsRecorded) :
    (∀ order, g.Walks order ↔ order = g.buildOrder) ∧ g.DependenciesFirst g.buildOrder ∧
      g.rows.map some = g.buildOrder.map (fun id => (g.package? id).map g.row) :=
  ⟨fun _ => walks_iff h.isClosed, dependenciesFirst_buildOrder h.isClosed, rows_eq g⟩

/-- A package without imports, which has its directory by its import path. -/
def plainPackage (importPath : String) : Package where
  directory := ⟨"/src/" ++ importPath⟩
  importPath := importPath
  name := importPath

/-- The root imports `a`. The packages `a` and `b` import each other, and nothing leads to `c`. -/
def circleGraph : PackageGraph where
  packages :=
    [{ plainPackage "main" with imports := [1] }, { plainPackage "a" with imports := [3] },
      plainPackage "c", { plainPackage "b" with imports := [1] }]

theorem isRecorded_circleGraph : circleGraph.IsRecorded := by
  let registered : PackageGraph := ["main", "a", "c", "b"].foldl
    (fun g importPath => (g.register (plainPackage importPath)).2) ⟨[], false⟩
  have heq : circleGraph = ((registered.addImport 0 1).addImport 1 3).addImport 3 1 := by
    decide +kernel
  have hregister {g : PackageGraph} (h : g.IsRecorded) (importPath : String) :
      (g.register (plainPackage importPath)).2.IsRecorded :=
    .register h _ (by simp [plainPackage])
  rw [heq]
  refine .addImport (.addImport (.addImport ?_ ?_ ?_) ?_ ?_) ?_ ?_
  · exact hregister (hregister (hregister (hregister (.empty false) "main") "a") "c") "b"
  all_goals decide +kernel

theorem IsRecorded.walks_dependenciesFirst_circle :
    circleGraph.IsRecorded ∧ circleGraph.OnCircle 1 ∧ circleGraph.DependenciesFirst [3, 1, 0] ∧
      circleGraph.rows.map (·.head?) = [some "b", some "a", some "main"] := by
  have h := isRecorded_circleGraph
  obtain ⟨hwalks, hfirst, -⟩ := IsRecorded.walks_dependenciesFirst h
  have hmarks : circleGraph.Walks [3, 1, 0] :=
    ⟨[3, 1, 0], .entered (by decide) (by decide)
      (.entered (by decide) (by decide)
        (.entered (by decide) (by decide) (.passed (by decide) .done) .done) .done) .done⟩
  have horder : [3, 1, 0] = circleGraph.buildOrder := (hwalks _).1 hmarks
  refine ⟨h, ?_, horder ▸ hfirst, ?_⟩
  · exact TransGen.head (b := 3) (by decide) (TransGen.single (by decide))
  · rw [rows, ← horder]
    decide

end PackageGraph

end GoPlanner

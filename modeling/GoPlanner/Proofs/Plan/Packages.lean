import GoPlanner.Proofs.Plan.Walk

/-!
# The Plan of a Package Graph

Planning the packages of a graph fails at the first package in the build order that has to
be built and has no Go files. Otherwise the plan is put together package by package, and
each of its parts is that of the packages in the build order.

## Main definitions

* `PackageGraph.inBuildOrder`: the packages in the build order.
* `Package.lacksSources`: the packages that cannot be built.
* `Plan.withPackages`: the plan with some packages of a graph.

## Main results

* `Plan.answers_ofGraph`: how planning ends.
* `Plan.invocations_withPackages`, `Plan.linkArchives_withPackages`,
  `Plan.importcfg_withPackages`: the parts of the plan.
-/

namespace GoPlanner

open PackageGraph Telling

variable {c : PlanContext} {g : PackageGraph}

/-- **A package that cannot be built:** it has to be, and has no Go files. -/
def Package.lacksSources (p : Package) : Bool :=
  !p.isCached && p.goFiles.isEmpty

/-- **The packages in the build order.** -/
def PackageGraph.inBuildOrder (g : PackageGraph) : List Package :=
  g.buildOrder.filterMap g.package?

/-- The archive that stands for a package. -/
def Package.archiveIn (p : Package) (layout : Layout) : Path :=
  p.cachedArchive.getD (layout.archive p.importPath)

theorem Package.archiveIn_of_some {p : Package} {layout : Layout} {archive : Path}
    (h : p.cachedArchive = some archive) : p.archiveIn layout = archive := by
  rw [archiveIn, h, Option.getD_some]

theorem Package.archiveIn_of_none {p : Package} {layout : Layout}
    (h : p.cachedArchive = none) : p.archiveIn layout = layout.archive p.importPath := by
  rw [archiveIn, h, Option.getD_none]

theorem PackageGraph.mem_inBuildOrder {p : Package} :
    p ∈ g.inBuildOrder ↔ ∃ id, g.Leads root id ∧ g.package? id = some p := by
  rw [inBuildOrder]
  rw [List.mem_filterMap]
  constructor
  · rintro ⟨id, hid, hp⟩
    exact ⟨id, (mem_buildOrder.1 hid).2, hp⟩
  · rintro ⟨id, hleads, hp⟩
    exact ⟨id, mem_buildOrder.2 ⟨lt_size_of_package? hp, hleads⟩, hp⟩

namespace Plan

/-! ### One package -/

/-- The plan with one more package. -/
def withPackage (plan : Plan) (c : PlanContext) (id : PackageId) (p : Package) : Plan where
  importcfg := plan.importcfg.registerAll p.importPaths (p.archiveIn c.layout)
  invocations := plan.invocations ++ if p.isCached then [] else Block.ofPackage c p
  linkArchives := plan.linkArchives ++ if id = root then [c.layout.archive p.importPath] else []

/-- **How planning one package ends.** -/
theorem answers_addPackage {id : PackageId} {p : Package} (plan : Plan)
    (hp : g.package? id = some p) :
    Answers (addPackage c g plan id)
      (if p.lacksSources then .error (.noCompilableSources p.importPath)
        else .ok (plan.withPackage c id p)) := by
  rw [addPackage]
  simp only [hp]
  refine Answers.tell_bind ?_
  cases hcached : p.isCached with
  | true =>
      have hlacks : p.lacksSources = false := by simp [Package.lacksSources, hcached]
      rw [hlacks]
      have hplan : plan.withPackage c id p = withEntries
          (if id = root then plan.withLinkArchive (c.layout.archive p.importPath) else plan) c p := by
        by_cases hid : id = root <;>
          simp [withPackage, withEntries, withLinkArchive, Package.archiveIn, hcached, hid]
      simpa [hplan] using answers_pure _
  | false =>
      by_cases hempty : p.goFiles.isEmpty = true
      · have hlacks : p.lacksSources = true := by
          simpa [Package.lacksSources, hcached] using hempty
        simpa [hlacks, hempty] using answers_throw _
      · have hlacks : p.lacksSources = false := by
          simpa [Package.lacksSources, hcached] using hempty
        have hplan : plan.withPackage c id p = withInvocations (withEntries
            (if id = root then plan.withLinkArchive (c.layout.archive p.importPath) else plan) c p)
            (Block.ofPackage c p) := by
          by_cases hid : id = root <;>
            simp [withPackage, withEntries, withLinkArchive, withInvocations, Package.archiveIn,
              hcached, hid]
        simp only [hlacks, hempty, Bool.false_eq_true, if_false, hplan]
        exact (answers_forM_tell _ _).bind (answers_pure _)

/-- A number without a package changes nothing. -/
theorem answers_addPackage_none {id : PackageId} (plan : Plan) (hp : g.package? id = none) :
    Answers (addPackage c g plan id) (.ok plan) := by
  rw [addPackage]
  simp only [hp]
  exact answers_pure plan

/-! ### Several packages -/

/-- **The plan with some packages** of a graph. -/
def withPackages (plan : Plan) (c : PlanContext) (g : PackageGraph) (ids : List PackageId) :
    Plan :=
  ids.foldl (fun plan id => ((g.package? id).map (plan.withPackage c id)).getD plan) plan

@[simp] theorem withPackages_nil (plan : Plan) : plan.withPackages c g [] = plan :=
  rfl

theorem withPackages_cons {id : PackageId} {p : Package} (plan : Plan) (ids : List PackageId)
    (hp : g.package? id = some p) :
    plan.withPackages c g (id :: ids) = (plan.withPackage c id p).withPackages c g ids := by
  simp [withPackages, hp]

theorem withPackages_cons_none {id : PackageId} (plan : Plan) (ids : List PackageId)
    (hp : g.package? id = none) :
    plan.withPackages c g (id :: ids) = plan.withPackages c g ids := by
  simp [withPackages, hp]

/-- **How planning several packages ends:** with the first one that cannot be built. -/
theorem answers_addPackages (plan : Plan) (ids : List PackageId) :
    Answers (ids.foldlM (addPackage c g) plan)
      (match (ids.filterMap g.package?).find? Package.lacksSources with
        | some p => .error (.noCompilableSources p.importPath)
        | none => .ok (plan.withPackages c g ids)) := by
  induction ids generalizing plan with
  | nil => exact answers_pure plan
  | cons id ids ih =>
      rw [List.foldlM_cons]
      cases hp : g.package? id with
      | none =>
          rw [List.filterMap_cons_none hp, withPackages_cons_none plan ids hp]
          exact (answers_addPackage_none plan hp).bind (ih plan)
      | some p =>
          have hstep := answers_addPackage (c := c) plan hp
          rw [List.filterMap_cons_some hp, List.find?_cons]
          cases hlacks : p.lacksSources with
          | true =>
              rw [hlacks] at hstep
              exact hstep.bind_error _
          | false =>
              rw [hlacks] at hstep
              rw [withPackages_cons plan ids hp]
              exact hstep.bind (ih _)

/-- **How planning a graph ends.** -/
theorem answers_ofGraph (c : PlanContext) (g : PackageGraph) :
    Answers (ofGraph c g)
      (match g.inBuildOrder.find? Package.lacksSources with
        | some p => .error (.noCompilableSources p.importPath)
        | none => .ok ((empty c.layout).withPackages c g g.buildOrder)) := by
  rw [ofGraph_eq]
  exact answers_addPackages _ _

/-! ### The parts of the plan -/

/-- **The invocations:** the blocks of the packages that have no archive. -/
theorem invocations_withPackages (plan : Plan) (ids : List PackageId) :
    (plan.withPackages c g ids).invocations =
      plan.invocations ++
        ((ids.filterMap g.package?).filter (fun p => !p.isCached)).flatMap (Block.ofPackage c) := by
  induction ids generalizing plan with
  | nil => simp
  | cons id ids ih =>
      cases hp : g.package? id with
      | none => rw [withPackages_cons_none plan ids hp, ih, List.filterMap_cons_none hp]
      | some p =>
          rw [withPackages_cons plan ids hp, ih, List.filterMap_cons_some hp]
          cases hcached : p.isCached <;> simp [withPackage, hcached]

/-- **The archives to be linked:** that of the root, once for each time it is planned. -/
theorem linkArchives_withPackages {p : Package} (plan : Plan) (ids : List PackageId)
    (hroot : g.package? root = some p) :
    (plan.withPackages c g ids).linkArchives =
      plan.linkArchives ++ (ids.filter (· = root)).map (fun _ => c.layout.archive p.importPath) := by
  induction ids generalizing plan with
  | nil => simp
  | cons id ids ih =>
      by_cases hid : id = root
      · subst hid
        rw [withPackages_cons plan ids hroot, ih]
        simp [withPackage]
      · cases hp : g.package? id with
        | none => simp [withPackages_cons_none plan ids hp, ih, hid]
        | some q => simp [withPackages_cons plan ids hp, ih, hid, withPackage]

/-- **The import configuration:** the packages are registered one after the other. -/
theorem importcfg_withPackages (plan : Plan) (ids : List PackageId) :
    (plan.withPackages c g ids).importcfg =
      (ids.filterMap g.package?).foldl
        (fun cfg p => cfg.registerAll p.importPaths (p.archiveIn c.layout)) plan.importcfg := by
  induction ids generalizing plan with
  | nil => rfl
  | cons id ids ih =>
      cases hp : g.package? id with
      | none => rw [withPackages_cons_none plan ids hp, ih, List.filterMap_cons_none hp]
      | some p =>
          rw [withPackages_cons plan ids hp, ih, List.filterMap_cons_some hp]
          rfl

/-- The root of a graph is linked, and nothing else. -/
theorem linkArchives_buildOrder {p : Package} (hroot : g.package? root = some p) :
    ((empty c.layout).withPackages c g g.buildOrder).linkArchives =
      [c.layout.archive p.importPath] := by
  have hmem : root ∈ g.buildOrder :=
    mem_buildOrder.2 ⟨lt_size_of_package? hroot, Relation.ReflTransGen.refl⟩
  have honce : g.buildOrder.filter (· = root) = [root] := by
    rw [List.filter_eq, (buildOrder_nodup g).count, if_pos hmem]
    rfl
  rw [linkArchives_withPackages _ _ hroot, honce]
  rfl

end Plan

end GoPlanner

import GoPlanner.Proofs.Build.Generate
import GoPlanner.Proofs.Discovery.Complete
import GoPlanner.Proofs.Graph.Bare

/-!
# Builds That Are Planned

A build that is planned has a graph that was discovered in the files as they were before, from
which stale archives were taken away, and a plan that was generated from that graph. As the
walk for stale archives ended, the graph has no circle.

## Main definitions

* `Sifts`: a graph without stale archives, with the run behind it.
* `Generates`: a plan, with the files that were changed for it.
* `Planned`: a build that is planned.

## Main results

* `sifts_of_discover`, `outcome_discover`: the graph of an input.
* `Sifts.grounded`, `Sifts.isCached_iff`: the graph has no circle, and which of its archives
  are in use.
* `generate_ok`: the plan of a graph.
* `planBuild_ok`, `exists_planBuild`: the graph and the plan of a build.
* `planBuild_keeps`: what planning a build changes.
-/

namespace GoPlanner

open Acting PackageGraph Discovery Telling Relation

variable {t : FileTree} {input buildDir : Path} {target : Target} {g : PackageGraph}
  {id : PackageId}

/-! ### The graph -/

/-- **A graph without stale archives,** with the run behind it. -/
structure Sifts (c : Discovery) (start : Arrival) (precompiled : Bool) (found g : PackageGraph) :
    Prop where
  /-- The graph that was found. -/
  finds : c.Finds start precompiled found
  /-- The root leads to no circle. -/
  rootGrounded : found.Grounded root
  /-- Archives that are not to be used were taken away. -/
  sifted : g = found.withoutArchives (found.lostAmong found.buildOrder)

/-- **The graph of an input,** from the place of the input. -/
theorem sifts_of_resolve {place : Place} (hplace : t.resolve input = .ok place)
    (h : (discover t input buildDir target).outcome.1 = .ok g) :
    ∃ c found, IsFor c t input buildDir target ∧
      Sifts c (rootOf t place) (t.isDirectory target.archiveDir) found g := by
  have hends := ends_of_outcome h
  rw [discover] at hends
  obtain ⟨found, hfound, hends⟩ := hends.bind
  obtain ⟨c, hfor, hfinds⟩ := finds_of_resolve hplace hfound
  cases hdrop : found.dropStale? with
  | none => simp [hdrop] at hends
  | some r =>
      rw [hdrop] at hends
      obtain ⟨_, -, hends⟩ := hends.bind
      obtain rfl := Except.ok.inj (ends_pure.1 hends)
      have hgrounded : found.Grounded root := grounded_of_dropStale? (by simp [hdrop])
      rw [dropStale?_eq (hfinds.proper.closed.below root) hgrounded] at hdrop
      obtain rfl := Option.some.inj hdrop
      exact ⟨c, found, hfor, hfinds, hgrounded, rfl⟩

theorem resolve_of_discover (h : (discover t input buildDir target).outcome.1 = .ok g) :
    ∃ place, t.resolve input = .ok place := by
  have hends := ends_of_outcome h
  rw [discover] at hends
  obtain ⟨found, hfound, -⟩ := hends.bind
  exact resolve_of_discoverAll hfound

theorem sifts_of_discover (h : (discover t input buildDir target).outcome.1 = .ok g) :
    ∃ c place found, IsFor c t input buildDir target ∧
      Sifts c (rootOf t place) (t.isDirectory target.archiveDir) found g := by
  obtain ⟨place, hplace⟩ := resolve_of_discover h
  obtain ⟨c, found, hsifts⟩ := sifts_of_resolve hplace h
  exact ⟨c, place, found, hsifts⟩

/-- **Without circles** the graph of an input is the one that was found, but for the archives
that are not to be used. -/
theorem outcome_discover {found : PackageGraph}
    (h : (discoverAll t input buildDir target).outcome.1 = .ok found)
    (hgrounded : found.Grounded root) :
    (discover t input buildDir target).outcome.1 =
      .ok (found.withoutArchives (found.lostAmong found.buildOrder)) := by
  obtain ⟨c, place, -, hfinds⟩ := finds_of_discoverAll (ends_of_outcome h)
  refine outcome_bind_of_answers h ?_
  rw [dropStale?_eq (hfinds.proper.closed.below root) hgrounded]
  exact (answers_forM_tell _ _).bind (answers_pure _)

/-- **With nothing to build anew** the graph of an input is the one that was found. -/
theorem outcome_discover_of_kept {found : PackageGraph}
    (h : (discoverAll t input buildDir target).outcome.1 = .ok found)
    (hgrounded : found.Grounded root)
    (hkeeps : ∀ id, found.isCached id = true → found.KeepsArchive id) :
    (discover t input buildDir target).outcome.1 = .ok found := by
  rw [outcome_discover h hgrounded, withoutArchives_lostAmong_eq fun id _ => hkeeps id]

namespace Sifts

variable {c : Discovery} {start : Arrival} {precompiled : Bool} {found : PackageGraph}

/-- The packages are those that were found, but for their archives. -/
theorem package?_eq (h : Sifts c start precompiled found g) :
    g.package? id = (found.package? id).map (fun p =>
      if found.lostAmong found.buildOrder id then { p with cachedArchive := none } else p) := by
  rw [h.sifted, package?_withoutArchives]

theorem size_eq (h : Sifts c start precompiled found g) : g.size = found.size := by
  rw [h.sifted, size_withoutArchives]

theorem precompiled_eq (h : Sifts c start precompiled found g) : g.precompiled = precompiled := by
  rw [h.sifted, precompiled_withoutArchives, h.finds.precompiled_eq]

theorem importsOf_eq (h : Sifts c start precompiled found g) :
    g.importsOf id = found.importsOf id := by
  rw [h.sifted, importsOf_withoutArchives]

/-- The graph is the one that was found, but for archives. -/
theorem bare_eq (h : Sifts c start precompiled found g) : g.bare = found.bare := by
  rw [h.sifted, bare_withoutArchives]

theorem leads_iff (h : Sifts c start precompiled found g) {other : PackageId} :
    g.Leads id other ↔ found.Leads id other := by
  rw [h.sifted, leads_withoutArchives]

/-- **The root leads to all packages.** -/
theorem leads (h : Sifts c start precompiled found g) (hid : id < g.size) : g.Leads root id :=
  h.leads_iff.2 (h.finds.leads (h.size_eq ▸ hid))

theorem closed (h : Sifts c start precompiled found g) : g.IsClosed := by
  intro importer dependency himports
  rw [Imports, h.importsOf_eq] at himports
  exact h.size_eq ▸ h.finds.proper.closed importer dependency himports

/-- **No package lies on a circle.** -/
theorem grounded (h : Sifts c start precompiled found g) (hid : id < g.size) : g.Grounded id := by
  have hfound := h.rootGrounded.of_leads (h.finds.leads (h.size_eq ▸ hid))
  have himports : g.Imports = found.Imports := by
    funext importer dependency
    rw [Imports, Imports, h.importsOf_eq]
  rwa [Grounded, himports]

/-- **Which archives are in use:** those of packages that lead to packages with archives
only. -/
theorem isCached_iff (h : Sifts c start precompiled found g) (hid : id < g.size) :
    g.isCached id = true ↔ ∀ m, g.Leads id m → found.isCached m = true := by
  have hkeeps : (∀ m, g.Leads id m → found.isCached m = true) ↔ found.KeepsArchive id :=
    forall_congr' fun m => by rw [h.leads_iff]
  have hlisted : id ∈ found.buildOrder :=
    mem_buildOrder.2 ⟨h.size_eq ▸ hid, h.finds.leads (h.size_eq ▸ hid)⟩
  rw [hkeeps, h.sifted, isCached_withoutArchives]
  by_cases hkeep : found.KeepsArchive id
  · simp [lostAmong, hkeep, hkeep.isCached]
  · simp [lostAmong, hkeep, hlisted]

end Sifts

/-! ### The plan -/

/-- **The plan of a graph,** with the files that it was generated in: the build directory has
been made, and the import configuration has been written empty before anything else and
complete at the end. -/
structure Generates (t : FileTree) (g : PackageGraph) (buildDir : Path) (target : Target)
    (archives : List (String × Path)) (plan : Plan) (t' : FileTree) : Prop where
  /-- Every package that has to be built can be. -/
  sources : g.inBuildOrder.find? Package.lacksSources = none
  /-- The plan is that of the graph. -/
  plan_eq : plan = Plan.final ⟨⟨buildDir⟩, target⟩ g archives
  /-- The files. -/
  files : ∃ t₁ t₂, t.makeDirectories buildDir = .ok t₁ ∧
    t₁.write (Layout.importcfg ⟨buildDir⟩) (.text "") = .ok t₂ ∧
    standardArchives g t₂ target = .ok archives ∧
    t₂.write (Layout.importcfg ⟨buildDir⟩) (.text plan.importcfg.render) = .ok t'

theorem outcome_flush_ok {s s' : Session} {cfg : ImportConfig}
    (h : (flush cfg).outcome s = (.ok (), s')) :
    s.tree.write cfg.path (.text cfg.render) = .ok s'.tree :=
  outcome_changeFiles_ok h

/-- **A plan that could be generated.** -/
theorem generate_ok {s s' : Session} {plan : Plan}
    (h : (generate g buildDir target).outcome s = (.ok plan, s')) :
    ∃ archives, Generates s.tree g buildDir target archives plan s'.tree := by
  have hgenerate := h
  rw [generate] at hgenerate
  obtain ⟨_, s₁, hdirs, hgenerate⟩ := outcome_bind_ok hgenerate
  obtain ⟨_, s₂, hwrite, hgenerate⟩ := outcome_bind_ok hgenerate
  obtain ⟨plan₀, s₃, hplan₀, hgenerate⟩ := outcome_bind_ok hgenerate
  -- Planning the packages and listing the archives changes no files.
  have htree₃ : s₃.tree = s₂.tree := by
    rw [outcome_saying, Prod.mk.injEq] at hplan₀
    exact hplan₀.2 ▸ rfl
  obtain ⟨cfg, s₄, htree₄, hgenerate⟩ : ∃ cfg s₄, s₄.tree = s₃.tree ∧
      (do flush cfg; pure { plan₀ with importcfg := cfg } : Acting Plan).outcome s₄ =
        (.ok plan, s') := by
    dsimp only at hgenerate
    split at hgenerate
    · rw [outcome_bind_of_ok (outcome_files _)] at hgenerate
      obtain ⟨⟨_, cfg⟩, s₄, hregister, hgenerate⟩ := outcome_bind_ok hgenerate
      rw [outcome_saying, Prod.mk.injEq] at hregister
      exact ⟨cfg, s₄, hregister.2 ▸ rfl, hgenerate⟩
    · exact ⟨plan₀.importcfg, s₃, rfl, hgenerate⟩
  obtain ⟨_, s₅, hflush, hend⟩ := outcome_bind_ok hgenerate
  replace hdirs := FileTree.makeDirectories_eq_ok.2 (outcome_makeDirectories_ok hdirs)
  replace hwrite := outcome_flush_ok hwrite
  replace hflush := outcome_flush_ok hflush
  obtain ⟨hplan, rfl⟩ := Prod.mk.inj hend
  obtain rfl : { plan₀ with importcfg := cfg } = plan := Except.ok.inj hplan
  have houtcome := outcome_generate (s := s) g target hdirs hwrite
  rw [h] at houtcome
  cases hlacks : g.inBuildOrder.find? Package.lacksSources with
  | some p => simp [hlacks] at houtcome
  | none =>
      cases harchives : standardArchives g s₂.tree target with
      | error fault => simp [hlacks, harchives] at houtcome
      | ok archives =>
          simp only [hlacks, harchives, Except.ok.injEq] at houtcome
          have hpath : cfg.path = Layout.importcfg ⟨buildDir⟩ := by
            have hfinal := Plan.final_path ⟨⟨buildDir⟩, target⟩ g archives
            rwa [← houtcome] at hfinal
          rw [htree₄, htree₃, hpath] at hflush
          exact ⟨archives, hlacks, houtcome, _, _, hdirs, hwrite, harchives, hflush⟩

/-- **A build that is planned:** its graph was discovered in the files as they were, and its
plan was generated from that graph and linked. -/
structure Planned (t : FileTree) (input : Path) (target : Target) (b : Build) (t' : FileTree) :
    Prop where
  /-- The graph is that of the input. -/
  graph : (discover t input b.layout.base target).outcome.1 = .ok b.graph
  /-- The plan is that of the graph, and the root is linked. -/
  plan : ∃ archives plan root, Generates t b.graph b.layout.base target archives plan t' ∧
    b.graph.package? PackageGraph.root = some root ∧
    b.plan = plan.withInvocations [linkOf b.layout root.importPath]

/-- Making a path absolute changes nothing. -/
theorem outcome_absolutePath {s s' : Session} {p q : Path}
    (h : (absolutePath p).outcome s = (.ok q, s')) : s' = s := by
  rw [absolutePath] at h
  split at h
  · exact (congrArg Prod.snd h).symm
  · rw [outcome_bind_of_ok (outcome_files s)] at h
    split at h
    · exact (congrArg Prod.snd h).symm
    · simp at h

/-- **A build can be planned** when its graph can be discovered, its packages can be built and
its build directory can be written to. -/
theorem exists_planBuild {s : Session} {t₁ t₂ : FileTree} {archives : List (String × Path)}
    (habsolute : buildDir.isAbsolute = true)
    (hgraph : (discover s.tree input buildDir target).outcome.1 = .ok g)
    (hdirs : s.tree.makeDirectories buildDir = .ok t₁)
    (hwrite : t₁.write (Layout.importcfg ⟨buildDir⟩) (.text "") = .ok t₂)
    (hsources : g.inBuildOrder.find? Package.lacksSources = none)
    (harchives : standardArchives g t₂ target = .ok archives) :
    ∃ b s', (planBuild input buildDir target).outcome s = (.ok b, s') ∧ b.graph = g ∧
      b.layout = ⟨buildDir⟩ := by
  have hdir : (absolutePath buildDir).outcome s = (.ok buildDir, s) := by
    rw [absolutePath]
    rw [if_pos habsolute]
    rfl
  rw [planBuild]
  rw [outcome_bind_of_ok hdir, outcome_bind_of_ok (outcome_tell _ _),
    outcome_bind_of_ok (outcome_files _), outcome_bind, outcome_saying, hgraph]
  dsimp only
  rw [outcome_bind_of_ok (outcome_tell _ _), outcome_bind_of_ok (outcome_tell _ _), outcome_bind]
  generalize hs₃ : Session.mk s.tree _ = s₃
  have hgenerate := outcome_generate (s := s₃) g target (by rw [← hs₃]; exact hdirs) hwrite
  rw [hsources] at hgenerate
  simp only [harchives] at hgenerate
  cases hresult : (generate g buildDir target).outcome s₃ with
  | mk result s₄ =>
      rw [hresult] at hgenerate
      obtain rfl := hgenerate
      dsimp only
      rw [outcome_bind, outcome_saying, (Plan.answers_linked _ _).outcome]
      exact ⟨_, _, rfl, rfl, rfl⟩

/-- **The graph and the plan of a build.** -/
theorem planBuild_ok {s s' : Session} {b : Build}
    (h : (planBuild input buildDir target).outcome s = (.ok b, s')) :
    Planned s.tree input target b s'.tree := by
  rw [planBuild] at h
  obtain ⟨dir, s₁, hdir, hrest⟩ := outcome_bind_ok h
  obtain rfl := outcome_absolutePath hdir
  rw [outcome_bind_of_ok (outcome_tell _ _), outcome_bind_of_ok (outcome_files _)] at hrest
  obtain ⟨g, s₂, hdiscover, hrest⟩ := outcome_bind_ok hrest
  rw [outcome_saying, Prod.mk.injEq] at hdiscover
  obtain ⟨hgraph, rfl⟩ := hdiscover
  rw [outcome_bind_of_ok (outcome_tell _ _), outcome_bind_of_ok (outcome_tell _ _)] at hrest
  obtain ⟨plan, s₃, hgenerate, hrest⟩ := outcome_bind_ok hrest
  obtain ⟨linked, s₄, hlinked, hbuild⟩ := outcome_bind_ok hrest
  rw [outcome_saying, (Plan.answers_linked _ _).outcome, Prod.mk.injEq] at hlinked
  obtain ⟨hplan, rfl⟩ := hlinked
  obtain rfl := Except.ok.inj hplan
  rw [outcome_pure, Prod.mk.injEq] at hbuild
  obtain ⟨hbuild, rfl⟩ := hbuild
  obtain rfl := Except.ok.inj hbuild
  obtain ⟨archives, hgenerates⟩ := generate_ok hgenerate
  obtain ⟨_, _, found, -, hsifts⟩ := sifts_of_discover hgraph
  obtain ⟨root, hroot⟩ := exists_package (hsifts.size_eq ▸ hsifts.finds.root_lt_size)
  refine ⟨hgraph, archives, plan, root, hgenerates, hroot, ?_⟩
  have hlink := Plan.link_final (c := ⟨⟨dir⟩, target⟩) hroot archives
  rw [← hgenerates.plan_eq] at hlink
  exact congrArg (fun i => plan.withInvocations [i]) hlink

/-! ### What planning changes -/

section Keeps

variable {P : FileTree → Prop}

theorem keeps_flush {cfg : ImportConfig}
    (hwrite : ∀ t t' text, P t → t.write cfg.path (.text text) = .ok t' → P t') :
    Keeps P (flush cfg) :=
  keeps_changeFiles fun t t' ht h => hwrite t t' _ ht h

theorem keeps_makeDirectories {p : Path} (hdirs : ∀ t, P t → P (t.afterDirectories p)) :
    Keeps P (makeDirectories p) := by
  intro s hs
  have hkept := hdirs s.tree hs
  rw [FileTree.afterDirectories] at hkept
  rw [outcome_makeDirectories]
  cases hmade : s.tree.makeBelow p p.ancestors with
  | error e =>
      rw [hmade] at hkept
      exact hkept
  | ok t =>
      rw [hmade] at hkept
      exact hkept

/-- **Generation changes the files** by making the build directory and by writing the import
configuration only. -/
theorem keeps_generate (hdirs : ∀ t, P t → P (t.afterDirectories buildDir))
    (hwrite : ∀ t t' text, P t → t.write (Layout.importcfg ⟨buildDir⟩) (.text text) = .ok t' →
      P t') : Keeps P (generate g buildDir target) := by
  have hempty : Keeps P (flush (Plan.empty ⟨buildDir⟩).importcfg) := keeps_flush hwrite
  rw [generate]
  refine (keeps_makeDirectories hdirs).bind fun _ _ _ _ => hempty.bind fun _ _ _ _ => ?_
  refine (keeps_saying _).bind fun s plan s' hplan => ?_
  have hpath : plan.importcfg.path = Layout.importcfg ⟨buildDir⟩ := by
    rw [outcome_saying, (Plan.answers_ofGraph _ _).outcome] at hplan
    replace hplan := congrArg Prod.fst hplan
    dsimp only at hplan
    split at hplan
    · cases hplan
    · obtain rfl := Except.ok.inj hplan
      exact Plan.final_path ⟨⟨buildDir⟩, target⟩ g []
  have hlast (cfg : ImportConfig) (hcfg : cfg.path = Layout.importcfg ⟨buildDir⟩) :
      Keeps P (do flush cfg; pure { plan with importcfg := cfg } : Acting Plan) := by
    refine (keeps_flush ?_).bind fun _ _ _ _ => keeps_pure _
    rwa [hcfg]
  dsimp only
  split
  · refine keeps_files.bind fun _ t _ _ => ?_
    refine (keeps_saying _).bind fun s registered s' hregister => ?_
    refine hlast registered.2 ?_
    rw [outcome_saying, outcome_registerStandardLibrary] at hregister
    replace hregister := congrArg Prod.fst hregister
    dsimp only at hregister
    split at hregister
    · obtain rfl := Except.ok.inj hregister
      rw [foldl_register_path, hpath]
    · cases hregister
  · exact hlast plan.importcfg hpath

/-- **Planning a build changes the files** in the same way. -/
theorem planBuild_keeps {s : Session} {base : Path}
    (hbase : ((absolutePath buildDir).outcome s).1 = .ok base)
    (hdirs : ∀ t, P t → P (t.afterDirectories base))
    (hwrite : ∀ t t' text, P t → t.write (Layout.importcfg ⟨base⟩) (.text text) = .ok t' → P t')
    (hs : P s.tree) : P ((planBuild input buildDir target).outcome s).2.tree := by
  have habsolute : (absolutePath buildDir).outcome s = (.ok base, s) := by
    cases houtcome : (absolutePath buildDir).outcome s with
    | mk r s₁ =>
        rw [houtcome] at hbase
        obtain rfl : r = .ok base := hbase
        rw [outcome_absolutePath houtcome]
  rw [planBuild, outcome_bind_of_ok habsolute]
  suffices hkeeps : Keeps P _ from hkeeps s hs
  refine (keeps_tell _).bind fun _ _ _ _ => ?_
  refine keeps_files.bind fun _ _ _ _ => (keeps_saying _).bind fun _ _ _ _ => ?_
  refine (keeps_tell _).bind fun _ _ _ _ => (keeps_tell _).bind fun _ _ _ _ => ?_
  refine (keeps_generate hdirs hwrite).bind fun _ _ _ _ => ?_
  exact (keeps_saying _).bind fun _ _ _ _ => keeps_pure _

end Keeps

/-- The build directory of a build is the absolute form of the one that is named. -/
theorem planBuild_base {s s' : Session} {b : Build}
    (h : (planBuild input buildDir target).outcome s = (.ok b, s')) :
    ((absolutePath buildDir).outcome s).1 = .ok b.layout.base := by
  rw [planBuild] at h
  obtain ⟨base, s₁, hbase, h⟩ := outcome_bind_ok h
  rw [outcome_bind_of_ok (outcome_tell _ _), outcome_bind_of_ok (outcome_files _)] at h
  obtain ⟨g, s₂, -, h⟩ := outcome_bind_ok h
  rw [outcome_bind_of_ok (outcome_tell _ _), outcome_bind_of_ok (outcome_tell _ _)] at h
  obtain ⟨plan, s₃, -, h⟩ := outcome_bind_ok h
  obtain ⟨linked, s₄, -, h⟩ := outcome_bind_ok h
  obtain rfl := Except.ok.inj (congrArg Prod.fst h)
  rw [hbase]

end GoPlanner

import GoPlanner.Build
import GoPlanner.Proofs.FileTree.Write
import GoPlanner.Proofs.ImportConfig
import GoPlanner.Proofs.Plan.Blocks
import GoPlanner.Proofs.Plan.Packages

/-!
# Generating the Commands

Generation fails at the first package in the build order that has to be built and has no
Go files, then when the archives of the standard library are asked for and cannot be
listed. Otherwise the plan consists of the blocks of the packages that are built, in the
build order, and of one link.

## Main definitions

* `standardArchives`: the archives of the standard library that are registered.
* `Plan.final`: the plan that generation ends with.

## Main results

* `outcome_generate`: how generation ends, once the build directory can be written to.
* `generate_inBuildOrder`: the commands of a graph.
-/

namespace GoPlanner

open Acting PackageGraph

variable {g : PackageGraph} {buildDir : Path} {target : Target} {s : Session} {t t₁ t₂ : FileTree}

/-! ### How generation ends -/

/-- **The archives of the standard library** that are registered for a graph. -/
def standardArchives (g : PackageGraph) (t : FileTree) (target : Target) :
    Except Fault (List (String × Path)) :=
  if g.precompiled then t.archivesIn target.archiveDir else .ok []

/-- Without precompiled archives none are registered. -/
theorem standardArchives_of_not_precompiled (h : g.precompiled = false) :
    standardArchives g t target = .ok [] := by
  rw [standardArchives, h, if_neg Bool.false_ne_true]

/-- **The plan** that generation ends with, given the archives of the standard library. -/
def Plan.final (c : PlanContext) (g : PackageGraph) (archives : List (String × Path)) : Plan :=
  let plan := (Plan.empty c.layout).withPackages c g g.buildOrder
  { plan with importcfg := archives.foldl (fun c a => c.register a.1 a.2) plan.importcfg }

/-- Writing succeeds if the tree lets it. -/
theorem outcome_flush {cfg : ImportConfig}
    (h : s.tree.write cfg.path (.text cfg.render) = .ok t) :
    (flush cfg).outcome s = (.ok (), { s with tree := t }) := by
  rw [flush, writeText, outcome_changeFiles, h]

/-- Registering keeps the path of an import configuration. -/
theorem foldl_register_path (archives : List (String × Path)) (cfg : ImportConfig) :
    (archives.foldl (fun c a => c.register a.1 a.2) cfg).path = cfg.path :=
  ImportConfig.path_registerEach

theorem foldl_registerAll_path {layout : Layout} (packages : List Package) (cfg : ImportConfig) :
    (packages.foldl (fun cfg p => cfg.registerAll p.importPaths (p.archiveIn layout)) cfg).path =
      cfg.path := by
  have hall (paths : List String) (archive : Path) (cfg : ImportConfig) :
      (cfg.registerAll paths archive).path = cfg.path := by
    rw [ImportConfig.registerAll_eq, ImportConfig.path_registerEach]
  induction packages generalizing cfg with
  | nil => rfl
  | cons p packages ih => exact (ih _).trans (hall _ _ _)

@[simp] theorem Plan.final_path (c : PlanContext) (g : PackageGraph)
    (archives : List (String × Path)) :
    (Plan.final c g archives).importcfg.path = c.layout.importcfg := by
  rw [Plan.final, foldl_register_path, Plan.importcfg_withPackages, foldl_registerAll_path]
  rfl

/-- Registering the standard library, if the graph asks for it. -/
theorem outcome_registerStandardLibrary (t : FileTree) (directory : Path) (cfg : ImportConfig) :
    (registerStandardLibrary t directory cfg).outcome.1 =
      match t.archivesIn directory with
      | .ok archives =>
        .ok (archives.length, archives.foldl (fun c a => c.register a.1 a.2) cfg)
      | .error fault => .error (.refused directory fault) := by
  rw [registerStandardLibrary]
  cases h : t.archivesIn directory with
  | ok archives =>
      refine ((Telling.answers_orRefused_ok rfl).bind ?_).outcome
      exact Telling.Answers.tell_bind (Telling.answers_pure _)
  | error fault => exact ((Telling.answers_orRefused_error rfl).bind_error _).outcome

/-- **How generation ends,** once the build directory can be written to. -/
theorem outcome_generate (g : PackageGraph) (target : Target)
    (hdirs : s.tree.makeDirectories buildDir = .ok t₁)
    (hwrite : t₁.write (Layout.importcfg ⟨buildDir⟩) (.text "") = .ok t₂) :
    ((generate g buildDir target).outcome s).1 =
      match g.inBuildOrder.find? Package.lacksSources with
      | some p => .error (.noCompilableSources p.importPath)
      | none =>
        match standardArchives g t₂ target with
        | .error fault => .error (.refused target.archiveDir fault)
        | .ok archives => .ok (Plan.final ⟨⟨buildDir⟩, target⟩ g archives) := by
  have hdirs' : (makeDirectories buildDir).outcome s = (.ok (), { s with tree := t₁ }) := by
    rw [outcome_makeDirectories, FileTree.makeDirectories_eq_ok.1 hdirs]
  have hempty : (flush (Plan.empty ⟨buildDir⟩).importcfg).outcome { s with tree := t₁ } =
      (.ok (), { s with tree := t₂ }) := outcome_flush hwrite
  -- The file that has been written empty can be written again.
  have hfull (cfg : ImportConfig) (hpath : cfg.path = Layout.importcfg ⟨buildDir⟩)
      (s : Session) (htree : s.tree = t₂) : ∃ s', (flush cfg).outcome s = (.ok (), s') := by
    obtain ⟨t₃, ht₃⟩ := FileTree.write_again (.text cfg.render) hwrite
    exact ⟨_, outcome_flush (t := t₃) (by rw [htree, hpath, ht₃])⟩
  have hlast (archives : List (String × Path)) (s : Session) (htree : s.tree = t₂) :
      ((do
          flush (Plan.final ⟨⟨buildDir⟩, target⟩ g archives).importcfg
          pure (Plan.final ⟨⟨buildDir⟩, target⟩ g archives) : Acting Plan).outcome s).1 =
        .ok (Plan.final ⟨⟨buildDir⟩, target⟩ g archives) := by
    obtain ⟨s', hs'⟩ := hfull (Plan.final ⟨⟨buildDir⟩, target⟩ g archives).importcfg (by simp) s htree
    rw [outcome_bind_of_ok hs']
    rfl
  have hplanned := (Plan.answers_ofGraph ⟨⟨buildDir⟩, target⟩ g).outcome
  rw [generate]
  rw [outcome_bind_of_ok hdirs', outcome_bind_of_ok hempty, outcome_bind, outcome_saying, hplanned]
  cases g.inBuildOrder.find? Package.lacksSources with
  | some p => rfl
  | none =>
      dsimp only
      cases hprecompiled : g.precompiled with
      | false =>
          simp only [Bool.false_eq_true, if_false, standardArchives, hprecompiled]
          exact hlast [] _ rfl
      | true =>
          simp only [if_true, standardArchives, hprecompiled]
          rw [outcome_bind_of_ok (outcome_files _), outcome_bind, outcome_saying,
            outcome_registerStandardLibrary]
          cases harchives : t₂.archivesIn target.archiveDir with
          | error fault => rfl
          | ok archives => exact hlast archives _ rfl

/-! ### The commands -/

/-- **The link** of a graph whose root has the given import path. -/
def linkOf (layout : Layout) (importPath : String) : Invocation :=
  ⟨.link, ["-o", layout.executable.text, "-buildmode=exe", "-importcfg", layout.importcfg.text,
    (layout.archive importPath).text]⟩

/-- The invocations of the final plan: the blocks in the build order. -/
theorem Plan.invocations_final (c : PlanContext) (g : PackageGraph)
    (archives : List (String × Path)) :
    (Plan.final c g archives).invocations =
      (g.inBuildOrder.filter (fun p => !p.isCached)).flatMap (Block.ofPackage c) := by
  rw [Plan.final, Plan.invocations_withPackages]
  rfl

/-- The link of the final plan. -/
theorem Plan.link_final {c : PlanContext} {p : Package} (hroot : g.package? root = some p)
    (archives : List (String × Path)) :
    (Plan.final c g archives).link c.layout = linkOf c.layout p.importPath := by
  have harchives : (Plan.final c g archives).linkArchives = [c.layout.archive p.importPath] :=
    Plan.linkArchives_buildOrder hroot
  rw [Plan.link, Plan.final_path, harchives]
  rfl

theorem Plan.answers_linked (plan : Plan) (layout : Layout) :
    Telling.Answers (plan.linked layout) (.ok (plan.withInvocations [plan.link layout])) :=
  Telling.Answers.tell_bind (Telling.answers_pure _)

/-- **The commands of a graph.** Once the build directory can be written to, generation fails
with the first package in the build order that has to be built and has no Go files. If there
is none, it fails if the archives of the standard library are asked for and cannot be
listed. In all other cases the commands are the blocks of the packages that have no archive,
in the build order, and the link of the root; what each block does is told by
`Block.Builds`. -/
theorem generate_inBuildOrder (g : PackageGraph) (target : Target) (buildDir : Path)
    (s : Session) (t₁ t₂ : FileTree) (hsize : 0 < g.size)
    (hdirs : s.tree.makeDirectories buildDir = .ok t₁)
    (hwrite : t₁.write (Layout.importcfg ⟨buildDir⟩) (.text "") = .ok t₂) :
    (∀ p, g.inBuildOrder.find? Package.lacksSources = some p →
      ((generate g buildDir target).outcome s).1 = .error (.noCompilableSources p.importPath)) ∧
    (g.inBuildOrder.find? Package.lacksSources = none → ∀ fault, g.precompiled = true →
      t₂.archivesIn target.archiveDir = .error fault →
      ((generate g buildDir target).outcome s).1 = .error (.refused target.archiveDir fault)) ∧
    (g.inBuildOrder.find? Package.lacksSources = none →
      (g.precompiled = true → ∃ archives, t₂.archivesIn target.archiveDir = .ok archives) →
      ∃ plan linked root, ((generate g buildDir target).outcome s).1 = .ok plan ∧
        (plan.linked ⟨buildDir⟩).outcome.1 = .ok linked ∧
        g.package? PackageGraph.root = some root ∧
        linked.invocations =
          (g.inBuildOrder.filter (fun p => !p.isCached)).flatMap
            (Block.ofPackage ⟨⟨buildDir⟩, target⟩) ++ [linkOf ⟨buildDir⟩ root.importPath]) ∧
    ∀ p, Block.Builds ⟨⟨buildDir⟩, target⟩ p (Block.ofPackage ⟨⟨buildDir⟩, target⟩ p) := by
  have hgenerate := outcome_generate g target hdirs hwrite
  refine ⟨?_, ?_, ?_, fun p => Block.builds_ofPackage _ p⟩
  · intro p hp
    rw [hgenerate, hp]
  · intro hnone fault hprecompiled hfault
    rw [hgenerate, hnone]
    simp only [standardArchives, hprecompiled, if_true, hfault]
  · intro hnone harchives
    obtain ⟨archives, hok⟩ : ∃ archives, standardArchives g t₂ target = .ok archives := by
      rw [standardArchives]
      by_cases h : g.precompiled = true
      · simpa [h] using harchives h
      · exact ⟨[], by simp [h]⟩
    obtain ⟨root, hroot⟩ := exists_package (show PackageGraph.root < g.size from hsize)
    refine ⟨Plan.final ⟨⟨buildDir⟩, target⟩ g archives, _, root, ?_,
      (Plan.answers_linked _ _).outcome, hroot, ?_⟩
    · rw [hgenerate, hnone, hok]
    · rw [Plan.withInvocations, Plan.invocations_final]
      exact congrArg (_ ++ [·]) (Plan.link_final hroot archives)

/-- A tree that holds nothing but a build directory. -/
def bareTree : FileTree :=
  { entries := [(["b"], ⟨.directory, 0⟩)] }

/-- A root package with one Go file. -/
def lonePackage : Package :=
  { directory := ⟨"/app"⟩, importPath := "main", name := "main", goFiles := ["main.go"] }

theorem makeDirectories_bareTree : bareTree.makeDirectories ⟨"/b"⟩ = .ok bareTree :=
  rfl

theorem write_bareTree : bareTree.write (Layout.importcfg ⟨⟨"/b"⟩⟩) (.text "") =
    .ok (bareTree.setContent ["b", "importcfg"] (.text "")) :=
  FileTree.write_of_new ["b"] "importcfg" _ rfl rfl rfl rfl (by decide) rfl

theorem inBuildOrder_lone (precompiled : Bool) :
    PackageGraph.inBuildOrder ⟨[lonePackage], precompiled⟩ = [lonePackage] := by
  cbv

/-- The commands of a lone root package. -/
theorem generate_inBuildOrder_lone :
    ∃ plan linked, ((generate ⟨[lonePackage], false⟩ ⟨"/b"⟩ {}).outcome ⟨bareTree, []⟩).1 =
        .ok plan ∧
      (plan.linked ⟨⟨"/b"⟩⟩).outcome.1 = .ok linked ∧
      linked.invocations.map (·.tool) = [.compile, .link] := by
  obtain ⟨-, -, hcommands, -⟩ := generate_inBuildOrder ⟨[lonePackage], false⟩ {} ⟨"/b"⟩
    ⟨bareTree, []⟩ bareTree _ (by decide) makeDirectories_bareTree write_bareTree
  rw [inBuildOrder_lone] at hcommands
  obtain ⟨plan, linked, root, hplan, hlinked, -, hinvocations⟩ := hcommands rfl (by simp)
  exact ⟨plan, linked, hplan, hlinked, by rw [hinvocations]; rfl⟩

/-- **Without the archives** that a graph asks for there is no plan, even when every package
can be built and the build directory can be written to. -/
theorem generate_without_archives :
    ∃ (g : PackageGraph) (t₂ : FileTree) (fault : Fault), 0 < g.size ∧
      bareTree.makeDirectories ⟨"/b"⟩ = .ok bareTree ∧
      bareTree.write (Layout.importcfg ⟨⟨"/b"⟩⟩) (.text "") = .ok t₂ ∧
      g.inBuildOrder.find? Package.lacksSources = none ∧
      ((generate g ⟨"/b"⟩ {}).outcome ⟨bareTree, []⟩).1 =
        .error (.refused ⟨"/usr/local/go/pkg/linux_amd64"⟩ fault) := by
  obtain ⟨fault, hfault⟩ : ∃ fault,
      (bareTree.setContent ["b", "importcfg"] (.text "")).archivesIn ({} : Target).archiveDir =
        .error fault :=
    ⟨_, rfl⟩
  refine ⟨⟨[lonePackage], true⟩, _, fault, by decide, makeDirectories_bareTree, write_bareTree,
    by rw [inBuildOrder_lone]; rfl, ?_⟩
  rw [outcome_generate (s := ⟨bareTree, []⟩) _ _ makeDirectories_bareTree write_bareTree,
    inBuildOrder_lone]
  simp only [standardArchives, if_true, hfault]
  rfl

end GoPlanner

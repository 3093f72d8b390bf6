import GoPlanner.Proofs.Build.Planned
import GoPlanner.Proofs.FileTree.Directories

/-!
# What Planning Leaves Behind

Planning gives notices and prints nothing else, whether it succeeds or not, and what it does
depends on the files alone. Until the package graph is there no file is changed. After that the
build directory is made with its missing ancestors, and the import configuration is emptied
before a command is generated; this is all that a generation that fails has changed.

## Main definitions

* `Acting.Quiet`: computations that give notices only.
* `FileTree.Prepares`: the files behind a generation that fails.

## Main results

* `quiet_planBuild`: planning gives notices only.
* `prepares_generate`: what a generation that fails has changed.
* `FileTree.Prepares.of_resolve`: files stay as they are, unless the path of the import
  configuration leads to them.
-/

namespace GoPlanner

open Acting PackageGraph

variable {input buildDir base : Path} {target : Target} {g : PackageGraph} {α β : Type}

/-! ### Computations that give notices only -/

namespace Acting

/-- **A quiet computation** gives notices only, and what it does depends on the files alone. -/
def Quiet (x : Acting α) : Prop :=
  ∃ f : FileTree → Except BuildError α × FileTree × List Notice, ∀ s,
    x.outcome s = ((f s.tree).1, ⟨(f s.tree).2.1, s.output ++ (f s.tree).2.2.map .notice⟩)

theorem quiet_pure (a : α) : Quiet (pure a : Acting α) :=
  ⟨fun t => (.ok a, t, []), fun s => by simp⟩

theorem quiet_throw (e : BuildError) : Quiet (throw e : Acting α) :=
  ⟨fun t => (.error e, t, []), fun s => by simp⟩

theorem quiet_tell (n : Notice) : Quiet (tell n) :=
  ⟨fun t => (.ok (), t, [n]), fun _ => rfl⟩

theorem quiet_files : Quiet files :=
  ⟨fun t => (.ok t, t, []), fun s => by simp⟩

theorem quiet_saying (c : Telling α) : Quiet (saying c) :=
  ⟨fun t => (c.outcome.1, t, c.outcome.2), fun s => by rw [outcome_saying]⟩

theorem quiet_changeFiles (p : Path) (change : FileTree → Except Fault FileTree) :
    Quiet (changeFiles p change) := by
  refine ⟨fun t => (((change t).map fun _ => ()).mapError (.refused p ·),
    (change t).toOption.getD t, []), fun s => ?_⟩
  rw [outcome_changeFiles]
  cases hchange : change s.tree with
  | error fault => simp [hchange, Except.map, Except.mapError, Except.toOption]
  | ok t => simp [hchange, Except.map, Except.mapError, Except.toOption]

theorem quiet_makeDirectories (p : Path) : Quiet (makeDirectories p) := by
  refine ⟨fun t => (((t.makeBelow p p.ancestors).map fun _ => ()).mapError (.refused p ·.1),
    t.afterDirectories p, []), fun s => ?_⟩
  rw [outcome_makeDirectories]
  cases hmade : s.tree.makeBelow p p.ancestors with
  | error e => simp [hmade, FileTree.afterDirectories, FileTree.behind, Except.map, Except.mapError]
  | ok t => simp [hmade, FileTree.afterDirectories, FileTree.behind, Except.map, Except.mapError]

theorem Quiet.bind {x : Acting α} {f : α → Acting β} (hx : Quiet x) (hf : ∀ a, Quiet (f a)) :
    Quiet (x >>= f) := by
  obtain ⟨fx, hx⟩ := hx
  choose ff hff using hf
  refine ⟨fun t => match fx t with
    | (.ok a, t', notices) => ((ff a t').1, (ff a t').2.1, notices ++ (ff a t').2.2)
    | (.error e, t', notices) => (.error e, t', notices), fun s => ?_⟩
  rw [outcome_bind, hx]
  rcases hresult : fx s.tree with ⟨_ | a, t', notices⟩
  · simp [hresult]
  · simp [hresult, hff]

/-- Notices are not shown on the standard output. -/
theorem stdout_notices (s : Session) (notices : List Notice) :
    Session.stdout { s with output := s.output ++ notices.map .notice } = s.stdout := by
  have hsilent : String.join ((notices.map Output.notice).map Output.onStdout) = "" := by
    induction notices with
    | nil => rfl
    | cons n notices ih => simpa [Output.onStdout] using ih
  rw [Session.stdout, List.map_append, String.join_append, hsilent, String.append_empty]
  rfl

/-- **A quiet computation** prints nothing on the standard output. -/
theorem Quiet.stdout_eq {x : Acting α} (hx : Quiet x) (s : Session) :
    (x.outcome s).2.stdout = s.stdout := by
  obtain ⟨f, hf⟩ := hx
  rw [hf]
  exact stdout_notices { s with tree := (f s.tree).2.1 } (f s.tree).2.2

/-- A quiet computation ends in the same way whatever was printed before. -/
theorem Quiet.congr {x : Acting α} (hx : Quiet x) {s s' : Session} (h : s.tree = s'.tree) :
    (x.outcome s).1 = (x.outcome s').1 ∧ (x.outcome s).2.tree = (x.outcome s').2.tree := by
  obtain ⟨f, hf⟩ := hx
  rw [hf, hf, h]
  exact ⟨rfl, rfl⟩

end Acting

/-! ### Planning is quiet -/

theorem quiet_absolutePath (p : Path) : Quiet (absolutePath p) := by
  rw [absolutePath]
  split
  · exact quiet_pure p
  · refine quiet_files.bind fun t => ?_
    cases t.workingDirectory with
    | ok here => exact quiet_pure _
    | error fault => exact quiet_throw _

theorem quiet_generate (g : PackageGraph) (buildDir : Path) (target : Target) :
    Quiet (generate g buildDir target) := by
  have hflush (cfg : ImportConfig) : Quiet (flush cfg) := quiet_changeFiles _ _
  rw [generate]
  refine (quiet_makeDirectories _).bind fun _ => (hflush _).bind fun _ => ?_
  refine (quiet_saying _).bind fun plan => ?_
  dsimp only
  split
  · refine quiet_files.bind fun t => (quiet_saying _).bind fun _ => ?_
    exact (hflush _).bind fun _ => quiet_pure _
  · exact (hflush _).bind fun _ => quiet_pure _

/-- **Planning gives notices only.** -/
theorem quiet_planBuild (input buildDir : Path) (target : Target) :
    Quiet (planBuild input buildDir target) := by
  rw [planBuild]
  refine (quiet_absolutePath _).bind fun base => (quiet_tell _).bind fun _ => ?_
  refine quiet_files.bind fun t => (quiet_saying _).bind fun g => ?_
  refine (quiet_tell _).bind fun _ => (quiet_tell _).bind fun _ => ?_
  refine (quiet_generate _ _ _).bind fun plan => (quiet_saying _).bind fun plan => ?_
  exact quiet_pure _

/-! ### The files behind a generation that fails -/

/-- **The files behind a generation that fails:** the build directory may have been made, with
its missing ancestors, and the import configuration may have been emptied. It is the file that
its path leads to, which is another one if a link stands there. -/
structure FileTree.Prepares (base : Path) (t t' : FileTree) : Prop where
  /-- The working directory is the same. -/
  cwd : t'.cwd = t.cwd
  /-- The time is the same. -/
  clock : t'.clock = t.clock
  /-- A place is as it was, or there is a directory where nothing was, or it is where the import
  configuration stands. -/
  entry : ∀ place, t'.entry? place = t.entry? place ∨
    (place ≠ [] ∧ t.entry? place = none ∧ t'.entry? place = some ⟨.directory, t.clock⟩ ∧
      ∃ p ∈ base :: base.ancestors, t'.resolve p = .ok place) ∨
    (t'.resolveWrite (Layout.importcfg ⟨base⟩) = .ok place ∧
      (∀ node, t.node? place = some node → node.isFile = true) ∧
      ∃ x, t'.entry? place = some ⟨.file (.text "") x, t.clock⟩)

namespace FileTree

variable {t t' t₁ : FileTree} {place : Place} {p : Path}

/-- **A write goes to a file,** or to a place where nothing is. -/
theorem isFile_of_resolveWrite {t : FileTree} (h : t.resolveWrite p = .ok place) (node : Node)
    (hnode : t.node? place = some node) : node.isFile = true := by
  rw [resolveWrite] at h
  split at h
  · cases h
  · exact (writePlace_setContent (c := .text "") h).2.1 node hnode

theorem prepares_of_addsDirectories (h : AddsDirectories (base :: base.ancestors) t t') :
    Prepares base t t' where
  cwd := h.cwd
  clock := h.clock
  entry place := (h.entry place).imp_right Or.inl

/-- The build directory has been made, and the import configuration has been emptied. -/
theorem prepares_of_write (h : AddsDirectories (base :: base.ancestors) t t₁)
    (hwrite : t₁.write (Layout.importcfg ⟨base⟩) (.text "") = .ok t') : Prepares base t t' := by
  have hretains := retains_write hwrite
  obtain ⟨written, hroot, hplace, rfl, hagain⟩ := write_ok hwrite
  refine ⟨h.cwd, h.clock, fun place => ?_⟩
  rw [setContent, entry?_put]
  by_cases hwritten : place = written
  · subst hwritten
    refine Or.inr (Or.inr ⟨hagain, fun node hnode => ?_, t₁.isExecutableAt place, ?_⟩)
    · exact isFile_of_resolveWrite hplace node (h.node?_eq hnode)
    · rw [if_pos rfl, h.clock]
  · rw [if_neg hwritten]
    refine (h.entry place).imp_right fun hnew => Or.inl ?_
    obtain ⟨hplace, hnone, hentry, p, hp, hresolve⟩ := hnew
    exact ⟨hplace, hnone, hentry, p, hp, hretains.resolve_eq hresolve⟩

end FileTree

/-- **A generation that fails** does so because the build directory cannot be made, or the import
configuration cannot be written, or after it has been emptied. -/
theorem generate_error {s s' : Session} {e : BuildError}
    (h : (generate g buildDir target).outcome s = (.error e, s')) :
    (∃ fault, s.tree.makeBelow buildDir buildDir.ancestors = .error (fault, s'.tree)) ∨
      ∃ t₁, s.tree.makeDirectories buildDir = .ok t₁ ∧
        ((s'.tree = t₁ ∧ ∃ fault,
            t₁.write (Layout.importcfg ⟨buildDir⟩) (.text "") = .error fault) ∨
          t₁.write (Layout.importcfg ⟨buildDir⟩) (.text "") = .ok s'.tree) := by
  rw [generate] at h
  rcases outcome_bind_error h with h | ⟨_, s₁, hdirs, h⟩
  · exact Or.inl (outcome_makeDirectories_error h)
  replace hdirs := FileTree.makeDirectories_eq_ok.2 (outcome_makeDirectories_ok hdirs)
  refine Or.inr ⟨s₁.tree, hdirs, ?_⟩
  rcases outcome_bind_error h with h | ⟨_, s₂, hwrite, h⟩
  · obtain ⟨rfl, hfault⟩ := outcome_changeFiles_error h
    exact Or.inl ⟨rfl, hfault⟩
  -- From here on the files stay as they are.
  replace hwrite := outcome_flush_ok hwrite
  suffices htree : s'.tree = s₂.tree by
    rw [htree]
    exact Or.inr hwrite
  rcases outcome_bind_error h with h | ⟨plan, s₃, hplan, h⟩
  · exact tree_of_saying h
  have hlast {cfg : ImportConfig} {s : Session}
      (h : (do flush cfg; pure { plan with importcfg := cfg } : Acting Plan).outcome s =
        (.error e, s')) : s'.tree = s.tree := by
    rcases outcome_bind_error h with h | ⟨_, s₁, -, h⟩
    · rw [(outcome_changeFiles_error h).1]
    · cases congrArg Prod.fst h
  dsimp only at h
  split at h
  · rw [outcome_bind_of_ok (outcome_files _)] at h
    rcases outcome_bind_error h with h | ⟨registered, s₄, hregistered, h⟩
    · exact (tree_of_saying h).trans (tree_of_saying hplan)
    · exact (hlast h).trans ((tree_of_saying hregistered).trans (tree_of_saying hplan))
  · exact (hlast h).trans (tree_of_saying hplan)

/-- **What a generation that fails has changed.** -/
theorem prepares_generate {s s' : Session} {e : BuildError}
    (h : (generate g buildDir target).outcome s = (.error e, s')) :
    FileTree.Prepares buildDir s.tree s'.tree := by
  have hadds := FileTree.addsDirectories_afterDirectories s.tree buildDir
  rcases generate_error h with ⟨fault, hmade⟩ | ⟨t₁, hdirs, hwrite⟩
  · rw [FileTree.afterDirectories, hmade] at hadds
    exact FileTree.prepares_of_addsDirectories hadds
  · rw [FileTree.afterDirectories_of_ok hdirs] at hadds
    rcases hwrite with ⟨htree, -⟩ | hwrite
    · rw [htree]
      exact FileTree.prepares_of_addsDirectories hadds
    · exact FileTree.prepares_of_write hadds hwrite

namespace FileTree.Prepares

variable {t t' : FileTree} {place : Place} {p : Path}

/-- What was there is still there, unless it is the file that was emptied. -/
theorem entry?_eq (h : Prepares base t t') (hthere : (t.node? place).isSome = true)
    (hother : t'.resolveWrite (Layout.importcfg ⟨base⟩) ≠ .ok place) :
    t'.entry? place = t.entry? place := by
  rcases h.entry place with hsame | ⟨hroot, hnone, -⟩ | ⟨hplace, -⟩
  · exact hsame
  · simp [node?, hroot, hnone] at hthere
  · exact absurd hplace hother

theorem retains (h : Prepares base t t') : Retains t t' where
  cwd := h.cwd
  node := by
    intro place node hnode
    by_cases hroot : place = []
    · exact Or.inl (by simpa [node?, hroot] using hnode)
    rcases h.entry place with hsame | ⟨-, hnone, -⟩ | ⟨-, hfile, x, hentry⟩
    · exact Or.inl (by rw [← hnode, node?, node?, hsame])
    · simp [node?, hroot, hnone] at hnode
    · exact Or.inr ⟨hfile node hnode, .file (.text "") x, by simp [node?, hroot, hentry], rfl⟩

/-- **A path that led to something** still leads to it, and it is as it was, unless it is the
file that was emptied. -/
theorem of_resolve (h : Prepares base t t') (hresolve : t.resolve p = .ok place) :
    t'.resolve p = .ok place ∧ (t'.resolveWrite (Layout.importcfg ⟨base⟩) ≠ .ok place →
      t'.entry? place = t.entry? place) :=
  ⟨h.retains.resolve_eq hresolve, h.entry?_eq (isSome_of_resolve hresolve)⟩

end FileTree.Prepares

/-! ### Where planning can fail -/

/-- Making a path absolute leaves the session as it is. -/
theorem outcome_absolutePath_eq (p : Path) (s : Session) :
    (absolutePath p).outcome s = (((absolutePath p).outcome s).1, s) := by
  rw [absolutePath]
  split
  · rfl
  · rw [outcome_bind_of_ok (outcome_files s)]
    cases s.tree.workingDirectory <;> rfl

section Stages

variable {s : Session} {e : BuildError}

theorem planBuild_of_absolutePath_error (h : ((absolutePath buildDir).outcome s).1 = .error e) :
    (planBuild input buildDir target).outcome s = (.error e, s) := by
  have habsolute := outcome_absolutePath_eq buildDir s
  rw [h] at habsolute
  rw [planBuild, outcome_bind_of_error _ habsolute]

/-- **Without a graph** no file is changed. -/
theorem planBuild_of_discover_error (hbase : ((absolutePath buildDir).outcome s).1 = .ok base)
    (h : (discover s.tree input base target).outcome.1 = .error e) :
    ∃ s', (planBuild input buildDir target).outcome s = (.error e, s') ∧ s'.tree = s.tree := by
  have habsolute := outcome_absolutePath_eq buildDir s
  rw [hbase] at habsolute
  rw [planBuild, outcome_bind_of_ok habsolute, outcome_bind_of_ok (outcome_tell _ _),
    outcome_bind_of_ok (outcome_files _), outcome_bind, outcome_saying, h]
  exact ⟨_, rfl, rfl⟩

/-- **With a graph** planning ends as generation does, which starts with the same files. -/
theorem planBuild_of_discover_ok (hbase : ((absolutePath buildDir).outcome s).1 = .ok base)
    (h : (discover s.tree input base target).outcome.1 = .ok g) :
    ∃ s₀, s₀.tree = s.tree ∧ (planBuild input buildDir target).outcome s =
      (do
        let plan ← generate g base target
        let plan ← saying (plan.linked ⟨base⟩)
        pure ⟨g, plan, ⟨base⟩⟩ : Acting Build).outcome s₀ := by
  have habsolute := outcome_absolutePath_eq buildDir s
  rw [hbase] at habsolute
  rw [planBuild, outcome_bind_of_ok habsolute, outcome_bind_of_ok (outcome_tell _ _),
    outcome_bind_of_ok (outcome_files _), outcome_bind, outcome_saying, h]
  dsimp only
  rw [outcome_bind_of_ok (outcome_tell _ _), outcome_bind_of_ok (outcome_tell _ _)]
  refine ⟨_, ?_, rfl⟩
  rfl

/-- **Planning fails** if generation does, and leaves the same files. -/
theorem planBuild_of_generate_error (hbase : ((absolutePath buildDir).outcome s).1 = .ok base)
    (hgraph : (discover s.tree input base target).outcome.1 = .ok g)
    (h : ((generate g base target).outcome s).1 = .error e) :
    ∃ s', (planBuild input buildDir target).outcome s = (.error e, s') ∧
      s'.tree = ((generate g base target).outcome s).2.tree := by
  obtain ⟨s₀, htree, hplan⟩ := planBuild_of_discover_ok hbase hgraph
  obtain ⟨hresult, hfiles⟩ := (quiet_generate g base target).congr htree
  cases hgenerate : (generate g base target).outcome s₀ with
  | mk r s' =>
      rw [hgenerate, h] at hresult
      rw [hgenerate] at hfiles
      obtain rfl : r = .error e := hresult
      rw [outcome_bind_of_error _ hgenerate] at hplan
      exact ⟨s', hplan, hfiles⟩

theorem planBuild_of_generate_ok {plan : Plan}
    (hbase : ((absolutePath buildDir).outcome s).1 = .ok base)
    (hgraph : (discover s.tree input base target).outcome.1 = .ok g)
    (h : ((generate g base target).outcome s).1 = .ok plan) :
    ∃ b s', (planBuild input buildDir target).outcome s = (.ok b, s') ∧ b.graph = g ∧
      b.layout = ⟨base⟩ := by
  obtain ⟨s₀, htree, hplan⟩ := planBuild_of_discover_ok hbase hgraph
  rw [((quiet_generate g base target).congr htree.symm).1] at h
  cases hgenerate : (generate g base target).outcome s₀ with
  | mk r s' =>
      rw [hgenerate] at h
      obtain rfl : r = .ok plan := h
      rw [outcome_bind_of_ok hgenerate, outcome_bind, outcome_saying,
        (Plan.answers_linked _ _).outcome] at hplan
      dsimp only at hplan
      rw [outcome_pure] at hplan
      exact ⟨_, _, hplan, rfl, rfl⟩

end Stages

end GoPlanner

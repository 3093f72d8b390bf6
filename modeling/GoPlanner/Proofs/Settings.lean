import GoPlanner.Project.Settings
import GoPlanner.Proofs.FileTree.Absolute

/-!
# Settings in Effect

Every setting is taken from the highest layer that has a value for it: the command line, the project
file, the process environment. The relative paths of a layer are read from the directory of the
layer. The checks look at the settings in effect only, so a value that is hidden by a higher layer
matters neither for the settings nor for an error.

## Main definitions

* `Layered`: a value that is taken from the highest of three layers.
* `Settings.AreInEffect`: the settings that the layers make.
* `Settings.Fails`: the error that settings are refused with.
* `Settings.SeenAlike`: lower layers that differ in hidden values at most.

## Main results

* `Settings.AreInEffect.unique`, `Settings.areInEffect_made`: there are such settings, and no
  others.
* `Settings.resolve_layered`: the layers put together.
-/

namespace GoPlanner

/-- **A value is layered** when it is that of the highest layer which has one: the command line,
the project file, or else the one below them. -/
inductive Layered {α : Type} (commandLine file : Option α) (base : α) : α → Prop
  /-- The command line has a value. -/
  | commandLine {value : α} (h : commandLine = some value) : Layered commandLine file base value
  /-- The project file has a value, and the command line has none. -/
  | file {value : α} (hcommandLine : commandLine = none) (h : file = some value) :
      Layered commandLine file base value
  /-- Neither has a value. -/
  | base (hcommandLine : commandLine = none) (hfile : file = none) :
      Layered commandLine file base base

/-- **Lower layers look alike** when the values differ that are hidden by higher layers at most. -/
def LooksAlike {α β γ : Type} (commandLine : Option α) (file file' : Option β) (base base' : γ) :
    Prop :=
  commandLine = none → file = file' ∧ (file = none → base = base')

section Layers

variable {α β γ : Type} {commandLine : Option α} {file file' : Option β} {base base' value : γ}

theorem layered_iff {commandLine file : Option γ} :
    Layered commandLine file base value ↔ value = (commandLine.or file).getD base := by
  constructor
  · intro h
    cases h with
    | commandLine h => simp [h]
    | file hcommandLine h => simp [hcommandLine, h]
    | base hcommandLine hfile => simp [hcommandLine, hfile]
  · rintro rfl
    cases hcommandLine : commandLine with
    | some value => exact .commandLine rfl
    | none =>
        cases hfile : file with
        | some value => exact .file rfl rfl
        | none => exact .base rfl rfl

/-- There is one value in effect. -/
theorem Layered.unique {commandLine file : Option γ} {value' : γ}
    (h : Layered commandLine file base value) (h' : Layered commandLine file base value') :
    value = value' :=
  (layered_iff.1 h).trans (layered_iff.1 h').symm

/-- **Hidden values do not matter,** however the values of the layers are read. -/
theorem LooksAlike.layered {f : α → γ} {g : β → γ}
    (h : LooksAlike commandLine file file' base base')
    (hvalue : Layered (commandLine.map f) (file.map g) base value) :
    Layered (commandLine.map f) (file'.map g) base' value := by
  cases hvalue with
  | commandLine h => exact .commandLine h
  | file hcommandLine hfile =>
      rw [(h (Option.map_eq_none_iff.1 hcommandLine)).1] at hfile
      exact .file hcommandLine hfile
  | base hcommandLine hfile =>
      obtain ⟨hsame, hbase⟩ := h (Option.map_eq_none_iff.1 hcommandLine)
      rw [hbase (Option.map_eq_none_iff.1 hfile)]
      rw [hsame] at hfile
      exact .base hcommandLine hfile

/-- Hidden values do not matter where the values of all layers are read as they are. -/
theorem LooksAlike.layered_same {commandLine file file' : Option γ}
    (h : LooksAlike commandLine file file' base base')
    (hvalue : Layered commandLine file base value) : Layered commandLine file' base' value := by
  simpa using h.layered (f := id) (g := id) (by simpa using hvalue)

end Layers

namespace Settings

/-! ### The settings that the layers make -/

/-- The settings of the project file. Without a project it says nothing. -/
def fileOf (project : Option Project) : ProjectFile :=
  (project.map (·.file)).getD {}

/-- The directory that paths of the project file are read from. -/
def directoryOf (project : Option Project) (cwd : Path) : Path :=
  (project.map (fun p => cwd.join p.root)).getD cwd

/-- A list that says something. -/
def listed (items : List String) : Option (List String) :=
  if items = [] then none else some items

/-- **Settings are in effect** when each of them is taken from the highest layer that has it, with
the paths read from the directory of that layer. The tags of the lowest layer are never taken. -/
structure AreInEffect (overrides : Overrides) (project : Option Project) (base : Target)
    (cwd input : Path) (s : Settings) : Prop where
  /-- The input. -/
  input : s.input = cwd.join input
  /-- The build directory. -/
  buildDir : Layered (overrides.buildDir.map cwd.join) none
    ((directoryOf project cwd).join ⟨(fileOf project).outDir⟩) s.buildDir
  /-- The operating system. -/
  goos : Layered overrides.goos (fileOf project).goos base.goos s.target.goos
  /-- The architecture. -/
  goarch : Layered overrides.goarch (fileOf project).goarch base.goarch s.target.goarch
  /-- The directory of the Go distribution. -/
  goroot : Layered (overrides.goroot.map cwd.join)
    ((fileOf project).goroot.map fun path => (directoryOf project cwd).join ⟨path⟩) base.goroot
    s.target.goroot
  /-- The search path. -/
  searchPath : Layered (overrides.gopath.map fun paths => paths.map cwd.join)
    ((listed (fileOf project).gopath).map fun paths =>
      paths.map fun path => (directoryOf project cwd).join ⟨path⟩) base.searchPath
    s.target.searchPath
  /-- The tags, trimmed and without empty ones. -/
  tags : ∃ written, Layered overrides.tags none (fileOf project).tags written ∧
    s.target.tags = (written.map trimmed).filter (· ≠ "")
  /-- Whether the tag `cgo` holds. -/
  cgoEnabled : Layered overrides.cgo (fileOf project).cgo base.cgoEnabled s.target.cgoEnabled
  /-- The last release tag. -/
  goMinor : Layered overrides.goMinor (fileOf project).goMinor base.goMinor s.target.goMinor

/-- **Settings are refused** with the first of four errors that they give cause for. -/
inductive Fails (t : FileTree) (s : Settings) : ProjectError → Prop
  /-- The input is not there. -/
  | input (h : t.isPresent s.input = false) : Fails t s (.inputNotFound s.input)
  /-- The operating system is not known. -/
  | system (hinput : t.isPresent s.input = true) (h : s.target.goos ∉ knownSystems) :
      Fails t s (.unknownSystem s.target.goos)
  /-- The architecture is not known. -/
  | architecture (hinput : t.isPresent s.input = true) (hsystem : s.target.goos ∈ knownSystems)
      (h : s.target.goarch ∉ knownArchitectures) : Fails t s (.unknownArchitecture s.target.goarch)
  /-- The Go distribution is not there. -/
  | goroot (hinput : t.isPresent s.input = true) (hsystem : s.target.goos ∈ knownSystems)
      (harchitecture : s.target.goarch ∈ knownArchitectures)
      (h : t.isDirectory s.target.goroot = false) : Fails t s (.gorootNotFound s.target.goroot)

/-- **Settings pass** when all that they name is there and known. -/
structure Pass (t : FileTree) (s : Settings) : Prop where
  /-- The input is there. -/
  input : t.isPresent s.input = true
  /-- The operating system is known. -/
  system : s.target.goos ∈ knownSystems
  /-- The architecture is known. -/
  architecture : s.target.goarch ∈ knownArchitectures
  /-- The Go distribution is there. -/
  goroot : t.isDirectory s.target.goroot = true

/-- **Two projects and two environments are seen alike** under a command line when they differ in
values that are hidden by a higher layer at most. The tags of the environment are always hidden. -/
structure SeenAlike (overrides : Overrides) (project project' : Option Project)
    (base base' : Target) : Prop where
  /-- The directory of the project. -/
  root : project.map (·.root) = project'.map (·.root)
  /-- The build directory. -/
  outDir : overrides.buildDir = none → (fileOf project).outDir = (fileOf project').outDir
  /-- The tags. -/
  tags : overrides.tags = none → (fileOf project).tags = (fileOf project').tags
  /-- The operating system. -/
  goos : LooksAlike overrides.goos (fileOf project).goos (fileOf project').goos base.goos base'.goos
  /-- The architecture. -/
  goarch : LooksAlike overrides.goarch (fileOf project).goarch (fileOf project').goarch base.goarch
    base'.goarch
  /-- The directory of the Go distribution. -/
  goroot : LooksAlike overrides.goroot (fileOf project).goroot (fileOf project').goroot base.goroot
    base'.goroot
  /-- The search path. -/
  gopath : LooksAlike overrides.gopath (listed (fileOf project).gopath)
    (listed (fileOf project').gopath) base.searchPath base'.searchPath
  /-- Whether the tag `cgo` holds. -/
  cgo : LooksAlike overrides.cgo (fileOf project).cgo (fileOf project').cgo base.cgoEnabled
    base'.cgoEnabled
  /-- The last release tag. -/
  goMinor : LooksAlike overrides.goMinor (fileOf project).goMinor (fileOf project').goMinor
    base.goMinor base'.goMinor

variable {t : FileTree} {overrides : Overrides} {project project' : Option Project}
  {base base' : Target} {cwd input : Path} {s s' : Settings} {e : ProjectError}

theorem file_layersOf : (layersOf overrides project cwd).file = fileOf project := by
  cases project <;> rfl

theorem root_layersOf : (layersOf overrides project cwd).root = directoryOf project cwd := by
  cases project <;> rfl

theorem cwd_layersOf : (layersOf overrides project cwd).cwd = cwd := by
  cases project <;> rfl

theorem overrides_layersOf : (layersOf overrides project cwd).overrides = overrides := by
  cases project <;> rfl

theorem isAbsolute_root_layersOf (hcwd : cwd.isAbsolute = true) :
    (layersOf overrides project cwd).root.isAbsolute = true := by
  cases project with
  | none => exact hcwd
  | some p => exact Path.isAbsolute_join_of_left hcwd

/-- **The build directory** is absolute. -/
theorem isAbsolute_buildDir (hcwd : cwd.isAbsolute = true) :
    (layersOf overrides project cwd).buildDir.isAbsolute = true := by
  rw [Layers.buildDir]
  split
  · rw [cwd_layersOf]
    exact Path.isAbsolute_join_of_left hcwd
  · exact Path.isAbsolute_join_of_left (isAbsolute_root_layersOf hcwd)

/-- The settings that the layers make. -/
def made (overrides : Overrides) (project : Option Project) (base : Target) (cwd input : Path) :
    Settings :=
  ⟨cwd.join input, (layersOf overrides project cwd).buildDir,
    (layersOf overrides project cwd).target base⟩

/-- **The layers make settings** that are in effect. -/
theorem areInEffect_made (overrides : Overrides) (project : Option Project) (base : Target)
    (cwd input : Path) :
    AreInEffect overrides project base cwd input (made overrides project base cwd input) where
  input := rfl
  buildDir := by
    rw [layered_iff, made, Layers.buildDir, cwd_layersOf, root_layersOf, file_layersOf,
      overrides_layersOf]
    cases overrides.buildDir <;> rfl
  goos := by
    rw [layered_iff, made, Layers.target, Layers.goos, file_layersOf, overrides_layersOf]
  goarch := by
    rw [layered_iff, made, Layers.target, Layers.goarch, file_layersOf, overrides_layersOf]
  goroot := by
    rw [layered_iff, made, Layers.target, Layers.goroot, cwd_layersOf, root_layersOf,
      file_layersOf, overrides_layersOf]
    cases overrides.goroot <;> cases (fileOf project).goroot <;> rfl
  searchPath := by
    rw [layered_iff, made, Layers.target, Layers.searchPath, cwd_layersOf, root_layersOf,
      file_layersOf, overrides_layersOf]
    cases overrides.gopath <;> cases (fileOf project).gopath <;> rfl
  tags := by
    refine ⟨_, layered_iff.2 rfl, ?_⟩
    rw [made, Layers.target, Layers.tags, file_layersOf, overrides_layersOf, Option.or_none]
    exact List.filter_congr fun tag _ => by rw [Bool.eq_iff_iff]; simp
  cgoEnabled := by
    rw [layered_iff, made, Layers.target, Layers.cgoEnabled, file_layersOf, overrides_layersOf]
  goMinor := by
    rw [layered_iff, made, Layers.target, Layers.goMinor, file_layersOf, overrides_layersOf]

/-- **The settings in effect** are determined by the layers. -/
theorem AreInEffect.unique (h : AreInEffect overrides project base cwd input s)
    (h' : AreInEffect overrides project base cwd input s') : s = s' := by
  have htags : s.target.tags = s'.target.tags := by
    obtain ⟨written, hwritten, htags⟩ := h.tags
    obtain ⟨written', hwritten', htags'⟩ := h'.tags
    rw [htags, htags', hwritten.unique hwritten']
  have hinput := h.input.trans h'.input.symm
  have hbuildDir := h.buildDir.unique h'.buildDir
  have hgoos := h.goos.unique h'.goos
  have hgoarch := h.goarch.unique h'.goarch
  have hgoroot := h.goroot.unique h'.goroot
  have hsearchPath := h.searchPath.unique h'.searchPath
  have hcgo := h.cgoEnabled.unique h'.cgoEnabled
  have hminor := h.goMinor.unique h'.goMinor
  obtain ⟨_, _, _, _, _, _, _, _, _⟩ := s
  obtain ⟨_, _, _, _, _, _, _, _, _⟩ := s'
  dsimp only at *
  subst_vars
  rfl

/-- **Hidden values do not matter** for the settings in effect. -/
theorem SeenAlike.areInEffect (h : SeenAlike overrides project project' base base')
    (hs : AreInEffect overrides project base cwd input s) :
    AreInEffect overrides project' base' cwd input s := by
  have hdirectory : directoryOf project cwd = directoryOf project' cwd := by
    have hroot := congrArg (Option.map cwd.join) h.root
    rw [Option.map_map, Option.map_map] at hroot
    rw [directoryOf, directoryOf]
    exact congrArg (Option.getD · cwd) hroot
  have houtDir : LooksAlike overrides.buildDir (none : Option Path) none
      ((directoryOf project cwd).join ⟨(fileOf project).outDir⟩)
      ((directoryOf project' cwd).join ⟨(fileOf project').outDir⟩) := fun hnone =>
    ⟨rfl, fun _ => by rw [hdirectory, h.outDir hnone]⟩
  have htags : LooksAlike overrides.tags (none : Option (List String)) none (fileOf project).tags
      (fileOf project').tags := fun hnone => ⟨rfl, fun _ => h.tags hnone⟩
  refine ⟨hs.input, ?_, h.goos.layered_same hs.goos, h.goarch.layered_same hs.goarch, ?_, ?_, ?_,
    h.cgo.layered_same hs.cgoEnabled, h.goMinor.layered_same hs.goMinor⟩
  · exact houtDir.layered (g := id) hs.buildDir
  · rw [← hdirectory]
    exact h.goroot.layered hs.goroot
  · rw [← hdirectory]
    exact h.gopath.layered hs.searchPath
  · obtain ⟨written, hwritten, hs⟩ := hs.tags
    exact ⟨written, htags.layered_same hwritten, hs⟩

/-! ### Checks -/

/-- Settings that pass are not refused. -/
theorem Pass.not_fails (h : s.Pass t) : ¬ s.Fails t e := by
  intro hfails
  cases hfails with
  | input hinput => exact Bool.false_ne_true (hinput.symm.trans h.input)
  | system _ hsystem => exact hsystem h.system
  | architecture _ _ harchitecture => exact harchitecture h.architecture
  | goroot _ _ _ hgoroot => exact Bool.false_ne_true (hgoroot.symm.trans h.goroot)

/-- **Settings fail in one way** at most. -/
theorem Fails.unique {e' : ProjectError} (h : s.Fails t e) (h' : s.Fails t e') : e = e' := by
  cases h <;> cases h' <;> simp_all

/-- **The layers are put together,** and the settings pass the checks or are refused. -/
theorem resolve_cases (t : FileTree) (input : Path) (project : Option Project)
    (overrides : Overrides) (base : Target) (cwd : Path) :
    (Pass t (made overrides project base cwd input) ∧
        resolve t input project overrides base cwd =
          .ok (made overrides project base cwd input)) ∨
      ∃ e, Fails t (made overrides project base cwd input) e ∧
        resolve t input project overrides base cwd = .error e := by
  rw [resolve]
  by_cases hinput : t.isPresent (cwd.join input) = true
  swap
  · rw [Bool.not_eq_true] at hinput
    exact Or.inr ⟨_, .input hinput, by simp [hinput, made]⟩
  by_cases hsystem : (made overrides project base cwd input).target.goos ∈ knownSystems
  swap
  · exact Or.inr ⟨_, .system hinput hsystem, by
      rw [made] at hsystem ⊢
      simp [hinput, hsystem]⟩
  by_cases harchitecture :
    (made overrides project base cwd input).target.goarch ∈ knownArchitectures
  swap
  · exact Or.inr ⟨_, .architecture hinput hsystem harchitecture, by
      rw [made] at hsystem harchitecture ⊢
      simp [hinput, hsystem, harchitecture]⟩
  by_cases hgoroot : t.isDirectory (made overrides project base cwd input).target.goroot = true
  swap
  · rw [Bool.not_eq_true] at hgoroot
    exact Or.inr ⟨_, .goroot hinput hsystem harchitecture hgoroot, by
      rw [made] at hsystem harchitecture hgoroot ⊢
      simp [hinput, hsystem, harchitecture, hgoroot]⟩
  · refine Or.inl ⟨⟨hinput, hsystem, harchitecture, hgoroot⟩, ?_⟩
    rw [made] at hsystem harchitecture hgoroot ⊢
    simp [hinput, hsystem, harchitecture, hgoroot]

/-- **The layers put together.** There is one choice of settings in effect. It is the result if it
passes the checks, and is refused else, with the first error that it gives cause for. The input and
the build directory are absolute, and values that are hidden by a higher layer influence neither
the result nor the error. -/
theorem resolve_layered (t : FileTree) (input : Path) (project : Option Project)
    (overrides : Overrides) (base : Target) (hcwd : cwd.isAbsolute = true) :
    ∃ s, AreInEffect overrides project base cwd input s ∧
      (∀ s', AreInEffect overrides project base cwd input s' → s' = s) ∧
      (∀ s', resolve t input project overrides base cwd = .ok s' ↔ s' = s ∧ Pass t s) ∧
      (∀ e, resolve t input project overrides base cwd = .error e ↔ Fails t s e) ∧
      s.input.isAbsolute = true ∧ s.buildDir.isAbsolute = true ∧
      ∀ project' base', SeenAlike overrides project project' base base' →
        resolve t input project' overrides base' cwd =
          resolve t input project overrides base cwd := by
  have hmade := areInEffect_made overrides project base cwd input
  refine ⟨_, hmade, fun s' hs' => hs'.unique hmade, ?_, ?_, Path.isAbsolute_join_of_left hcwd,
    isAbsolute_buildDir hcwd, ?_⟩
  · intro s'
    rcases resolve_cases t input project overrides base cwd with ⟨hpass, hok⟩ | ⟨e, hfails, herror⟩
    · rw [hok]
      simp [hpass, eq_comm]
    · rw [herror]
      exact iff_of_false (by simp) fun h => h.2.not_fails hfails
  · intro e
    rcases resolve_cases t input project overrides base cwd with ⟨hpass, hok⟩ | ⟨e', hfails, herror⟩
    · rw [hok]
      exact iff_of_false (by simp) hpass.not_fails
    · rw [herror]
      constructor
      · intro h
        obtain rfl := Except.error.inj h
        exact hfails
      · intro h
        rw [hfails.unique h]
  · intro project' base' h
    -- The other layers make the same settings, and these decide alone.
    have hsame : made overrides project' base' cwd input = made overrides project base cwd input :=
      (areInEffect_made overrides project' base' cwd input).unique (h.areInEffect hmade)
    have hboth := resolve_cases t input project' overrides base' cwd
    rw [hsame] at hboth
    rcases resolve_cases t input project overrides base cwd with ⟨hpass, hok⟩ | ⟨e, hfails, herror⟩
    · rcases hboth with ⟨-, hok'⟩ | ⟨e, hfails, -⟩
      · rw [hok, hok']
      · exact absurd hfails hpass.not_fails
    · rcases hboth with ⟨hpass, -⟩ | ⟨e', hfails', herror'⟩
      · exact absurd hfails hpass.not_fails
      · rw [herror, herror', hfails.unique hfails']

/-- A file tree with an input and a Go distribution. -/
def inputTree : FileTree where
  entries := [(["app"], ⟨.directory, 0⟩), (["go"], ⟨.directory, 0⟩)]

/-- A command line that names a system and the tags. -/
def systemOverrides : Overrides :=
  { goos := some "windows", tags := some [" a", " "] }

/-- A project file with settings that this command line hides, one of them unknown. -/
def hidingProject : Project :=
  ⟨⟨"app"⟩, { outDir := "out", tags := ["b"], goos := some "beos", goroot := some "../go" }⟩

/-- An unknown system that is hidden is no error, and the paths of the project file are read from
its directory. -/
theorem resolve_layered_hidden :
    Path.isAbsolute ⟨"/"⟩ = true ∧
      resolve inputTree ⟨"app"⟩ (some hidingProject) systemOverrides { goos := "plan10" } ⟨"/"⟩ =
        .ok ⟨⟨"/app"⟩, ⟨"/app/out"⟩,
          { goos := "windows", goroot := ⟨"/app/../go"⟩, tags := ["a"] }⟩ := by
  have hcwd : Path.isAbsolute ⟨"/"⟩ = true := by decide
  obtain ⟨s, -, hunique, hok, -⟩ := resolve_layered inputTree ⟨"app"⟩ (some hidingProject)
    systemOverrides { goos := "plan10" } hcwd
  have hmade := hunique _ (areInEffect_made systemOverrides (some hidingProject)
    { goos := "plan10" } ⟨"/"⟩ ⟨"app"⟩)
  rw [← hmade] at hok
  exact ⟨hcwd, (hok _).2 ⟨by decide +kernel,
    ⟨by decide +kernel, by decide +kernel, by decide +kernel, by decide +kernel⟩⟩⟩

end Settings

end GoPlanner

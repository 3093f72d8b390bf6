import GoPlanner.Discovery.Walk
import GoPlanner.Proofs.Graph.Growth
import GoPlanner.Proofs.Locate
import GoPlanner.Proofs.Telling

/-!
# Runs of Discovery

A run of discovery that succeeds follows the imports of one package after the other. For
one that leads to a new directory of sources there is a run of its own inside, for the
imports of the package there. What a run does to the graph depends on the import paths and
the files only, so the relation of runs has no notices and no errors.

## Main definitions

* `Discovery.goal?`: the directory of the package that an import path stands for.
* `Discovery.Passes`, `Discovery.Arrives`: imports without package, and directories of
  sources.
* `Discovery.Follows`: the runs that follow the imports of one package.
* `Discovery.IsFor`: the discovery of an input.

## Main results

* `Discovery.enters_of_ends`: what entering a directory does.
* `Discovery.finds_of_discoverAll`: the run behind a graph.
-/

namespace GoPlanner

namespace Discovery

open PackageGraph Telling

variable {c : Discovery} {way : Way} {id : PackageId} {g g' : PackageGraph} {s : String}

/-! ### Import paths -/

/-- Imports that have no package: only the compiler knows theirs, or the standard library
is there as archives. -/
def Passes (c : Discovery) (precompiled : Bool) (importPath : String) : Prop :=
  c.locator.locate c.tree importPath = some .builtin ∨
    ∃ directory, c.locator.locate c.tree importPath = some (.source directory true) ∧
      precompiled = true

/-- **An import path leads to a directory of sources** that can be entered. -/
structure Arrives (c : Discovery) (precompiled : Bool) (importPath : String) (a : Arrival) :
    Prop where
  /-- The location is a directory of sources. -/
  located : ∃ directory, c.locator.locate c.tree importPath = some (.source directory a.isInternal) ∧
    c.tree.resolve directory = .ok a.place
  /-- It is not left to the archives of the standard library. -/
  entered : (a.isInternal && precompiled) = false
  /-- The import path is noted. -/
  importPath : a.importPath = importPath
  /-- All files are read. -/
  onlyFile : a.onlyFile = none

/-- Import paths that stand for an archive of the standard library. -/
def IsArchived (c : Discovery) (importPath : String) (directory : Path) : Prop :=
  ∃ archive, c.locator.locate c.tree importPath = some (.archived directory archive)

/-- **The directory of the package** that an import path stands for. -/
def goal? (c : Discovery) (precompiled : Bool) (importPath : String) : Option Path :=
  match c.locator.locate c.tree importPath with
  | some (.archived directory _) => some directory
  | some (.source directory isInternal) =>
    if isInternal && precompiled then none else (c.tree.resolve directory).toOption.map Place.path
  | _ => none

theorem goal?_of_passes {precompiled : Bool} (h : c.Passes precompiled s) :
    c.goal? precompiled s = none := by
  rw [goal?]
  rcases h with h | ⟨directory, h, rfl⟩ <;> simp [h]

theorem goal?_of_archived {precompiled : Bool} {directory : Path} (h : c.IsArchived s directory) :
    c.goal? precompiled s = some directory := by
  obtain ⟨archive, h⟩ := h
  simp [goal?, h]

theorem goal?_of_arrives {precompiled : Bool} {a : Arrival} (h : c.Arrives precompiled s a) :
    c.goal? precompiled s = some a.directory := by
  obtain ⟨directory, hlocated, hplace⟩ := h.located
  simp [goal?, hlocated, h.entered, hplace, Except.toOption, Arrival.directory]

/-- **The import paths that stand for a directory** are those of its archive, and those that
arrive there. -/
theorem cases_of_goal? {precompiled : Bool} {directory : Path}
    (h : c.goal? precompiled s = some directory) :
    c.IsArchived s directory ∨ ∃ a, c.Arrives precompiled s a ∧ a.directory = directory := by
  rw [goal?] at h
  split at h
  · rename_i other archive hlocated
    obtain rfl := Option.some.inj h
    exact Or.inl ⟨archive, hlocated⟩
  · rename_i other isInternal hlocated
    split at h
    · cases h
    · rename_i hentered
      obtain ⟨place, hplace, rfl⟩ := Option.map_eq_some_iff.1 h
      refine Or.inr ⟨⟨place, s, isInternal, none⟩, ⟨⟨other, hlocated, ok_of_toOption hplace⟩, ?_,
        rfl, rfl⟩, rfl⟩
      simpa using hentered
  · cases h

/-- **Every import path that has a location** stands for a package, unless it passes. -/
theorem exists_goal? {precompiled : Bool} (hlocated : (c.locator.locate c.tree s).isSome)
    (hpasses : ¬ c.Passes precompiled s) : ∃ directory, c.goal? precompiled s = some directory := by
  obtain ⟨location, hlocation⟩ := Option.isSome_iff_exists.1 hlocated
  have hthere := Locator.isThere_of_locate hlocation
  rw [goal?]
  rw [hlocation]
  cases location with
  | builtin => exact absurd (Or.inl hlocation) hpasses
  | archived directory archive => exact ⟨directory, rfl⟩
  | source directory isInternal =>
      dsimp only
      split
      · rename_i hskipped
        simp only [Bool.and_eq_true] at hskipped
        obtain ⟨rfl, hprecompiled⟩ := hskipped
        exact absurd (Or.inr ⟨directory, hlocation, hprecompiled⟩) hpasses
      · have hdir : c.tree.isDirectory directory = true := hthere
        rw [FileTree.isDirectory, FileTree.find] at hdir
        cases hplace : c.tree.resolve directory with
        | error fault => simp [hplace] at hdir
        | ok place => exact ⟨place.path, rfl⟩

/-! ### Runs -/

/-- **Reading a directory** gives a package and its imports. -/
def Reads (c : Discovery) (a : Arrival) (isRoot : Bool) (p : Package) (imports : List String) :
    Prop :=
  ∃ contents, ((a.toRead isRoot).read c.tree c.target).Ends (.ok contents) ∧
    p = c.packageOf a isRoot contents ∧ imports = contents.imports

/-- **A run that follows the imports** of one package, one after the other. -/
inductive Follows (c : Discovery) :
    Way → PackageId → List String → PackageGraph → PackageGraph → Prop
  /-- All imports have been followed. -/
  | nil (way : Way) (id : PackageId) (g : PackageGraph) : Follows c way id [] g g
  /-- The import has no package. -/
  | passed {way : Way} {id : PackageId} {s : String} {rest : List String} {g g' : PackageGraph}
      (hpasses : c.Passes g.precompiled s) (hrest : Follows c way id rest g g') :
      Follows c way id (s :: rest) g g'
  /-- The directory has a package already. -/
  | again {way : Way} {id k : PackageId} {s : String} {rest : List String}
      {g g' : PackageGraph} {directory : Path} (hgoal : c.goal? g.precompiled s = some directory)
      (hway : way.passes directory = false ∨ c.IsArchived s directory)
      (hknown : g.byDirectory? directory = some k)
      (hrest : Follows c way id rest ((g.addAlias k s).addImport id k) g') :
      Follows c way id (s :: rest) g g'
  /-- The package is a new one with an archive. -/
  | archived {way : Way} {id : PackageId} {s : String} {rest : List String}
      {g g' : PackageGraph} {directory archive : Path}
      (hlocated : c.locator.locate c.tree s = some (.archived directory archive))
      (hnew : g.byDirectory? directory = none)
      (hrest : Follows c way id rest
        ((g.extended (archivedPackage directory archive s)).addImport id g.size) g') :
      Follows c way id (s :: rest) g g'
  /-- The package is a new one with sources, which is entered. -/
  | entered {way : Way} {id : PackageId} {s : String} {rest : List String}
      {g g₁ g' : PackageGraph} {a : Arrival} {p : Package} {imports : List String}
      (harrives : c.Arrives g.precompiled s a) (hway : way.passes a.directory = false)
      (hnew : g.byDirectory? a.directory = none) (hread : c.Reads a g.isEmpty p imports)
      (hinner : Follows c (way ++ [(a.directory, s)]) g.size imports (g.extended p) g₁)
      (hrest : Follows c way id rest (g₁.addImport id g.size) g') :
      Follows c way id (s :: rest) g g'

/-- **What entering a directory does:** its package is there already, or it is read and its
imports are followed. -/
inductive Enters (c : Discovery) (way : Way) (a : Arrival) (g : PackageGraph) :
    PackageId → PackageGraph → Prop
  | again {id : PackageId} (hway : way.passes a.directory = false)
      (hknown : g.byDirectory? a.directory = some id) :
      Enters c way a g id (g.addAlias id a.importPath)
  | new {p : Package} {imports : List String} {g' : PackageGraph}
      (hway : way.passes a.directory = false) (hnew : g.byDirectory? a.directory = none)
      (hread : c.Reads a g.isEmpty p imports)
      (hinner : Follows c (way ++ [(a.directory, a.importPath)]) g.size imports (g.extended p) g') :
      Enters c way a g g.size g'

/-- **Discovery only adds** to a graph. -/
theorem Follows.grows (h : c.Follows way id imports g g') : g.Grows g' := by
  induction h with
  | nil _ _ g => exact Grows.refl g
  | passed _ _ ih => exact ih
  | again _ _ _ _ ih => exact (grows_addAlias.trans grows_addImport).trans ih
  | archived _ _ _ ih => exact (grows_extended.trans grows_addImport).trans ih
  | entered _ _ _ _ _ _ ihinner ih =>
      exact ((grows_extended.trans ihinner).trans grows_addImport).trans ih

/-! ### The runs behind results -/

theorem reads_of_ends {a : Arrival} {isRoot : Bool} {p : Package} {imports : List String}
    (h : (c.read a isRoot).Ends (.ok (p, imports))) : c.Reads a isRoot p imports := by
  rw [read] at h
  obtain ⟨contents, hcontents, h⟩ := h.bind
  replace h := h.of_tell
  refine ⟨contents, hcontents, ?_⟩
  dsimp only at h
  cases harchive : (c.packageOf a isRoot contents).cachedArchive with
  | none =>
      rw [harchive] at h
      simpa using h
  | some archive =>
      rw [harchive] at h
      replace h := h.of_tell
      simpa using h

/-- Following one import, given what entering a directory does. -/
theorem follow_of_ends {enter : Arrival → PackageGraph → Telling (PackageId × PackageGraph)}
    {importer : Path} {found : Option PackageId}
    (h : (c.follow enter importer s g).Ends (.ok (found, g'))) :
    (c.Passes g.precompiled s ∧ found = none ∧ g' = g) ∨
      (∃ directory archive k, c.locator.locate c.tree s = some (.archived directory archive) ∧
        g.byDirectory? directory = some k ∧ found = some k ∧ g' = g.addAlias k s) ∨
      (∃ directory archive, c.locator.locate c.tree s = some (.archived directory archive) ∧
        g.byDirectory? directory = none ∧ found = some g.size ∧
        g' = g.extended (archivedPackage directory archive s)) ∨
      (∃ a k, c.Arrives g.precompiled s a ∧ (enter a g).Ends (.ok (k, g')) ∧ found = some k) := by
  rw [follow] at h
  cases hlocated : c.locator.locate c.tree s with
  | none => simp [hlocated] at h
  | some location =>
      rw [hlocated] at h
      replace h := h.of_tell
      cases location with
      | builtin =>
          simp only [ends_pure, Except.ok.injEq, Prod.mk.injEq] at h
          exact Or.inl ⟨Or.inl hlocated, h.1, h.2⟩
      | archived directory archive =>
          cases hknown : g.byDirectory? directory with
          | some k =>
              simp only [hknown, ends_pure, Except.ok.injEq, Prod.mk.injEq] at h
              exact Or.inr (Or.inl ⟨directory, archive, k, rfl, hknown, h.1, h.2⟩)
          | none =>
              have hregister := PackageGraph.register_of_new
                (p := archivedPackage directory archive s) hknown
              simp only [hknown, hregister, ends_pure, Except.ok.injEq, Prod.mk.injEq] at h
              exact Or.inr (Or.inr (Or.inl ⟨directory, archive, rfl, hknown, h.1, h.2⟩))
      | source directory isInternal =>
          dsimp only at h
          split at h
          · rename_i hskipped
            replace h := h.of_tell
            simp only [ends_pure, Except.ok.injEq, Prod.mk.injEq] at h
            simp only [Bool.and_eq_true] at hskipped
            obtain ⟨rfl, hprecompiled⟩ := hskipped
            exact Or.inl ⟨Or.inr ⟨directory, hlocated, hprecompiled⟩, h.1, h.2⟩
          · rename_i hentered
            obtain ⟨place, hplace, h⟩ := h.bind
            obtain ⟨⟨k, g₁⟩, hk, h⟩ := h.bind
            simp only [ends_pure, Except.ok.injEq, Prod.mk.injEq] at h
            obtain ⟨rfl, rfl⟩ := h
            refine Or.inr (Or.inr (Or.inr ⟨_, k, ⟨⟨directory, hlocated, ?_⟩, ?_, rfl, rfl⟩, hk, rfl⟩))
            · exact ends_orRefused.1 hplace
            · simpa using hentered

/-- Following several imports, given what entering a directory does. -/
theorem follows_of_ends {enter : Arrival → PackageGraph → Telling (PackageId × PackageGraph)}
    (henter : ∀ b g k g', (enter b g).Ends (.ok (k, g')) → c.Enters way b g k g')
    {a : Arrival} {imports : List String} {g g' : PackageGraph}
    (h : (imports.foldlM (c.followFrom enter a id) g).Ends (.ok g')) :
    c.Follows way id imports g g' := by
  induction imports generalizing g with
  | nil =>
      rw [List.foldlM_nil, ends_pure] at h
      obtain rfl := Except.ok.inj h
      exact .nil way id g'
  | cons s rest ih =>
      obtain ⟨g₁, hstep, hrest⟩ := h.foldlM_cons
      replace hrest := ih hrest
      rw [followFrom] at hstep
      replace hstep := hstep.of_tell
      obtain ⟨⟨found, g₂⟩, hfollow, hdone⟩ := hstep.bind
      rcases follow_of_ends hfollow with ⟨hpasses, rfl, rfl⟩ |
        ⟨directory, archive, k, hlocated, hknown, rfl, rfl⟩ |
        ⟨directory, archive, hlocated, hnew, rfl, rfl⟩ | ⟨b, k, harrives, henters, rfl⟩
      · obtain rfl := Except.ok.inj (ends_pure.1 hdone)
        exact .passed hpasses hrest
      · obtain rfl := Except.ok.inj (ends_pure.1 hdone)
        have harchived : c.IsArchived s directory := ⟨archive, hlocated⟩
        exact .again (goal?_of_archived harchived) (Or.inr harchived) hknown hrest
      · obtain rfl := Except.ok.inj (ends_pure.1 hdone)
        exact .archived hlocated hnew hrest
      · obtain rfl := Except.ok.inj (ends_pure.1 hdone)
        have hgoal := goal?_of_arrives harrives
        have hpath := harrives.importPath
        cases henter b g k g₂ henters with
        | again hway hknown =>
            rw [hpath] at hrest
            exact .again hgoal (Or.inl hway) hknown hrest
        | new hway hnew hread hinner =>
            rw [hpath] at hinner
            exact .entered harrives hway hnew hread hinner hrest

/-- **What entering a directory does.** -/
theorem enters_of_ends (c : Discovery) (way : Way) (a : Arrival) (g : PackageGraph)
    {k : PackageId} {g' : PackageGraph} (h : (c.enter way a g).Ends (.ok (k, g'))) :
    c.Enters way a g k g' := by
  rw [enter] at h
  induction way, a, g using enter.induct c generalizing k g' with
  | case1 way a g hway =>
      rw [dif_pos hway] at h
      simp at h
  | case2 way a g hway id hknown =>
      rw [dif_neg hway, hknown] at h
      simp only [ends_pure, Except.ok.injEq, Prod.mk.injEq] at h
      obtain ⟨rfl, rfl⟩ := h
      exact .again (by simpa using hway) hknown
  | case3 way a g hway hnew hdir ih =>
      rw [dif_neg hway, hnew] at h
      simp only [dif_pos hdir] at h
      obtain ⟨⟨p, imports⟩, hread, h⟩ := h.bind
      have hreads := reads_of_ends hread
      have hnew' : g.byDirectory? p.directory = none := by
        obtain ⟨contents, -, rfl, -⟩ := hreads
        exact hnew
      simp only [PackageGraph.register_of_new hnew'] at h
      obtain ⟨g₁, hfollow, h⟩ := h.bind
      simp only [ends_pure, Except.ok.injEq, Prod.mk.injEq] at h
      obtain ⟨rfl, rfl⟩ := h
      refine .new (by simpa using hway) hnew hreads (follows_of_ends ?_ hfollow)
      intro b g k g' hb
      rw [enter] at hb
      exact ih b g hb
  | case4 way a g hway hnew hdir =>
      rw [dif_neg hway, hnew] at h
      simp [hdir] at h

/-! ### From an input -/

/-- **The run behind a graph:** the root is read, and its imports are followed. -/
def Finds (c : Discovery) (start : Arrival) (precompiled : Bool) (g : PackageGraph) : Prop :=
  ∃ p imports, c.Reads start true p imports ∧
    c.Follows [(start.directory, start.importPath)] PackageGraph.root imports
      ⟨[p], precompiled⟩ g

/-- **The discovery of an input** knows the directory of the root and its module. -/
def IsFor (c : Discovery) (t : FileTree) (input buildDir : Path) (target : Target) : Prop :=
  ∃ place module?, t.resolve input = .ok place ∧
    (moduleOf t (rootOf t place).directory).Ends (.ok module?) ∧
    c = ⟨t, target, ⟨target, (rootOf t place).directory, module?⟩, ⟨buildDir⟩⟩

theorem IsFor.tree_eq {t : FileTree} {input buildDir : Path} {target : Target}
    (h : c.IsFor t input buildDir target) : c.tree = t := by
  obtain ⟨place, module?, -, -, rfl⟩ := h
  rfl

theorem IsFor.layout_eq {t : FileTree} {input buildDir : Path} {target : Target}
    (h : c.IsFor t input buildDir target) : c.layout = ⟨buildDir⟩ := by
  obtain ⟨place, module?, -, -, rfl⟩ := h
  rfl

/-- **A graph that is discovered** has a run behind it, from the place of the input. -/
theorem finds_of_resolve {t : FileTree} {input buildDir : Path} {target : Target} {place : Place}
    (hplace : t.resolve input = .ok place)
    (h : (discoverAll t input buildDir target).Ends (.ok g)) :
    ∃ c, IsFor c t input buildDir target ∧
      c.Finds (rootOf t place) (t.isDirectory target.archiveDir) g := by
  rw [discoverAll] at h
  obtain ⟨place', hplace', h⟩ := h.bind
  obtain rfl : place = place' := Except.ok.inj (hplace.symm.trans (ends_orRefused.1 hplace'))
  obtain ⟨module?, hmodule, h⟩ := h.bind
  replace h := h.of_tell
  obtain ⟨⟨id, g'⟩, henter, h⟩ := h.bind
  obtain rfl := Except.ok.inj (ends_pure.1 h)
  refine ⟨_, ⟨place, module?, hplace, hmodule, rfl⟩, ?_⟩
  cases enters_of_ends _ _ _ _ henter with
  | again _ hknown => simp [PackageGraph.byDirectory?] at hknown
  | new _ _ hread hinner => exact ⟨_, _, hread, hinner⟩

theorem resolve_of_discoverAll {t : FileTree} {input buildDir : Path} {target : Target}
    (h : (discoverAll t input buildDir target).Ends (.ok g)) :
    ∃ place, t.resolve input = .ok place := by
  rw [discoverAll] at h
  obtain ⟨place, hplace, -⟩ := h.bind
  exact ⟨place, ends_orRefused.1 hplace⟩

theorem finds_of_discoverAll {t : FileTree} {input buildDir : Path} {target : Target}
    (h : (discoverAll t input buildDir target).Ends (.ok g)) :
    ∃ c place, IsFor c t input buildDir target ∧
      c.Finds (rootOf t place) (t.isDirectory target.archiveDir) g := by
  obtain ⟨place, hplace⟩ := resolve_of_discoverAll h
  obtain ⟨c, hfinds⟩ := finds_of_resolve hplace h
  exact ⟨c, place, hfinds⟩

end Discovery

end GoPlanner

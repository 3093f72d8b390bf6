import GoPlanner.Proofs.Discovery.Composed
import GoPlanner.Proofs.Discovery.Succeeds
import Mathlib.Data.Finset.Card

/-!
# The Visits of a Discovery

Discovery visits directories and follows the imports of those that it reads, and each of the two
calls the other. Here a run of these calls is a finite derivation with a trace of its visits. The
calls carry no bound: nothing in a derivation says that it has to end. That every discovery has
one follows from the directories off the way, of which each call inside has fewer.

What holds of a trace is proved by induction on the run. The directories that are being entered are
different directories of the tree, so their number is bounded by its directories. A directory that
is read has no package before and has one ever after, so it is not read again.

## Main definitions

* `Discovery.Visit`: one visit, with the directories that are being entered.
* `Discovery.Lead`, `Discovery.lead`: what an import path leads to.
* `Discovery.Runs`: the runs of calls, with their visits.
* `Discovery.Discovers`: the visits of an input, and what comes of them.

## Main results

* `Discovery.Runs.unique`: a call has one run at most.
* `Discovery.exists_runs_of_enter`: entering a directory has a run.
* `Discovery.Runs.isActive`, `Discovery.IsActive.length_le`: the directories that are being entered.
* `Discovery.Runs.isFresh`: what is read has no package before, and one after.
* `Discovery.discoverAll_visits`: discovery ends, and reads no directory twice.
-/

namespace GoPlanner

/-! ### Directories -/

/-- **The directories of a file tree.** -/
def FileTree.directorySet (t : FileTree) : Finset Place :=
  t.directories.toFinset.filter (fun place => t.isDirectoryAt place = true)

theorem FileTree.mem_directorySet {t : FileTree} {place : Place} :
    place ∈ t.directorySet ↔ t.isDirectoryAt place = true := by
  rw [directorySet, Finset.mem_filter, List.mem_toFinset, and_iff_right_iff_imp]
  exact Discovery.mem_directories

namespace Discovery

open PackageGraph Telling

/-! ### Calls -/

/-- **One visit** of a directory. -/
structure Visit where
  /-- The directories that are being entered, from the root on. -/
  way : Way
  /-- The directory, and the import path that led to it. -/
  arrival : Arrival
  /-- Whether the directory is read. -/
  isRead : Bool
deriving DecidableEq

/-- The directories that are read, in order. -/
def directoriesRead (trace : List Visit) : List Path :=
  (trace.filter (·.isRead)).map (·.arrival.directory)

/-- **What an import path leads to.** -/
inductive Lead where
  /-- Nothing can be found, or what is found cannot be used. -/
  | fault (e : BuildError)
  /-- The import has no package. -/
  | nothing
  /-- A package that needs no visit, and the graph with it. -/
  | package (id : PackageId) (g : PackageGraph)
  /-- A directory of sources, which is visited. -/
  | sources (a : Arrival)
deriving DecidableEq

/-- **Where an import of a package leads** before anything is visited. -/
def lead (c : Discovery) (importer : Path) (importPath : String) (g : PackageGraph) : Lead :=
  match c.locator.locate c.tree importPath with
  | none => .fault (.importNotFound importPath importer)
  | some .builtin => .nothing
  | some (.archived directory archive) =>
    match g.byDirectory? directory with
    | some id => .package id (g.addAlias id importPath)
    | none =>
      let (id, g) := g.register (archivedPackage directory archive importPath)
      .package id g
  | some (.source directory isInternal) =>
    if isInternal && g.precompiled then .nothing
    else
      match c.tree.resolve directory with
      | .error fault => .fault (.refused directory fault)
      | .ok place => .sources ⟨place, importPath, isInternal, none⟩

/-- **The calls of a discovery:** to visit a directory, and to follow the imports of a package that
are left. -/
inductive Call where
  | visit (way : Way) (a : Arrival) (g : PackageGraph)
  | imports (way : Way) (importer : Arrival) (id : PackageId) (importPaths : List String)
    (g : PackageGraph)

/-- **The run of a call,** with its visits and its result. A directory is on the way while its
imports are followed. -/
inductive Runs (c : Discovery) :
    Call → List Visit → Except BuildError (PackageId × PackageGraph) → Prop
  /-- The directory is being entered already. -/
  | cycle {way : Way} {a : Arrival} {g : PackageGraph}
      (hway : way.passes a.directory = true) :
      Runs c (.visit way a g) [⟨way, a, false⟩]
        (.error (.importCycle (way.since a.directory ++ [a.importPath])))
  /-- The directory has a package already. -/
  | again {way : Way} {a : Arrival} {g : PackageGraph} {id : PackageId}
      (hway : way.passes a.directory = false) (hknown : g.byDirectory? a.directory = some id) :
      Runs c (.visit way a g) [⟨way, a, false⟩] (.ok (id, g.addAlias id a.importPath))
  /-- The directory is new, but it cannot be read. -/
  | unread {way : Way} {a : Arrival} {g : PackageGraph} {e : BuildError}
      (hway : way.passes a.directory = false) (hnew : g.byDirectory? a.directory = none)
      (hread : (c.read a g.isEmpty).Ends (.error e)) :
      Runs c (.visit way a g) [⟨way, a, true⟩] (.error e)
  /-- The directory is new and is read, and the imports of its package are followed. -/
  | new {way : Way} {a : Arrival} {g : PackageGraph} {p : Package} {importPaths : List String}
      {trace : List Visit} {r : Except BuildError (PackageId × PackageGraph)}
      (hway : way.passes a.directory = false) (hnew : g.byDirectory? a.directory = none)
      (hread : (c.read a g.isEmpty).Ends (.ok (p, importPaths)))
      (hinner : Runs c (.imports (way ++ [(a.directory, a.importPath)]) a (g.register p).1
        importPaths (g.register p).2) trace r) :
      Runs c (.visit way a g) (⟨way, a, true⟩ :: trace) r
  /-- No imports are left. -/
  | done {way : Way} {a : Arrival} {id : PackageId} {g : PackageGraph} :
      Runs c (.imports way a id [] g) [] (.ok (id, g))
  /-- The import leads to a fault. -/
  | fault {way : Way} {a : Arrival} {id : PackageId} {s : String} {rest : List String}
      {g : PackageGraph} {e : BuildError} (hlead : c.lead a.directory s g = .fault e) :
      Runs c (.imports way a id (s :: rest) g) [] (.error e)
  /-- The import has no package. -/
  | nothing {way : Way} {a : Arrival} {id : PackageId} {s : String} {rest : List String}
      {g : PackageGraph} {trace : List Visit} {r : Except BuildError (PackageId × PackageGraph)}
      (hlead : c.lead a.directory s g = .nothing)
      (hrest : Runs c (.imports way a id rest g) trace r) :
      Runs c (.imports way a id (s :: rest) g) trace r
  /-- The import has a package that needs no visit. -/
  | package {way : Way} {a : Arrival} {id k : PackageId} {s : String} {rest : List String}
      {g g₁ : PackageGraph} {trace : List Visit}
      {r : Except BuildError (PackageId × PackageGraph)}
      (hlead : c.lead a.directory s g = .package k g₁)
      (hrest : Runs c (.imports way a id rest (g₁.addImport id k)) trace r) :
      Runs c (.imports way a id (s :: rest) g) trace r
  /-- The visit of the directory fails. -/
  | failed {way : Way} {a b : Arrival} {id : PackageId} {s : String} {rest : List String}
      {g : PackageGraph} {trace : List Visit} {e : BuildError}
      (hlead : c.lead a.directory s g = .sources b)
      (hvisit : Runs c (.visit way b g) trace (.error e)) :
      Runs c (.imports way a id (s :: rest) g) trace (.error e)
  /-- The directory is visited, and the other imports are followed. -/
  | visited {way : Way} {a b : Arrival} {id k : PackageId} {s : String} {rest : List String}
      {g g₁ : PackageGraph} {trace trace' : List Visit}
      {r : Except BuildError (PackageId × PackageGraph)}
      (hlead : c.lead a.directory s g = .sources b)
      (hvisit : Runs c (.visit way b g) trace (.ok (k, g₁)))
      (hrest : Runs c (.imports way a id rest (g₁.addImport id k)) trace' r) :
      Runs c (.imports way a id (s :: rest) g) (trace ++ trace') r

variable {c : Discovery} {call : Call} {way : Way} {a b : Arrival} {g g' : PackageGraph}
  {id k : PackageId} {s : String} {trace trace' : List Visit}
  {r r' : Except BuildError (PackageId × PackageGraph)}

/-- **A call has one run** at most. -/
theorem Runs.unique (h : c.Runs call trace r) (h' : c.Runs call trace' r') :
    trace = trace' ∧ r = r' := by
  induction h generalizing trace' r' with
  | cycle hway =>
      cases h' with
      | cycle _ => exact ⟨rfl, rfl⟩
      | again hoff _ | unread hoff _ _ | new hoff _ _ _ => simp [hway] at hoff
  | again hway hknown =>
      cases h' with
      | cycle hon => simp [hway] at hon
      | again _ hknown' =>
          obtain rfl := Option.some.inj (hknown.symm.trans hknown')
          exact ⟨rfl, rfl⟩
      | unread _ hnew _ => simp [hknown] at hnew
      | new _ hnew _ _ => simp [hknown] at hnew
  | unread hway hnew hread =>
      cases h' with
      | cycle hon => simp [hway] at hon
      | again _ hknown => simp [hnew] at hknown
      | unread _ _ hread' => exact ⟨rfl, by rw [Except.error.inj (read_unique hread hread')]⟩
      | new _ _ hread' _ => cases read_unique hread hread'
  | new hway hnew hread _ ih =>
      cases h' with
      | cycle hon => simp [hway] at hon
      | again _ hknown => simp [hnew] at hknown
      | unread _ _ hread' => cases read_unique hread hread'
      | new _ _ hread' hinner' =>
          obtain ⟨rfl, rfl⟩ := Prod.mk.inj (Except.ok.inj (read_unique hread hread'))
          obtain ⟨rfl, rfl⟩ := ih hinner'
          exact ⟨rfl, rfl⟩
  | done =>
      cases h' with
      | done => exact ⟨rfl, rfl⟩
  | fault hlead =>
      cases h' with
      | fault hlead' =>
          obtain rfl := Lead.fault.inj (hlead.symm.trans hlead')
          exact ⟨rfl, rfl⟩
      | nothing hlead' _ | package hlead' _ | failed hlead' _ | visited hlead' _ _ =>
          cases hlead.symm.trans hlead'
  | nothing hlead _ ih =>
      cases h' with
      | fault hlead' => cases hlead.symm.trans hlead'
      | nothing _ hrest' => exact ih hrest'
      | package hlead' _ | failed hlead' _ | visited hlead' _ _ => cases hlead.symm.trans hlead'
  | package hlead _ ih =>
      cases h' with
      | fault hlead' | nothing hlead' _ => cases hlead.symm.trans hlead'
      | package hlead' hrest' =>
          obtain ⟨rfl, rfl⟩ := Lead.package.inj (hlead.symm.trans hlead')
          exact ih hrest'
      | failed hlead' _ | visited hlead' _ _ => cases hlead.symm.trans hlead'
  | failed hlead _ ih =>
      cases h' with
      | fault hlead' | nothing hlead' _ | package hlead' _ => cases hlead.symm.trans hlead'
      | failed hlead' hvisit' =>
          obtain rfl := Lead.sources.inj (hlead.symm.trans hlead')
          obtain ⟨rfl, he⟩ := ih hvisit'
          exact ⟨rfl, by rw [Except.error.inj he]⟩
      | visited hlead' hvisit' _ =>
          obtain rfl := Lead.sources.inj (hlead.symm.trans hlead')
          cases (ih hvisit').2
  | visited hlead _ _ ihvisit ih =>
      cases h' with
      | fault hlead' | nothing hlead' _ | package hlead' _ => cases hlead.symm.trans hlead'
      | failed hlead' hvisit' =>
          obtain rfl := Lead.sources.inj (hlead.symm.trans hlead')
          cases (ihvisit hvisit').2
      | visited hlead' hvisit' hrest' =>
          obtain rfl := Lead.sources.inj (hlead.symm.trans hlead')
          obtain ⟨rfl, hresult⟩ := ihvisit hvisit'
          obtain ⟨rfl, rfl⟩ := Prod.mk.inj (Except.ok.inj hresult)
          obtain ⟨rfl, rfl⟩ := ih hrest'
          exact ⟨rfl, rfl⟩

/-! ### Every call has a run -/

/-- A directory of sources that an import leads to is an arrival. -/
theorem arrives_of_lead {importer : Path} (h : c.lead importer s g = .sources b) :
    c.Arrives g.precompiled s b := by
  rw [lead] at h
  split at h
  · cases h
  · cases h
  · split at h <;> cases h
  · rename_i directory isInternal hlocated
    split at h
    · cases h
    · rename_i hentered
      split at h
      · cases h
      · rename_i place hplace
        obtain rfl := Lead.sources.inj h
        exact ⟨⟨directory, hlocated, hplace⟩, by simpa using hentered, rfl, rfl⟩

/-- What becomes of one import, given where it leads. -/
def Lead.Becomes (enter : Arrival → PackageGraph → Telling (PackageId × PackageGraph))
    (g : PackageGraph) (r : Except BuildError (Option PackageId × PackageGraph)) : Lead → Prop
  | .fault e => r = .error e
  | .nothing => r = .ok (none, g)
  | .package k g' => r = .ok (some k, g')
  | .sources b => ∃ r', (enter b g).Ends r' ∧ r = r'.map fun x => (some x.1, x.2)

variable {enter : Arrival → PackageGraph → Telling (PackageId × PackageGraph)}

/-- **Following an import** does what it leads to. -/
theorem becomes_of_follow {importer : Path}
    {r : Except BuildError (Option PackageId × PackageGraph)}
    (h : (c.follow enter importer s g).Ends r) : (c.lead importer s g).Becomes enter g r := by
  rw [follow] at h
  rw [lead]
  cases hlocated : c.locator.locate c.tree s with
  | none =>
      rw [hlocated] at h
      exact ends_throw.1 h
  | some location =>
      rw [hlocated] at h
      replace h := (answers_tell _).ends_of_bind h
      cases location with
      | builtin => exact ends_pure.1 h
      | archived directory archive =>
          dsimp only at h ⊢
          cases hknown : g.byDirectory? directory with
          | some k =>
              rw [hknown] at h
              exact ends_pure.1 h
          | none =>
              rw [hknown] at h
              exact ends_pure.1 h
      | source directory isInternal =>
          dsimp only at h ⊢
          split at h
          · rename_i hskipped
            rw [if_pos hskipped]
            exact ends_pure.1 ((answers_tell _).ends_of_bind h)
          · rename_i hentered
            rw [if_neg hentered]
            cases hplace : c.tree.resolve directory with
            | error fault =>
                exact ((answers_orRefused_error hplace).bind_error _).eq_of_ends h
            | ok place =>
                replace h := (answers_orRefused_ok hplace).ends_of_bind h
                rcases h.of_bind with ⟨e, he, rfl⟩ | ⟨⟨k, g'⟩, hk, h⟩
                · exact ⟨_, he, rfl⟩
                · exact ⟨_, hk, ends_pure.1 h⟩

/-- The graph with what an import became. -/
def recorded (id : PackageId) : Option PackageId × PackageGraph → PackageGraph
  | (some k, g) => g.addImport id k
  | (none, g) => g

theorem exists_follow_of_followFrom {r : Except BuildError PackageGraph}
    (h : (c.followFrom enter a id g s).Ends r) :
    ∃ r₁, (c.follow enter a.directory s g).Ends r₁ ∧ r = r₁.map (recorded id) := by
  rw [followFrom] at h
  rcases ((answers_tell _).ends_of_bind h).of_bind with ⟨e, he, rfl⟩ | ⟨⟨found, g₁⟩, hfound, h⟩
  · exact ⟨_, he, rfl⟩
  · refine ⟨_, hfound, ?_⟩
    cases found with
    | none => exact ends_pure.1 h
    | some k => exact ends_pure.1 h

/-- One import has a run, if what it leads to has one and the imports after it have one. -/
theorem exists_runs_cons {rest : List String}
    {r₁ : Except BuildError (Option PackageId × PackageGraph)}
    (henter : ∀ b g r, c.tree.isDirectoryAt b.place = true → (enter b g).Ends r →
      ∃ trace, c.Runs (.visit way b g) trace r)
    (h : (c.lead a.directory s g).Becomes enter g r₁)
    (herror : ∀ e, r₁ = .error e → r = .error e)
    (hrest : ∀ x, r₁ = .ok x → ∃ trace, c.Runs (.imports way a id rest (recorded id x)) trace r) :
    ∃ trace, c.Runs (.imports way a id (s :: rest) g) trace r := by
  cases hlead : c.lead a.directory s g with
  | fault e =>
      rw [hlead] at h
      obtain rfl := herror e h
      exact ⟨[], .fault hlead⟩
  | nothing =>
      rw [hlead] at h
      obtain ⟨trace, hrun⟩ := hrest _ h
      exact ⟨trace, .nothing hlead hrun⟩
  | package k g' =>
      rw [hlead] at h
      obtain ⟨trace, hrun⟩ := hrest _ h
      exact ⟨trace, .package hlead hrun⟩
  | sources b =>
      rw [hlead] at h
      obtain ⟨r', hr', rfl⟩ := h
      obtain ⟨trace, hvisit⟩ := henter b g r' (arrives_of_lead hlead).isDirectoryAt hr'
      cases r' with
      | error e =>
          obtain rfl := herror e rfl
          exact ⟨trace, .failed hlead hvisit⟩
      | ok x =>
          obtain ⟨trace', hrun⟩ := hrest _ rfl
          exact ⟨trace ++ trace', .visited hlead hvisit hrun⟩

/-- **Following the imports** of a package has a run, if each visit has one. -/
theorem exists_runs_of_imports
    (henter : ∀ b g r, c.tree.isDirectoryAt b.place = true → (enter b g).Ends r →
      ∃ trace, c.Runs (.visit way b g) trace r)
    {importPaths : List String} {r : Except BuildError PackageGraph}
    (h : (importPaths.foldlM (c.followFrom enter a id) g).Ends r) :
    ∃ trace, c.Runs (.imports way a id importPaths g) trace (r.map (id, ·)) := by
  induction importPaths generalizing g with
  | nil =>
      obtain rfl := ends_pure.1 h
      exact ⟨[], .done⟩
  | cons s rest ih =>
      rw [List.foldlM_cons] at h
      rcases h.of_bind with ⟨e, he, rfl⟩ | ⟨g₁, hg₁, hrest⟩
      · obtain ⟨r₁, hfollow, hresult⟩ := exists_follow_of_followFrom he
        refine exists_runs_cons henter (becomes_of_follow hfollow) ?_ ?_
        · rintro e' rfl
          rw [Except.error.inj hresult]
          rfl
        · rintro x rfl
          cases hresult
      · obtain ⟨r₁, hfollow, hresult⟩ := exists_follow_of_followFrom hg₁
        refine exists_runs_cons henter (becomes_of_follow hfollow) ?_ ?_
        · rintro e' rfl
          cases hresult
        · rintro x rfl
          obtain rfl := Except.ok.inj hresult
          exact ih hrest

/-- **Entering a directory has a run,** whatever comes of it. -/
theorem exists_runs_of_enter (c : Discovery) (way : Way) (a : Arrival) (g : PackageGraph)
    {r : Except BuildError (PackageId × PackageGraph)}
    (hdir : c.tree.isDirectoryAt a.place = true) (h : (c.enter way a g).Ends r) :
    ∃ trace, c.Runs (.visit way a g) trace r := by
  rw [enter] at h
  induction way, a, g using enter.induct c generalizing r with
  | case1 way a g hway =>
      rw [dif_pos hway] at h
      obtain rfl := ends_throw.1 h
      exact ⟨_, .cycle hway⟩
  | case2 way a g hway id hknown =>
      rw [dif_neg hway, hknown] at h
      obtain rfl := ends_pure.1 h
      exact ⟨_, .again (by simpa using hway) hknown⟩
  | case3 way a g hway hnew hthere ih =>
      rw [dif_neg hway, hnew] at h
      simp only [dif_pos hthere] at h
      replace hway : way.passes a.directory = false := by simpa using hway
      rcases h.of_bind with ⟨e, he, rfl⟩ | ⟨⟨p, importPaths⟩, hread, h⟩
      · exact ⟨_, .unread hway hnew he⟩
      · have hinner (b : Arrival) (g' : PackageGraph) (r')
            (hb : c.tree.isDirectoryAt b.place = true)
            (henter : (c.enter (way ++ [(a.directory, a.importPath)]) b g').Ends r') :
            ∃ trace, c.Runs (.visit (way ++ [(a.directory, a.importPath)]) b g') trace r' := by
          rw [enter] at henter
          exact ih b g' hb henter
        rcases h.of_bind with ⟨e, he, rfl⟩ | ⟨g', hg', h⟩
        · obtain ⟨trace, hrun⟩ := exists_runs_of_imports hinner he
          exact ⟨_, .new hway hnew hread hrun⟩
        · obtain rfl := ends_pure.1 h
          obtain ⟨trace, hrun⟩ := exists_runs_of_imports hinner hg'
          exact ⟨_, .new hway hnew hread hrun⟩
  | case4 way a g hway hnew hthere => exact absurd hdir hthere

/-! ### The directories that are being entered -/

/-- **Directories that are being entered** are different directories of the tree. -/
structure IsActive (c : Discovery) (way : Way) : Prop where
  /-- The directories are different. -/
  distinct : (way.map (·.1)).Pairwise (fun p q => p.same q = false)
  /-- They are directories of the tree. -/
  there : ∀ step ∈ way, ∃ place, c.tree.isDirectoryAt place = true ∧ step.1 = place.path

theorem IsActive.append (h : c.IsActive way) (hdir : c.tree.isDirectoryAt a.place = true)
    (hway : way.passes a.directory = false) :
    c.IsActive (way ++ [(a.directory, a.importPath)]) where
  distinct := by
    rw [List.map_append, List.pairwise_append]
    refine ⟨h.distinct, List.pairwise_singleton _ _, fun p hp q hq => ?_⟩
    obtain ⟨step, hstep, rfl⟩ := List.mem_map.1 hp
    obtain rfl := List.mem_singleton.1 hq
    rw [Way.passes, List.any_eq_false] at hway
    simpa using hway step hstep
  there := by
    intro step hstep
    rcases List.mem_append.1 hstep with hstep | hstep
    · exact h.there step hstep
    · obtain rfl := List.mem_singleton.1 hstep
      exact ⟨a.place, hdir, rfl⟩

theorem isActive_nil : c.IsActive [] where
  distinct := .nil
  there := by simp

/-- **No more directories are being entered** than there are in the tree. -/
theorem IsActive.length_le (h : c.IsActive way) : way.length ≤ c.tree.directorySet.card := by
  have hnodup : (way.map (·.1)).Nodup := h.distinct.imp fun {p q} hsame heq => by
    rw [heq, Path.same_self] at hsame
    cases hsame
  have hsubset : (way.map (·.1)).toFinset ⊆ c.tree.directorySet.image Place.path := by
    intro p hp
    obtain ⟨step, hstep, rfl⟩ := List.mem_map.1 (List.mem_toFinset.1 hp)
    obtain ⟨place, hplace, hpath⟩ := h.there step hstep
    exact Finset.mem_image.2 ⟨place, FileTree.mem_directorySet.2 hplace, hpath.symm⟩
  calc way.length = (way.map (·.1)).toFinset.card := by
        rw [List.toFinset_card_of_nodup hnodup, List.length_map]
    _ ≤ (c.tree.directorySet.image Place.path).card := Finset.card_le_card hsubset
    _ ≤ c.tree.directorySet.card := Finset.card_image_le

/-- Where a call stands: its way, and the directory that it visits. -/
def Call.IsActive (c : Discovery) : Call → Prop
  | .visit way a _ => c.IsActive way ∧ c.tree.isDirectoryAt a.place = true
  | .imports way _ _ _ _ => c.IsActive way

/-- **A run keeps the directories different** that are being entered. -/
theorem Runs.isActive (h : c.Runs call trace r) (hactive : call.IsActive c) :
    ∀ v ∈ trace, c.IsActive v.way ∧ c.tree.isDirectoryAt v.arrival.place = true := by
  induction h with
  | cycle _ => exact List.forall_mem_singleton.2 hactive
  | again _ _ => exact List.forall_mem_singleton.2 hactive
  | unread _ _ _ => exact List.forall_mem_singleton.2 hactive
  | new hway _ _ _ ih =>
      exact List.forall_mem_cons.2 ⟨hactive, ih (hactive.1.append hactive.2 hway)⟩
  | done => simp
  | fault _ => simp
  | nothing _ _ ih => exact ih hactive
  | package _ _ ih => exact ih hactive
  | failed hlead _ ih => exact ih ⟨hactive, (arrives_of_lead hlead).isDirectoryAt⟩
  | visited hlead _ _ ihvisit ih =>
      intro v hv
      rcases List.mem_append.1 hv with hv | hv
      · exact ihvisit ⟨hactive, (arrives_of_lead hlead).isDirectoryAt⟩ v hv
      · exact ih hactive v hv

/-- **A visit of a directory that is being entered** is the last one. It reads nothing, and what
comes of it is the import cycle. -/
theorem Runs.eq_cycle (h : c.Runs call trace r) :
    ∀ v ∈ trace, v.way.passes v.arrival.directory = true →
      v.isRead = false ∧ trace.getLast? = some v ∧
        r = .error (.importCycle (v.way.since v.arrival.directory ++ [v.arrival.importPath])) := by
  induction h with
  | cycle _ => simp
  | again hway _ => simp [hway]
  | unread hway _ _ => simp [hway]
  | @new _ _ _ _ _ trace _ hway _ _ _ ih =>
      intro v hv hpasses
      rcases List.mem_cons.1 hv with rfl | hv
      · simp [hway] at hpasses
      · obtain ⟨hread, hlast, hr⟩ := ih v hv hpasses
        exact ⟨hread, by rw [List.getLast?_cons, hlast]; rfl, hr⟩
  | done => simp
  | fault _ => simp
  | nothing _ _ ih => exact ih
  | package _ _ ih => exact ih
  | failed _ _ ih => exact ih
  | visited _ _ _ ihvisit ih =>
      intro v hv hpasses
      rcases List.mem_append.1 hv with hv | hv
      · cases (ihvisit v hv hpasses).2.2
      · obtain ⟨hread, hlast, hr⟩ := ih v hv hpasses
        exact ⟨hread, by rw [List.getLast?_append, hlast]; rfl, hr⟩

/-! ### The directories that are read -/

/-- The graph with which a call starts. -/
def Call.graph : Call → PackageGraph
  | .visit _ _ g => g
  | .imports _ _ _ _ g => g

/-- **What is read is fresh:** its directories are different and have no package in the graph
before, and they have one in the graph after. -/
structure IsFresh (g : PackageGraph) (trace : List Visit)
    (r : Except BuildError (PackageId × PackageGraph)) : Prop where
  /-- No directory is read twice. -/
  distinct : (directoriesRead trace).Pairwise (fun p q => p.same q = false)
  /-- The directories are new. -/
  new : ∀ p ∈ directoriesRead trace, g.byDirectory? p = none
  /-- The graph only grows. -/
  grows : ∀ id g', r = .ok (id, g') → g.Grows g'
  /-- The directories have a package ever after. -/
  known : ∀ id g', r = .ok (id, g') → ∀ p ∈ directoriesRead trace, (g'.byDirectory? p).isSome

theorem directoriesRead_append (trace trace' : List Visit) :
    directoriesRead (trace ++ trace') = directoriesRead trace ++ directoriesRead trace' := by
  simp [directoriesRead]

/-- A directory that is new later is new before. -/
theorem byDirectory?_eq_none_of_grows (h : g.Grows g') {p : Path}
    (hnew : g'.byDirectory? p = none) : g.byDirectory? p = none := by
  cases hknown : g.byDirectory? p with
  | none => rfl
  | some k => exact absurd (hnew.symm.trans (h.byDirectory? hknown)) (by simp)

/-- What is read in a graph that has grown is fresh in the graph before. -/
theorem IsFresh.of_grows (h : IsFresh g' trace r) (hgrows : g.Grows g') : IsFresh g trace r where
  distinct := h.distinct
  new p hp := byDirectory?_eq_none_of_grows hgrows (h.new p hp)
  grows id g'' hr := hgrows.trans (h.grows id g'' hr)
  known := h.known

/-- Nothing is read. -/
theorem isFresh_of_directoriesRead_eq_nil (htrace : directoriesRead trace = [])
    (hgrows : ∀ id g', r = .ok (id, g') → g.Grows g') : IsFresh g trace r where
  distinct := htrace ▸ .nil
  new := by simp [htrace]
  grows := hgrows
  known := by simp [htrace]

/-- **One run after the other:** what the second one reads is not what the first one has read. -/
theorem IsFresh.append {g₁ g₂ : PackageGraph} (h : IsFresh g trace (.ok (k, g₁)))
    (hgrows : g₁.Grows g₂) (h' : IsFresh g₂ trace' r) : IsFresh g (trace ++ trace') r := by
  have hg₁ := h.grows k g₁ rfl
  have hlater := h'.of_grows (hg₁.trans hgrows)
  refine ⟨?_, ?_, hlater.grows, ?_⟩
  · rw [directoriesRead_append, List.pairwise_append]
    refine ⟨h.distinct, h'.distinct, fun p hp q hq => ?_⟩
    by_contra hsame
    obtain ⟨j, hj⟩ := Option.isSome_iff_exists.1 (h.known k g₁ rfl p hp)
    have hnew := h'.new q hq
    rw [← byDirectory?_congr (by simpa using hsame), hgrows.byDirectory? hj] at hnew
    cases hnew
  · rw [directoriesRead_append]
    intro p hp
    rcases List.mem_append.1 hp with hp | hp
    · exact h.new p hp
    · exact hlater.new p hp
  · rw [directoriesRead_append]
    intro id g' hr p hp
    rcases List.mem_append.1 hp with hp | hp
    · obtain ⟨j, hj⟩ := Option.isSome_iff_exists.1 (h.known k g₁ rfl p hp)
      rw [(hgrows.trans (h'.grows id g' hr)).byDirectory? hj]
      rfl
    · exact h'.known id g' hr p hp

/-- A package that needs no visit is there, or is added. -/
theorem grows_of_lead {importer : Path} (h : c.lead importer s g = .package k g') : g.Grows g' := by
  rw [lead] at h
  split at h
  · cases h
  · cases h
  · split at h
    · obtain ⟨rfl, rfl⟩ := Lead.package.inj h
      exact grows_addAlias
    · rename_i directory archive _ _ hnew
      have hnew' : g.byDirectory? (archivedPackage directory archive s).directory = none := hnew
      rw [register_of_new hnew'] at h
      obtain ⟨rfl, rfl⟩ := Lead.package.inj h
      exact grows_extended
  · split at h
    · cases h
    · split at h <;> cases h

/-- **A new directory is read,** and what its imports lead to is read afterwards. -/
theorem IsFresh.cons {p : Package} (hdirectory : p.directory = a.directory)
    (hnew : g.byDirectory? a.directory = none) (h : IsFresh (g.extended p) trace r) :
    IsFresh g (⟨way, a, true⟩ :: trace) r := by
  have hread : directoriesRead (⟨way, a, true⟩ :: trace) = a.directory :: directoriesRead trace :=
    rfl
  have hknown : (g.extended p).byDirectory? a.directory ≠ none := by
    rw [Ne, byDirectory?_eq_none]
    intro hnone
    have hself := hnone g.size p (by rw [package?_extended, if_pos rfl])
    rw [hdirectory, Path.same_self] at hself
    cases hself
  have hlater := h.of_grows grows_extended
  refine ⟨?_, ?_, hlater.grows, ?_⟩
  · rw [hread, List.pairwise_cons]
    refine ⟨fun q hq => ?_, h.distinct⟩
    by_contra hsame
    exact hknown ((byDirectory?_congr (by simpa using hsame)).trans (h.new q hq))
  · rw [hread]
    exact List.forall_mem_cons.2 ⟨hnew, hlater.new⟩
  · rw [hread]
    intro id g' hr
    obtain ⟨j, hj⟩ := Option.ne_none_iff_exists'.1 hknown
    refine List.forall_mem_cons.2 ⟨?_, h.known id g' hr⟩
    rw [(h.grows id g' hr).byDirectory? hj]
    rfl

/-- **A run reads fresh directories only.** -/
theorem Runs.isFresh (h : c.Runs call trace r) : IsFresh call.graph trace r := by
  induction h with
  | cycle _ => exact isFresh_of_directoriesRead_eq_nil rfl fun _ _ hr => by cases hr
  | again _ _ =>
      refine isFresh_of_directoriesRead_eq_nil rfl fun _ _ hr => ?_
      obtain ⟨rfl, rfl⟩ := Prod.mk.inj (Except.ok.inj hr)
      exact grows_addAlias
  | unread _ hnew _ =>
      refine ⟨List.pairwise_singleton _ _, List.forall_mem_singleton.2 hnew, ?_, ?_⟩
      · intro _ _ hr
        cases hr
      · intro _ _ hr
        cases hr
  | new _ hnew hread _ ih =>
      have hdirectory := (reads_of_ends hread).fields.1
      rw [Call.graph, register_of_new (hdirectory ▸ hnew)] at ih
      exact ih.cons hdirectory hnew
  | done =>
      refine isFresh_of_directoriesRead_eq_nil rfl fun _ _ hr => ?_
      obtain ⟨rfl, rfl⟩ := Prod.mk.inj (Except.ok.inj hr)
      exact Grows.refl _
  | fault _ => exact isFresh_of_directoriesRead_eq_nil rfl fun _ _ hr => by cases hr
  | nothing _ _ ih => exact ih
  | package hlead _ ih => exact ih.of_grows ((grows_of_lead hlead).trans grows_addImport)
  | failed _ _ ih => exact ih
  | visited _ _ _ ihvisit ih => exact ihvisit.append grows_addImport ih

/-! ### From an input -/

/-- **The visits of an input,** and what comes of them. The root is visited first, with an empty
graph. -/
inductive Discovers (t : FileTree) (input buildDir : Path) (target : Target) :
    List Visit → Except BuildError PackageGraph → Prop
  /-- The input is not there. -/
  | refused {fault : Fault} (hplace : t.resolve input = .error fault) :
      Discovers t input buildDir target [] (.error (.refused input fault))
  /-- The input is a file that does not stand in a directory of the tree. -/
  | stray {place : Place} (hplace : t.resolve input = .ok place)
      (hdir : t.isDirectoryAt (rootOf t place).place = false) :
      Discovers t input buildDir target []
        (.error (.refused (rootOf t place).directory .notDirectory))
  /-- The root is visited. -/
  | visited {c : Discovery} {place : Place} {trace : List Visit}
      {r : Except BuildError (PackageId × PackageGraph)}
      (hplace : t.resolve input = .ok place)
      (hdir : t.isDirectoryAt (rootOf t place).place = true)
      (hfor : c.IsFor t input buildDir target)
      (hrun : c.Runs (.visit [] (rootOf t place) ⟨[], t.isDirectory target.archiveDir⟩) trace r) :
      Discovers t input buildDir target trace (r.map (·.2))

variable {t : FileTree} {input buildDir : Path} {target : Target}

/-- **An input has one course** of visits. -/
theorem Discovers.unique {r r' : Except BuildError PackageGraph}
    (h : Discovers t input buildDir target trace r)
    (h' : Discovers t input buildDir target trace' r') : trace = trace' ∧ r = r' := by
  cases h with
  | refused hplace =>
      cases h' with
      | refused hplace' =>
          obtain rfl := Except.error.inj (hplace.symm.trans hplace')
          exact ⟨rfl, rfl⟩
      | stray hplace' _ => cases hplace.symm.trans hplace'
      | visited hplace' _ _ _ => cases hplace.symm.trans hplace'
  | stray hplace hdir =>
      cases h' with
      | refused hplace' => cases hplace.symm.trans hplace'
      | stray hplace' _ =>
          obtain rfl := Except.ok.inj (hplace.symm.trans hplace')
          exact ⟨rfl, rfl⟩
      | visited hplace' hdir' _ _ =>
          obtain rfl := Except.ok.inj (hplace.symm.trans hplace')
          cases hdir.symm.trans hdir'
  | visited hplace hdir hfor hrun =>
      cases h' with
      | refused hplace' => cases hplace.symm.trans hplace'
      | stray hplace' hdir' =>
          obtain rfl := Except.ok.inj (hplace.symm.trans hplace')
          cases hdir.symm.trans hdir'
      | visited hplace' _ hfor' hrun' =>
          obtain rfl := Except.ok.inj (hplace.symm.trans hplace')
          obtain rfl := hfor.unique hfor'
          obtain ⟨rfl, rfl⟩ := hrun.unique hrun'
          exact ⟨rfl, rfl⟩

/-- **Every discovery has a course** of visits. -/
theorem exists_discovers {r : Except BuildError PackageGraph}
    (h : (discoverAll t input buildDir target).Ends r) :
    ∃ trace, Discovers t input buildDir target trace r := by
  rw [discoverAll] at h
  cases hplace : t.resolve input with
  | error fault =>
      obtain rfl := ((answers_orRefused_error hplace).bind_error _).eq_of_ends h
      exact ⟨[], .refused hplace⟩
  | ok place =>
      obtain ⟨module?, hmodule⟩ := exists_answers_moduleOf t (rootOf t place).directory
      replace h := hmodule.ends_of_bind ((answers_orRefused_ok hplace).ends_of_bind h)
      replace h := (answers_tell _).ends_of_bind h
      cases hdir : t.isDirectoryAt (rootOf t place).place with
      | true =>
          rcases h.of_bind with ⟨e, he, rfl⟩ | ⟨⟨k, g⟩, hg, h⟩
          · obtain ⟨trace, hrun⟩ := exists_runs_of_enter _ [] _ _ hdir he
            exact ⟨trace, .visited hplace hdir ⟨place, module?, hplace, hmodule.ends, rfl⟩ hrun⟩
          · obtain ⟨trace, hrun⟩ := exists_runs_of_enter _ [] _ _ hdir hg
            obtain rfl := ends_pure.1 h
            exact ⟨trace, .visited hplace hdir ⟨place, module?, hplace, hmodule.ends, rfl⟩ hrun⟩
      | false =>
          have hstray : ¬ t.isDirectoryAt (rootOf t place).place = true := by simp [hdir]
          rcases h.of_bind with ⟨e, he, rfl⟩ | ⟨_, hg, -⟩
          · rw [enter, dif_neg (by simp [Way.passes])] at he
            simp only [byDirectory?, List.findIdx?_nil, dif_neg hstray, ends_throw] at he
            obtain rfl := Except.error.inj he
            exact ⟨[], .stray hplace hdir⟩
          · rw [enter, dif_neg (by simp [Way.passes])] at hg
            simp only [byDirectory?, List.findIdx?_nil, dif_neg hstray, ends_throw] at hg
            cases hg

/-- **Each visit of an input** is made while different directories are being entered. One that comes
to such a directory again is the last. -/
theorem Discovers.isActive {r : Except BuildError PackageGraph}
    (h : Discovers t input buildDir target trace r) :
    ∃ c : Discovery, c.tree = t ∧ ∀ v ∈ trace,
      c.IsActive v.way ∧ c.tree.isDirectoryAt v.arrival.place = true ∧
        (v.way.passes v.arrival.directory = true →
          v.isRead = false ∧ trace.getLast? = some v ∧
          r = .error
            (.importCycle (v.way.since v.arrival.directory ++ [v.arrival.importPath]))) := by
  cases h with
  | refused _ => exact ⟨⟨t, target, default, default⟩, rfl, by simp⟩
  | stray _ _ => exact ⟨⟨t, target, default, default⟩, rfl, by simp⟩
  | @visited c _ _ _ _ hdir hfor hrun =>
      refine ⟨c, hfor.tree_eq, fun v hv => ?_⟩
      have hactive := hrun.isActive ⟨isActive_nil, hfor.tree_eq ▸ hdir⟩ v hv
      refine ⟨hactive.1, hactive.2, fun hpasses => ?_⟩
      obtain ⟨hread, hlast, rfl⟩ := hrun.eq_cycle v hv hpasses
      exact ⟨hread, hlast, rfl⟩

/-- **No directory of an input** is read twice. -/
theorem Discovers.distinct {r : Except BuildError PackageGraph}
    (h : Discovers t input buildDir target trace r) :
    (directoriesRead trace).Pairwise (fun p q => p.same q = false) := by
  cases h with
  | refused _ => exact .nil
  | stray _ _ => exact .nil
  | visited _ _ _ hrun => exact hrun.isFresh.distinct

end Discovery

open Discovery Telling

/-- **Discovery ends, and reads no directory twice.** Its calls have one run, with a finite course
of visits. Whenever a directory is visited, the directories that are being entered are different, so
there are no more of them than directories in the tree; and so are they together with the one that
is visited, unless that is one of them. In that case the visit reads nothing, and discovery ends
with the import cycle. All directories that are read are different, however they are reached. -/
theorem discoverAll_visits (t : FileTree) (input buildDir : Path) (target : Target) :
    ∃ trace, Discovers t input buildDir target trace
        (discoverAll t input buildDir target).outcome.1 ∧
      (∀ trace' r, Discovers t input buildDir target trace' r →
        trace' = trace ∧ r = (discoverAll t input buildDir target).outcome.1) ∧
      (∀ v ∈ trace,
        (v.way.map (·.1)).Pairwise (fun p q => p.same q = false) ∧
        v.way.length ≤ t.directorySet.card ∧
        (v.way.passes v.arrival.directory = false →
          (v.way.map (·.1) ++ [v.arrival.directory]).Pairwise (fun p q => p.same q = false) ∧
          v.way.length < t.directorySet.card) ∧
        (v.way.passes v.arrival.directory = true →
          v.isRead = false ∧ trace.getLast? = some v ∧
          (discoverAll t input buildDir target).outcome.1 =
            .error (.importCycle (v.way.since v.arrival.directory ++ [v.arrival.importPath])))) ∧
      (directoriesRead trace).Pairwise (fun p q => p.same q = false) := by
  obtain ⟨trace, h⟩ := exists_discovers
    (ends_of_outcome (rfl : (discoverAll t input buildDir target).outcome.1 = _))
  obtain ⟨c, rfl, hvisits⟩ := h.isActive
  refine ⟨trace, h, fun trace' r h' => h'.unique h, fun v hv => ?_, h.distinct⟩
  obtain ⟨hactive, hdir, hcycle⟩ := hvisits v hv
  refine ⟨hactive.distinct, hactive.length_le, fun hway => ?_, hcycle⟩
  have hlonger := hactive.append hdir hway
  refine ⟨by simpa using hlonger.distinct, Nat.lt_of_succ_le ?_⟩
  simpa using hlonger.length_le

/-- A file tree in which the root imports a package, the same package through a link, and itself. -/
def linkTree : FileTree where
  entries :=
    [(["p"], ⟨.directory, 0⟩), (["p", "app"], ⟨.directory, 0⟩), (["p", "lib"], ⟨.directory, 0⟩),
      (["p", "app", "main.go"],
        ⟨.file (.text "package main\nimport (\n\"lib\"\n\"link\"\n\"app\"\n)\n") false, 0⟩),
      (["p", "lib", "lib.go"], ⟨.file (.text "package lib\n") false, 0⟩),
      (["p", "link"], ⟨.link ⟨"lib"⟩, 0⟩)]

/-- A target whose search path holds the packages. -/
def linkTarget : Target :=
  { goroot := ⟨"/g"⟩, searchPath := [⟨"/p"⟩] }

/-- The discovery of this tree. -/
def linkDiscovery : Discovery where
  tree := linkTree
  target := linkTarget
  locator := ⟨linkTarget, ⟨"/p/app"⟩, none⟩
  layout := ⟨⟨"/b"⟩⟩

/-- The course of its visits. -/
def linkTrace : List Visit :=
  [⟨[], ⟨["p", "app"], "main", false, none⟩, true⟩,
    ⟨[(⟨"/p/app"⟩, "main")], ⟨["p", "lib"], "lib", false, none⟩, true⟩,
    ⟨[(⟨"/p/app"⟩, "main")], ⟨["p", "lib"], "link", false, none⟩, false⟩,
    ⟨[(⟨"/p/app"⟩, "main")], ⟨["p", "app"], "app", false, none⟩, false⟩]

/-- The library is read under its own import path, and not again through the link. The import of
the root closes a cycle. -/
theorem discovers_linkTrace :
    Discovers linkTree ⟨"/p/app"⟩ ⟨"/b"⟩ linkTarget linkTrace
      (.error (.importCycle ["main", "app"])) := by
  let root : Package := ⟨⟨"/p/app"⟩, "main", "main", false, ["main.go"], [], none, [], []⟩
  let library : Package := ⟨⟨"/p/lib"⟩, "lib", "lib", false, ["lib.go"], [], none, [], []⟩
  let way : Way := [(⟨"/p/app"⟩, "main")]
  have hmodule : (moduleOf linkTree ⟨"/p/app"⟩).Ends (.ok none) :=
    ends_of_outcome (by decide +kernel)
  have hroot : (linkDiscovery.read ⟨["p", "app"], "main", false, none⟩ true).Ends
      (.ok (root, ["lib", "link", "app"])) :=
    ends_of_outcome (by decide +kernel)
  have hlibrary : (linkDiscovery.read ⟨["p", "lib"], "lib", false, none⟩ false).Ends
      (.ok (library, [])) :=
    ends_of_outcome (by decide +kernel)
  -- The graph as the imports of the root are followed.
  let g₀ : PackageGraph := ⟨[root], false⟩
  let g₁ : PackageGraph := ⟨[{ root with imports := [1] }, library], false⟩
  let g₂ : PackageGraph :=
    ⟨[{ root with imports := [1] }, { library with aliases := ["link"] }], false⟩
  have happ : linkDiscovery.Runs (.imports way ⟨["p", "app"], "main", false, none⟩ 0 ["app"] g₂)
      [⟨way, ⟨["p", "app"], "app", false, none⟩, false⟩]
      (.error (.importCycle ["main", "app"])) :=
    .failed (b := ⟨["p", "app"], "app", false, none⟩) (by decide +kernel)
      (.cycle (by decide +kernel))
  have hlink : linkDiscovery.Runs (.visit way ⟨["p", "lib"], "link", false, none⟩ g₁)
      [⟨way, ⟨["p", "lib"], "link", false, none⟩, false⟩] (.ok (1, g₁.addAlias 1 "link")) :=
    .again (by decide +kernel) (by decide +kernel)
  have hlib : linkDiscovery.Runs (.visit way ⟨["p", "lib"], "lib", false, none⟩ g₀)
      [⟨way, ⟨["p", "lib"], "lib", false, none⟩, true⟩]
      (.ok ((g₀.register library).1, (g₀.register library).2)) :=
    .new (by decide +kernel) (by decide +kernel) hlibrary .done
  have hg₂ : (g₁.addAlias 1 "link").addImport 0 1 = g₂ := by decide +kernel
  have hg₁ : (g₀.register library).2.addImport 0 (g₀.register library).1 = g₁ := by
    decide +kernel
  have hg₀ : (⟨[], false⟩ : PackageGraph).register root = (0, g₀) := by decide +kernel
  have hafter : linkDiscovery.Runs
      (.imports way ⟨["p", "app"], "main", false, none⟩ 0 ["lib", "link", "app"] g₀)
      linkTrace.tail (.error (.importCycle ["main", "app"])) :=
    .visited (by decide +kernel) hlib
      (hg₁ ▸ .visited (by decide +kernel) hlink (hg₂ ▸ happ))
  have hrun : linkDiscovery.Runs
      (.visit [] ⟨["p", "app"], "main", false, none⟩ ⟨[], false⟩) linkTrace
      (.error (.importCycle ["main", "app"])) :=
    .new (by decide +kernel) (by decide +kernel) hroot (by rw [hg₀]; exact hafter)
  have hplace : linkTree.resolve ⟨"/p/app"⟩ = .ok ["p", "app"] := by decide +kernel
  have harrival : rootOf linkTree ["p", "app"] = ⟨["p", "app"], "main", false, none⟩ := by
    decide +kernel
  have hgraph : linkTree.isDirectory linkTarget.archiveDir = false := by
    decide +kernel
  have hfor : linkDiscovery.IsFor linkTree ⟨"/p/app"⟩ ⟨"/b"⟩ linkTarget :=
    ⟨["p", "app"], none, hplace, by rw [harrival]; exact hmodule, by rw [harrival]; rfl⟩
  exact .visited (r := .error (.importCycle ["main", "app"])) hplace (by decide +kernel) hfor
    (by rw [harrival, hgraph]; exact hrun)

theorem discoverAll_visits_link :
    ∃ trace, Discovers linkTree ⟨"/p/app"⟩ ⟨"/b"⟩ linkTarget trace
        (.error (.importCycle ["main", "app"])) ∧
      trace.map (fun v => (v.arrival.importPath, v.isRead)) =
        [("main", true), ("lib", true), ("link", false), ("app", false)] ∧
      (directoriesRead trace).Pairwise (fun p q => p.same q = false) ∧
      ∀ v ∈ trace, v.way.length ≤ 4 := by
  obtain ⟨trace, h, hunique, hvisits, hread⟩ :=
    discoverAll_visits linkTree ⟨"/p/app"⟩ ⟨"/b"⟩ linkTarget
  obtain ⟨rfl, houtcome⟩ := hunique _ _ discovers_linkTrace
  have hcard : linkTree.directorySet.card = 4 := by decide +kernel
  exact ⟨linkTrace, houtcome ▸ h, rfl, hread, fun v hv => hcard ▸ (hvisits v hv).2.1⟩

end GoPlanner

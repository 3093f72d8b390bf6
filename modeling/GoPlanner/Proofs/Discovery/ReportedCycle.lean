import GoPlanner.Proofs.Discovery.Composed
import GoPlanner.Proofs.Discovery.Written
import Mathlib.Data.List.Chain
import Mathlib.Data.List.TakeWhile

/-!
# Import Cycles That Are Reported

Discovery reports an import cycle when an import leads to a directory that is being entered
already. The directories that are being entered form a trail from the root, on which the package
of each directory writes the import path that led to the next one, so the part of the trail from
that directory on is a cycle of imports.

## Main definitions

* `Discovery.Brings`: an import from one directory of sources to another one.
* `Discovery.IsTrail`: directories that import each other, from the root on.
* `Discovery.IsReported`: a cycle at the end of a trail.

## Main results

* `Discovery.isReported_of_enter`: the cycles that entering a directory reports.
* `discover_importCycle`: the cycle of an input.
-/

namespace GoPlanner

/-! ### Computations that report no cycle -/

namespace Telling

variable {α β : Type}

/-- **A computation reports no import cycle,** whatever else may go wrong. -/
def ReportsNoCycle (x : Telling α) : Prop :=
  ∀ cycle, ¬ x.Ends (.error (.importCycle cycle))

theorem reportsNoCycle_pure (a : α) : ReportsNoCycle (pure a) := by
  simp [ReportsNoCycle]

theorem reportsNoCycle_throw {e : BuildError} (h : ∀ cycle, e ≠ .importCycle cycle) :
    ReportsNoCycle (throw e : Telling α) := by
  intro cycle hends
  exact h cycle (Except.error.inj (ends_throw.1 hends)).symm

theorem reportsNoCycle_tell (n : Notice) : ReportsNoCycle (tell n) := by
  simp [ReportsNoCycle]

theorem ReportsNoCycle.bind {x : Telling α} {f : α → Telling β} (hx : x.ReportsNoCycle)
    (hf : ∀ a, (f a).ReportsNoCycle) : (x >>= f).ReportsNoCycle := by
  intro cycle h
  rcases h.bind_error with h | ⟨a, -, h⟩
  · exact hx cycle h
  · exact hf a cycle h

theorem isClosed_reportsNoCycle : IsClosed ReportsNoCycle where
  pure := reportsNoCycle_pure
  throw := reportsNoCycle_throw
  tell := reportsNoCycle_tell
  bind := ReportsNoCycle.bind

theorem reportsNoCycle_orRefused (p : Path) (x : Except Fault α) :
    ReportsNoCycle (orRefused p x) :=
  isClosed_reportsNoCycle.orRefused p x

end Telling

open Telling

namespace Discovery

variable {c : Discovery} {start a b : Arrival} {precompiled : Bool} {trail : List Arrival}
  {g g' : PackageGraph} {cycle : List String} {s : String}

/-- **Reading a directory** reports no import cycle. -/
theorem reportsNoCycle_read {isRoot : Bool} : (c.read a isRoot).ReportsNoCycle :=
  isClosed_reportsNoCycle.discovery_read

/-! ### Trails -/

/-- **One directory brings another one:** the package that is read in the first writes an import
path that leads to the other. -/
def Brings (c : Discovery) (start : Arrival) (precompiled : Bool) (a b : Arrival) : Prop :=
  ∃ p imports, c.Reads a (decide (a = start)) p imports ∧ p.Writes c.tree b.importPath ∧
    c.Arrives precompiled b.importPath b

/-- **A trail of imports** leads from the root through different directories. -/
structure IsTrail (c : Discovery) (start : Arrival) (precompiled : Bool) (trail : List Arrival) :
    Prop where
  /-- The root comes first. -/
  head : trail.head? = some start
  /-- Each directory brings the next one. -/
  brings : trail.IsChain (c.Brings start precompiled)
  /-- The directories are different. -/
  distinct : trail.Pairwise (fun a b => a.directory.same b.directory = false)

/-- **A reported cycle** is the end of a trail: its last directory brings the first one of the
cycle again. The import paths are those under which the directories were entered, and the one
that leads back. -/
def IsReported (c : Discovery) (start : Arrival) (precompiled : Bool) (cycle : List String) :
    Prop :=
  ∃ (before : List Arrival) (first : Arrival) (rest : List Arrival) (back : Arrival),
    c.IsTrail start precompiled (before ++ first :: rest) ∧
      c.Brings start precompiled ((first :: rest).getLast (by simp)) back ∧
      back.directory.same first.directory = true ∧
      cycle = (first :: rest).map (·.importPath) ++ [back.importPath]

/-- The way along a trail. -/
def wayOf (trail : List Arrival) : Way :=
  trail.map (fun a => (a.directory, a.importPath))

theorem wayOf_append : wayOf (trail ++ [a]) = wayOf trail ++ [(a.directory, a.importPath)] := by
  simp [wayOf]

theorem passes_wayOf {directory : Path} :
    (wayOf trail).passes directory = trail.any (fun a => a.directory.same directory) := by
  rw [wayOf, Way.passes, List.any_map]
  rfl

/-- **A trail that comes back** to one of its directories ends in a cycle. -/
theorem exists_split_of_passes {directory : Path}
    (h : (wayOf trail).passes directory = true) :
    ∃ before first rest, trail = before ++ first :: rest ∧
      first.directory.same directory = true ∧
      (wayOf trail).since directory = (first :: rest).map (·.importPath) := by
  rw [passes_wayOf] at h
  have hsince : (wayOf trail).since directory =
      (trail.dropWhile (fun a => !a.directory.same directory)).map (·.importPath) := by
    rw [wayOf, Way.since, List.dropWhile_map, List.map_map]
    rfl
  have hsplit := List.takeWhile_append_dropWhile (p := fun a => !a.directory.same directory)
    (l := trail)
  cases hdrop : trail.dropWhile (fun a => !a.directory.same directory) with
  | nil =>
      obtain ⟨a, ha, hsame⟩ := List.any_eq_true.1 h
      have hnone := List.dropWhile_eq_nil_iff.1 hdrop a ha
      simp [hsame] at hnone
  | cons first rest =>
      rw [hdrop] at hsplit hsince
      have hfirst := List.head?_dropWhile_not (fun a => !a.directory.same directory) trail
      rw [hdrop] at hfirst
      exact ⟨_, first, rest, hsplit.symm, by simpa using hfirst, hsince⟩

/-- **Where a trail goes on:** it starts with the root, or its last directory brings the next
one. -/
def GoesOn (c : Discovery) (start : Arrival) (precompiled : Bool) (trail : List Arrival)
    (a : Arrival) : Prop :=
  (trail = [] ∧ a = start) ∨
    (c.IsTrail start precompiled trail ∧ ∃ last ∈ trail.getLast?, c.Brings start precompiled last a)

/-- A trail goes on to a directory that it does not pass. -/
theorem GoesOn.isTrail (h : c.GoesOn start precompiled trail a)
    (hway : (wayOf trail).passes a.directory = false) :
    c.IsTrail start precompiled (trail ++ [a]) := by
  rcases h with ⟨rfl, rfl⟩ | ⟨htrail, last, hlast, hbrings⟩
  · exact ⟨rfl, List.isChain_singleton a, List.pairwise_singleton _ a⟩
  · rw [passes_wayOf, List.any_eq_false] at hway
    refine ⟨?_, ?_, ?_⟩
    · rw [List.head?_append, htrail.head]
      rfl
    · refine List.isChain_append.2 ⟨htrail.brings, List.isChain_singleton a, ?_⟩
      intro last' hlast' b hb
      obtain rfl : a = b := by simpa using hb
      rwa [Option.mem_unique hlast' hlast]
    · refine List.pairwise_append.2 ⟨htrail.distinct, List.pairwise_singleton _ _, ?_⟩
      intro b hb a' ha'
      obtain rfl := List.mem_singleton.1 ha'
      simpa using hway b hb

/-- The root is read as such, and no other directory of a trail is. -/
theorem IsTrail.isRoot_iff (h : c.IsTrail start precompiled (trail ++ [a])) :
    a = start ↔ trail = [] := by
  cases trail with
  | nil => simpa using h.head
  | cons first rest =>
      obtain rfl : first = start := by simpa using h.head
      have hdistinct := (List.pairwise_append.1 h.distinct).2.2 first (by simp) a (by simp)
      simp only [reduceCtorEq, iff_false]
      rintro rfl
      simp [Path.same_self] at hdistinct

/-! ### What is reported -/

/-- Following an import reports a cycle only if entering a directory does. -/
theorem exists_enter_of_follow {enter : Arrival → PackageGraph → Telling (PackageId × PackageGraph)}
    {importer : Path}
    (h : (c.follow enter importer s g).Ends (.error (.importCycle cycle))) :
    ∃ b, c.Arrives g.precompiled s b ∧ (enter b g).Ends (.error (.importCycle cycle)) := by
  rw [follow] at h
  cases hlocated : c.locator.locate c.tree s with
  | none => simp [hlocated] at h
  | some location =>
      rw [hlocated] at h
      obtain ⟨_, -, h⟩ := h.bind_error.resolve_left (by simp)
      cases location with
      | builtin => simp at h
      | archived directory archive =>
          dsimp only at h
          split at h <;> simp at h
      | source directory isInternal =>
          dsimp only at h
          split at h
          · obtain ⟨_, -, h⟩ := h.bind_error.resolve_left (by simp)
            simp at h
          · rename_i hentered
            obtain ⟨place, hplace, h⟩ :=
              h.bind_error.resolve_left (reportsNoCycle_orRefused _ _ cycle)
            refine ⟨⟨place, s, isInternal, none⟩, ⟨⟨directory, hlocated, ends_orRefused.1 hplace⟩,
              by simpa using hentered, rfl, rfl⟩, ?_⟩
            rcases h.bind_error with h | ⟨_, -, h⟩
            · exact h
            · simp at h

/-- A trail that comes back to one of its directories has a cycle at its end. -/
theorem GoesOn.isReported (h : c.GoesOn start precompiled trail a)
    (hway : (wayOf trail).passes a.directory = true) :
    c.IsReported start precompiled ((wayOf trail).since a.directory ++ [a.importPath]) := by
  rcases h with ⟨rfl, -⟩ | ⟨htrail, last, hlast, hbrings⟩
  · simp [passes_wayOf] at hway
  · obtain ⟨before, first, rest, rfl, hsame, hsince⟩ := exists_split_of_passes hway
    refine ⟨before, first, rest, a, htrail, ?_, by rwa [Path.same_comm], by rw [hsince]⟩
    rw [List.getLast?_append_of_ne_nil _ (by simp), List.getLast?_eq_some_getLast (by simp)] at hlast
    rwa [Option.mem_some_iff.1 hlast]

/-- **Entering a directory** to which a trail goes on reports a cycle of imports only. -/
theorem isReported_of_enter (h : (c.enter (wayOf trail) a g).Ends (.error (.importCycle cycle)))
    (hprecompiled : g.precompiled = precompiled) (hempty : g.isEmpty = true ↔ trail = [])
    (hgoes : c.GoesOn start precompiled trail a) : c.IsReported start precompiled cycle := by
  generalize hway : wayOf trail = way at h
  induction way, a, g using enter.induct c generalizing trail with
  | case1 way a g hpasses =>
      rw [enter, dif_pos hpasses, ends_throw] at h
      obtain rfl := BuildError.importCycle.inj (Except.error.inj h)
      subst hway
      exact hgoes.isReported hpasses
  | case2 way a g hpasses id hknown =>
      rw [enter, dif_neg hpasses, hknown] at h
      simp at h
  | case3 way a g hpasses hnew hdir ih =>
      rw [enter, dif_neg hpasses, hnew] at h
      simp only [dif_pos hdir] at h
      subst hway
      have htrail := hgoes.isTrail (by simpa using hpasses)
      obtain ⟨⟨p, imports⟩, hread, h⟩ := h.bind_error.resolve_left (reportsNoCycle_read cycle)
      have hreads := reads_of_ends hread
      have hnew' : g.byDirectory? p.directory = none := by rwa [hreads.fields.1]
      simp only [PackageGraph.register_of_new hnew'] at h
      obtain hfold | ⟨_, -, h⟩ := h.bind_error
      · obtain ⟨before, s, after, g', rfl, hbefore, hstep⟩ := hfold.foldlM_error
        -- The imports before the one that fails have been followed, and packages have been added.
        have hrun := follows_of_ends
          (fun b g k g' => enters_of_ends c (wayOf trail ++ [(a.directory, a.importPath)]) b g)
          hbefore
        have hgrows : (g.extended p).Grows g' := hrun.grows
        rw [followFrom] at hstep
        obtain ⟨_, -, hstep⟩ := hstep.bind_error.resolve_left (by simp)
        have hfollow : (c.follow
            (fun b g => c.enter (wayOf trail ++ [(a.directory, a.importPath)]) b g)
            a.directory s g').Ends (.error (.importCycle cycle)) := by
          rcases hstep.bind_error with hfollow | ⟨⟨found, g''⟩, -, hdone⟩
          · exact hfollow
          · cases found <;> simp at hdone
        obtain ⟨b, harrives, henter⟩ := exists_enter_of_follow hfollow
        have hprecompiled' : g'.precompiled = precompiled := hgrows.precompiled.trans hprecompiled
        have hsize : 0 < g'.size := hgrows.lt_size (by simp [PackageGraph.size_extended])
        refine ih b g' hprecompiled' ?_ (Or.inr ⟨htrail, a, by simp, ?_⟩) wayOf_append henter
        · simpa [PackageGraph.isEmpty] using List.ne_nil_of_length_pos hsize
        · have hroot : decide (a = start) = g.isEmpty :=
            Bool.eq_iff_iff.2 (by rw [decide_eq_true_iff, htrail.isRoot_iff, hempty])
          refine ⟨p, _, hroot ▸ hreads, ?_, ?_⟩
          · rw [harrives.importPath]
            exact hreads.mem_imports_iff.1 (by simp)
          · rw [harrives.importPath, ← hprecompiled']
            exact harrives
      · simp at h
  | case4 way a g hpasses hnew hdir =>
      rw [enter, dif_neg hpasses, hnew] at h
      simp [hdir] at h

/-- **The cycle of an input** is reported from its root on. -/
theorem isReported_of_discoverAll {t : FileTree} {input buildDir : Path} {target : Target}
    (h : (discoverAll t input buildDir target).Ends (.error (.importCycle cycle))) :
    ∃ c place, IsFor c t input buildDir target ∧ t.resolve input = .ok place ∧
      c.IsReported (rootOf t place) (t.isDirectory target.archiveDir) cycle := by
  rw [discoverAll] at h
  obtain ⟨place, hplace, h⟩ := h.bind_error.resolve_left (reportsNoCycle_orRefused _ _ cycle)
  have hmodule : (moduleOf t (rootOf t place).directory).ReportsNoCycle := by
    rw [moduleOf]
    split
    · exact (reportsNoCycle_tell _).bind fun _ => reportsNoCycle_pure _
    · exact reportsNoCycle_pure _
    · exact (reportsNoCycle_tell _).bind fun _ => reportsNoCycle_pure _
  obtain ⟨module?, hmodule?, h⟩ := h.bind_error.resolve_left (hmodule cycle)
  obtain ⟨_, -, h⟩ := h.bind_error.resolve_left (by simp)
  rcases h.bind_error with henter | ⟨_, -, h⟩
  · refine ⟨_, place, ⟨place, module?, ends_orRefused.1 hplace, hmodule?, rfl⟩,
      ends_orRefused.1 hplace, ?_⟩
    have hempty : (PackageGraph.isEmpty ⟨[], t.isDirectory target.archiveDir⟩ = true) ↔
        ([] : List Arrival) = [] := by simp [PackageGraph.isEmpty]
    refine isReported_of_enter ?_ rfl hempty (Or.inl ⟨rfl, rfl⟩)
    exact henter
  · simp at h

end Discovery

open Discovery

/-! ### The cycle of an input -/

/-- **An import cycle is reported only if there is one,** and it is the one that is named. The
directories of the cycle are different and lie on a trail from the root, which has the import
path `main`. Each was entered under the import path in the report, and the package in it writes
the next import path of the report, which leads to the next directory. The last import path
leads back to the first directory. -/
theorem discover_importCycle {t : FileTree} {input buildDir : Path} {target : Target}
    {cycle : List String}
    (h : (discover t input buildDir target).outcome.1 = .error (.importCycle cycle)) :
    ∃ c place, IsFor c t input buildDir target ∧ t.resolve input = .ok place ∧
      (rootOf t place).importPath = mainPackage ∧
      c.IsReported (rootOf t place) (t.isDirectory target.archiveDir) cycle := by
  have hends := ends_of_outcome h
  rw [discover] at hends
  have hall : (discoverAll t input buildDir target).Ends (.error (.importCycle cycle)) := by
    rcases hends.bind_error with hall | ⟨g, -, hrest⟩
    · exact hall
    · cases hdrop : g.dropStale? with
      | none => simp [hdrop, BuildError.endless] at hrest
      | some r =>
          rw [hdrop] at hrest
          rcases hrest.bind_error with htold | ⟨_, -, hdone⟩
          · cases (answers_forM_tell _ _).eq_of_ends htold
          · simp at hdone
  obtain ⟨c, place, hfor, hplace, hreported⟩ := isReported_of_discoverAll hall
  refine ⟨c, place, hfor, hplace, ?_, hreported⟩
  rw [rootOf]
  split <;> rfl

/-- A file tree in which a package that is not the root is imported again under another import
path. -/
def cycleTree : FileTree where
  entries :=
    [(["app"], ⟨.directory, 0⟩),
      (["app", "main.go"], ⟨.file (.text "package main\nimport \"a\"\n") false, 0⟩),
      (["p"], ⟨.directory, 0⟩), (["p", "a"], ⟨.directory, 0⟩), (["p", "b"], ⟨.directory, 0⟩),
      (["p", "a", "a.go"], ⟨.file (.text "package a\nimport \"b\"\n") false, 0⟩),
      (["p", "b", "b.go"], ⟨.file (.text "package b\nimport \"a/v2\"\n") false, 0⟩)]

/-- A target that finds the packages of this tree. -/
def cycleTarget : Target :=
  { goroot := ⟨"/g"⟩, searchPath := [⟨"/p"⟩] }

/-- The cycle of this tree does not lead through the root. -/
theorem discover_importCycle_cycleTree :
    ∃ c place, IsFor c cycleTree ⟨"/app"⟩ ⟨"/b"⟩ cycleTarget ∧
      cycleTree.resolve ⟨"/app"⟩ = .ok place ∧ (rootOf cycleTree place).importPath = mainPackage ∧
      c.IsReported (rootOf cycleTree place) (cycleTree.isDirectory cycleTarget.archiveDir)
        ["a", "b", "a/v2"] := by
  refine discover_importCycle ?_
  decide +kernel

end GoPlanner

import GoPlanner.Locate

/-!
# Where Imports Are Located

A location is a candidate that is there. So import paths are located alike in two file trees if
these have the same directories, and the same archives.

## Main results

* `Locator.cases_of_locate`, `Locator.isThere_of_locate`: what a location is.
* `Locator.archive_of_mem_candidates`: where archives lie.
* `Locator.locate_congr`: two trees in which import paths are located alike.
-/

namespace GoPlanner

namespace Locator

variable {l : Locator} {t t' : FileTree} {s : String} {location : Location}

/-- **A location** is known to the compiler only, or it is a candidate that is there. -/
theorem cases_of_locate (h : l.locate t s = some location) :
    location = .builtin ∨ ∃ s', location ∈ l.candidates s' ∧ location.isThere t = true := by
  induction s using Locator.locate.induct l t with
  | case1 s first hfirst =>
      rw [locate, hfirst] at h
      obtain rfl := Option.some.inj h
      rw [locateExactly] at hfirst
      split at hfirst
      · exact Or.inl (Option.some.inj hfirst).symm
      · exact Or.inr ⟨s, List.mem_of_find?_eq_some hfirst, List.find?_some hfirst⟩
  | case2 s hnone shorter hshorter ih =>
      rw [locate, hnone] at h
      dsimp only at h
      split at h
      · rename_i hshorter'
        obtain rfl := Option.some.inj (hshorter.symm.trans hshorter')
        exact ih h
      · cases h
  | case3 s hnone hlast =>
      rw [locate, hnone] at h
      dsimp only at h
      split at h
      · rename_i hshorter
        cases hlast.symm.trans hshorter
      · cases h

/-- **A location is there.** -/
theorem isThere_of_locate (h : l.locate t s = some location) : location.isThere t = true := by
  rcases cases_of_locate h with rfl | ⟨s', -, hthere⟩
  · rfl
  · exact hthere

/-- The archives of candidates lie below the directory of the archives. -/
theorem archive_of_mem_candidates {directory archive : Path}
    (h : .archived directory archive ∈ l.candidates s) :
    ∃ s', archive = l.target.archiveDir.descend (s' ++ ".a") := by
  rw [candidates, List.mem_append] at h
  rcases h with h | h
  · rw [replacing] at h
    split at h <;> simp at h
  · simp only [ordinary, List.mem_append, Option.mem_toList, Option.map_eq_some_iff,
      List.mem_cons, List.mem_map, reduceCtorEq, and_false, exists_false,
      or_false, false_or, Location.archived.injEq, List.not_mem_nil] at h
    exact ⟨_, h.2⟩

/-- **Import paths are located alike** in trees with the same directories and archives. -/
theorem locate_congr (hdirectory : ∀ p, t'.isDirectory p = t.isDirectory p)
    (hfile : ∀ s, t'.isFile (l.target.archiveDir.descend (s ++ ".a")) =
      t.isFile (l.target.archiveDir.descend (s ++ ".a"))) (s : String) :
    l.locate t' s = l.locate t s := by
  have hexactly (s : String) : l.locateExactly t' s = l.locateExactly t s := by
    rw [locateExactly, locateExactly]
    split
    · rfl
    · rw [← List.head?_filter, ← List.head?_filter]
      refine congrArg List.head? (List.filter_congr fun location hlocation => ?_)
      cases location with
      | source directory isInternal => exact hdirectory directory
      | archived directory archive =>
          obtain ⟨path, rfl⟩ := archive_of_mem_candidates hlocation
          exact hfile path
      | builtin => rfl
  induction s using Locator.locate.induct l t with
  | case1 s first hfirst => rw [locate, locate, hexactly, hfirst]
  | case2 s hnone shorter hshorter ih =>
      rw [locate, locate, hexactly, hnone]
      dsimp only
      split
      · rename_i hshorter'
        obtain rfl := Option.some.inj (hshorter.symm.trans hshorter')
        exact ih
      · rfl
  | case3 s hnone hlast =>
      rw [locate, locate, hexactly, hnone]
      dsimp only
      split
      · rename_i hshorter
        cases hlast.symm.trans hshorter
      · rfl

end Locator

end GoPlanner

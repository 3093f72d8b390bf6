import GoPlanner.Freshness
import GoPlanner.Proofs.FileTree.Write

/-!
# When an Archive Can Be Used Again

A path that can be resolved leads to something that is there, so an archive has a time as soon
as it is present.

## Main definitions

* `IsOutdated`: a package whose archive is missing or older than something in its directory.

## Main results

* `FileTree.isPresent_iff`: what is present can be resolved.
* `FileTree.usableArchive?_eq_none_iff`: when there is no archive to be used.
* `FileTree.usableArchive?_eq_some`: the archive that is used.
-/

namespace GoPlanner

namespace FileTree

variable {t : FileTree} {place : Place} {p : Path}

/-! ### What is there -/

/-- **What is present** can be resolved. -/
theorem isPresent_iff : t.isPresent p = true ↔ ∃ place, t.resolve p = .ok place := by
  rw [isPresent, find]
  cases h : t.resolve p with
  | error fault => simp
  | ok place =>
      obtain ⟨node, hnode⟩ := Option.isSome_iff_exists.1 (isSome_of_resolve h)
      simp [hnode]

/-- What is present has a time. -/
theorem exists_modified : (∃ time, t.modified p = .ok time) ↔ t.isPresent p = true := by
  rw [isPresent_iff]
  rw [modified]
  cases h : t.resolve p with
  | error fault => simp
  | ok place => simp

theorem isPresent_of_isFile (h : t.isFile p = true) : t.isPresent p = true := by
  rw [isFile] at h
  rw [isPresent]
  split at h
  · rename_i hfind
    rw [hfind]
  · cases h

/-! ### Archives -/

theorem isNewerInside_iff {time : Int} :
    t.isNewerInside place time = true ↔
      ∃ name ∈ t.names place, ∃ e, t.entry? (place ++ [name]) = some e ∧ time < e.modified := by
  rw [isNewerInside]
  rw [List.any_eq_true]
  refine exists_congr fun name => and_congr_right fun _ => ?_
  cases t.entry? (place ++ [name]) with
  | none => simp
  | some e => simp

end FileTree

/-- **A package is outdated** when its archive is missing, or something in its directory is
newer. -/
def IsOutdated (t : FileTree) (layout : Layout) (importPath : String) (directory : Path) : Prop :=
  t.isPresent (layout.archive importPath) = false ∨
    ∃ built place names, t.modified (layout.archive importPath) = .ok built ∧
      t.list directory = .ok (place, names) ∧
      ∃ name ∈ names, ∃ e, t.entry? (place ++ [name]) = some e ∧ built < e.modified

namespace FileTree

variable {t : FileTree} {layout : Layout} {importPath : String} {directory archive : Path}
  {place : Place}

/-- **Whether there is an archive to be used:** if it has a time and the directory can be
listed, that depends on the times in the directory. -/
theorem usableArchive?_cases (t : FileTree) (layout : Layout) (importPath : String)
    (directory : Path) :
    (t.usableArchive? layout importPath directory = none ∧ ∀ built place names,
      t.modified (layout.archive importPath) = .ok built →
        t.list directory = .ok (place, names) → t.isNewerInside place built = true) ∨
    ∃ built place names, t.modified (layout.archive importPath) = .ok built ∧
      t.list directory = .ok (place, names) ∧ t.isNewerInside place built = false ∧
        t.usableArchive? layout importPath directory = some (layout.archive importPath) := by
  unfold usableArchive?
  generalize layout.archive importPath = own
  generalize t.modified own = time
  generalize t.list directory = found
  cases time with
  | error fault => simp
  | ok built =>
      cases found with
      | error fault => simp
      | ok found =>
          obtain ⟨place, names⟩ := found
          cases hnewer : t.isNewerInside place built <;> simp [hnewer]

/-- The names in a list are those at its place. -/
theorem names_of_list {names : List String} (h : t.list directory = .ok (place, names)) :
    names = t.names place := by
  rw [list] at h
  split at h
  · cases h
  · obtain ⟨rfl, rfl⟩ := Prod.mk.inj (Except.ok.inj h)
    rfl
  · cases h

/-- What can be listed is a directory. -/
theorem find_of_list {names : List String} (h : t.list directory = .ok (place, names)) :
    t.find directory = .ok (place, .directory) := by
  rw [list] at h
  split at h
  · cases h
  · rename_i hfind
    obtain ⟨rfl, -⟩ := Prod.mk.inj (Except.ok.inj h)
    exact hfind
  · cases h

/-- **There is no archive to be used** exactly when the package is outdated. -/
theorem usableArchive?_eq_none_iff {found : Place × List String}
    (hlist : t.list directory = .ok found) :
    t.usableArchive? layout importPath directory = none ↔
      IsOutdated t layout importPath directory := by
  obtain ⟨place, names⟩ := found
  rcases usableArchive?_cases t layout importPath directory with
    ⟨hnone, hnewer⟩ | ⟨built, place', names', hbuilt, hlist', hnewer, hsome⟩
  · refine iff_of_true hnone ?_
    cases hpresent : t.isPresent (layout.archive importPath) with
    | false => exact Or.inl hpresent
    | true =>
        obtain ⟨built, hbuilt⟩ := exists_modified.2 hpresent
        have hinside := isNewerInside_iff.1 (hnewer built place names hbuilt hlist)
        rw [← names_of_list hlist] at hinside
        exact Or.inr ⟨built, place, names, hbuilt, hlist, hinside⟩
  · refine iff_of_false (by simp [hsome]) ?_
    rintro (hmissing | ⟨built', place'', names'', hbuilt', hlist'', hinside⟩)
    · have hpresent := exists_modified.1 ⟨built, hbuilt⟩
      rw [hmissing] at hpresent
      cases hpresent
    · obtain ⟨rfl, rfl⟩ := Prod.mk.inj (Except.ok.inj (hlist'.symm.trans hlist''))
      obtain rfl : built = built' := Except.ok.inj (hbuilt.symm.trans hbuilt')
      rw [names_of_list hlist'] at hinside
      rw [isNewerInside_iff.2 hinside] at hnewer
      cases hnewer

/-- **The archive that is used** is that of the package, and it is there. -/
theorem usableArchive?_eq_some (h : t.usableArchive? layout importPath directory = some archive) :
    archive = layout.archive importPath ∧ t.isPresent archive = true := by
  rcases usableArchive?_cases t layout importPath directory with
    ⟨hnone, -⟩ | ⟨built, -, -, hbuilt, -, -, hsome⟩
  · rw [hnone] at h
    cases h
  · obtain rfl : layout.archive importPath = archive := Option.some.inj (hsome.symm.trans h)
    exact ⟨rfl, exists_modified.1 ⟨built, hbuilt⟩⟩

end FileTree

end GoPlanner

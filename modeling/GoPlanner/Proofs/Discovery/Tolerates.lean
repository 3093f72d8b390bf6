import GoPlanner.Proofs.Discovery.Reading
import GoPlanner.Proofs.Distinct
import GoPlanner.Proofs.FileTree.Ignored

/-!
# Directories That Tolerate Ignored Files

No target admits a file whose name begins with an underscore or a dot. But the header of every Go
file is read before that, and the package clauses of all of them decide which package is meant.
So an ignored file has no influence on what is read from a directory exactly if the directory
tolerates it: the file has a header, and its package clause leaves the package that is meant.

## Main definitions

* `SourceDirectory.Tolerates`: directories whose ignored files leave a package meant.

## Main results

* `SourceDirectory.meantPackage_eq_ok_iff`: the package that is meant.
* `SourceDirectory.tolerates_of_read`: a directory that can be read tolerates its ignored files.
* `FileTree.DiffersInIgnored.read_of_tolerates`: with other ignored files a directory is read as
  before if it tolerates them.
-/

namespace GoPlanner

open Telling

/-! ### The package that is meant -/

theorem nodup_distinctSorted (names : List String) : (distinctSorted names).Nodup := by
  rw [distinctSorted, FileTree.sorted, sortedBy_perm.nodup_iff]
  exact nodup_eraseDups _

namespace SourceDirectory

variable {d : SourceDirectory} {t t' : FileTree} {target : Target} {contents : Contents}
  {name package : String} {file : GoFile} {files files' : List GoFile}
  {names asmNames asmNames' : List String} {place : Place}

/-- **The package that is meant** has a file, and all files are of this package or it has the
name that decides. -/
theorem meantPackage_eq_ok_iff : d.meantPackage files = .ok package ↔
    (∃ file ∈ files, file.package = package) ∧
      ((∀ file ∈ files, file.package = package) ∨ package = d.expectedName) := by
  have hall : (∀ file ∈ files, file.package = package) ↔
      ∀ other ∈ distinctSorted (files.map (·.package)), other = package := by
    simp [mem_distinctSorted]
  have hnodup : (distinctSorted (files.map (·.package))).Nodup := nodup_distinctSorted _
  rw [← mem_distinctSorted, hall, meantPackage]
  generalize distinctSorted (files.map (·.package)) = packages at hnodup
  rcases packages with _ | ⟨first, _ | ⟨second, rest⟩⟩
  · simp
  · simp only [Except.ok.injEq, List.mem_singleton, forall_eq]
    exact ⟨fun h => ⟨h.symm, Or.inl h⟩, fun h => h.1.symm⟩
  · have hne : first ≠ second := by
      rintro rfl
      simp at hnodup
    have hdiffer : ¬ ∀ other ∈ first :: second :: rest, other = package := by
      intro heq
      exact hne ((heq first (by simp)).trans (heq second (by simp)).symm)
    simp only [hdiffer, false_or]
    constructor
    · intro hmeant
      split at hmeant
      · rename_i hcontains
        obtain rfl := Except.ok.inj hmeant
        exact ⟨by simpa using hcontains, rfl⟩
      · cases hmeant
    · rintro ⟨hpackage, rfl⟩
      rw [if_pos (by simpa using hpackage)]

/-! ### Directories that tolerate their ignored files -/

/-- The directory has a Go file of a name. -/
def HasGoFile (d : SourceDirectory) (t : FileTree) (name : String) : Prop :=
  ∃ place names, t.list d.directory = .ok (place, names) ∧ name ∈ d.namesOf t .go names

/-- **A directory tolerates its ignored files** with regard to a package: they all have headers,
they leave this package meant, and some Go file is of the package. -/
structure Tolerates (d : SourceDirectory) (t : FileTree) (package : String) : Prop where
  /-- The package clause of an ignored file cannot be meant, or names the package, unless the
  package has the name that decides. -/
  ignored : ∀ name, d.HasGoFile t name → isIgnoredName name = true →
    ∃ file, d.goFile? t name = some file ∧
      (d.canMean file.package = true → file.package = package ∨ package = d.expectedName)
  /-- The package has a file. -/
  found : ∃ name file, d.HasGoFile t name ∧ d.goFile? t name = some file ∧ file.package = package

/-- The files that a directory shows are those under the names of Go files. -/
theorem mem_iff_of_shows (hfiles : files.map some = (d.namesOf t .go names).map (d.goFile? t)) :
    file ∈ files ↔ file.name ∈ d.namesOf t .go names ∧ d.goFile? t file.name = some file := by
  constructor
  · intro hfile
    obtain ⟨hnames, hholds⟩ := map_some_eq_iff.1 hfiles
    rw [← hnames]
    exact ⟨List.mem_map_of_mem hfile, goFile?_eq_some_iff.2 ⟨rfl, hholds file hfile⟩⟩
  · rintro ⟨hname, hgo⟩
    obtain ⟨other, hother, heq⟩ := exists_goFile_of_mem hfiles hname
    obtain rfl := Option.some.inj (heq.symm.trans hgo)
    exact hother

/-- **A directory that can be read** tolerates its ignored files. -/
theorem tolerates_of_read (hread : (d.read t target).Ends (.ok contents))
    (hall : d.onlyFile = none) : d.Tolerates t contents.name := by
  obtain ⟨files, asmNames, hshows, hselects, -⟩ := exists_of_read hread
  cases hshows with
  | only honly => cases hall.symm.trans honly
  | @all place names _ _ hlist hfiles =>
      obtain ⟨hfound, hmeant⟩ := meantPackage_eq_ok_iff.1 hselects.meant
      refine ⟨?_, ?_⟩
      · rintro name ⟨place', names', hlist', hname⟩ -
        obtain ⟨rfl, rfl⟩ := Prod.mk.inj (Except.ok.inj (hlist.symm.trans hlist'))
        obtain ⟨file, hfile, hgo⟩ := exists_goFile_of_mem hfiles hname
        refine ⟨file, hgo, fun hmeans => hmeant.imp_left fun hsame => ?_⟩
        exact hsame file (List.mem_filter.2 ⟨hfile, hmeans⟩)
      · obtain ⟨file, hfile, hpackage⟩ := hfound
        obtain ⟨hname, hgo⟩ := (mem_iff_of_shows hfiles).1 (List.mem_filter.1 hfile).1
        exact ⟨file.name, file, ⟨place, names, hlist, hname⟩, hgo, hpackage⟩

/-! ### Directories that differ in ignored files -/

/-- The files under names that are not ignored are those whose names are not ignored. -/
theorem filter_of_shows (hfiles : files.map some = (d.namesOf t .go names).map (d.goFile? t)) :
    (files.filter (fun file => !isIgnoredName file.name)).map some =
      ((d.namesOf t .go names).filter (fun name => !isIgnoredName name)).map (d.goFile? t) := by
  obtain ⟨hnames, hholds⟩ := map_some_eq_iff.1 hfiles
  refine map_some_eq_iff.2 ⟨?_, fun file hfile => hholds file (List.mem_filter.1 hfile).1⟩
  rw [← hnames, List.filter_map]
  rfl

/-- Ignored files are none of the Go files of a package. -/
theorem goFilesOf_filter (files : List GoFile) :
    goFilesOf target package (files.filter (fun file => !isIgnoredName file.name)) =
      goFilesOf target package files := by
  rw [goFilesOf, goFilesOf, List.filter_filter]
  refine List.filter_congr fun file _ => ?_
  cases hignored : isIgnoredName file.name with
  | true => simp [Target.admits_of_isIgnoredName hignored]
  | false => simp

theorem filter_admits_filter (asmNames : List String) :
    (asmNames.filter (fun name => !isIgnoredName name)).filter (t.admits target d.directory) =
      asmNames.filter (t.admits target d.directory) := by
  rw [List.filter_filter]
  refine List.filter_congr fun name _ => ?_
  cases hignored : isIgnoredName name with
  | true =>
      have hadmits : t.admits target d.directory name = false := by
        rw [FileTree.admits, Option.any_eq_false]
        exact fun src _ => by simp [Target.admits_of_isIgnoredName hignored]
      simp [hadmits]
  | false => simp

end SourceDirectory

namespace FileTree.DiffersInIgnored

variable {t t' : FileTree} {d : SourceDirectory} {target : Target} {contents : Contents}
  {name package : String} {file : GoFile} {files files' : List GoFile}
  {names asmNames : List String} {place : Place} {kind : FileKind}

/-- Go files whose names are not ignored are the same. -/
theorem goFile?_eq (h : t.DiffersInIgnored t') (hname : IsPlain name)
    (hignored : isIgnoredName name = false) : d.goFile? t' name = d.goFile? t name := by
  ext file
  rw [SourceDirectory.goFile?_eq_some_iff, SourceDirectory.goFile?_eq_some_iff]
  refine and_congr_right ?_
  rintro rfl
  simp only [SourceDirectory.Holds, h.readSource_child_iff hname hignored]

/-- The names of one kind in a directory, without ignored ones, are the same. -/
theorem filter_namesOf_eq (h : t.DiffersInIgnored t') (ht : t.IsWellFormed) (ht' : t'.IsWellFormed)
    (hkind : kind ≠ .unrelated) :
    (d.namesOf t' kind (t'.names place)).filter (fun name => !isIgnoredName name) =
      (d.namesOf t kind (t.names place)).filter (fun name => !isIgnoredName name) := by
  have hnames {t : FileTree} : (d.namesOf t kind (t.names place)).filter
      (fun name => !isIgnoredName name) =
        ((t.names place).filter (fun name => !isIgnoredName name)).filter (fun name =>
          t.isFile (d.directory.child name) && FileKind.ofName name == kind) := by
    rw [SourceDirectory.namesOf, List.filter_filter, List.filter_filter]
    exact List.filter_congr fun name _ => Bool.and_comm _ _
  rw [hnames, hnames, h.filter_names_eq ht ht']
  refine List.filter_congr fun name hname => ?_
  obtain ⟨hname, hignored⟩ := List.mem_filter.1 hname
  by_cases hofName : FileKind.ofName name = kind
  · have hplain := isPlain_of_ofName (ht.slash_notMem hname) (hofName ▸ hkind)
    rw [h.isFile_child_eq hplain (by simpa using hignored)]
  · simp [beq_false_of_ne hofName]

theorem mem_namesOf (h : t.DiffersInIgnored t') (ht : t.IsWellFormed) (ht' : t'.IsWellFormed)
    (hkind : kind ≠ .unrelated) (hname : name ∈ d.namesOf t' kind (t'.names place))
    (hignored : isIgnoredName name = false) : name ∈ d.namesOf t kind (t.names place) := by
  have hkept : name ∈ (d.namesOf t' kind (t'.names place)).filter
      (fun name => !isIgnoredName name) := List.mem_filter.2 ⟨hname, by simp [hignored]⟩
  rw [h.filter_namesOf_eq ht ht' hkind] at hkept
  exact (List.mem_filter.1 hkept).1

theorem admits_eq (h : t.DiffersInIgnored t') (hname : IsPlain name)
    (hignored : isIgnoredName name = false) :
    t'.admits target d.directory name = t.admits target d.directory name := by
  have hadmits {t : FileTree} : t.admits target d.directory name = true ↔
      ∃ src, t.readSource (d.directory.child name) = .ok src ∧ target.admits name src = true := by
    rw [FileTree.admits, Option.any_eq_true]
    refine exists_congr fun src => and_congr_left fun _ => ⟨ok_of_toOption, fun hsrc => ?_⟩
    rw [hsrc]
    rfl
  rw [Bool.eq_iff_iff, hadmits, hadmits]
  simp only [h.readSource_child_iff hname hignored]

/-- Names of source files in a directory of a well-formed tree are plain. -/
theorem isPlain_of_mem_namesOf (ht : t.IsWellFormed) (hkind : kind ≠ .unrelated)
    (hname : name ∈ d.namesOf t kind (t.names place)) : IsPlain name := by
  obtain ⟨hname, hfile⟩ := List.mem_filter.1 hname
  rw [Bool.and_eq_true, beq_iff_eq] at hfile
  exact isPlain_of_ofName (ht.slash_notMem hname) (hfile.2 ▸ hkind)

/-- **The files that a directory shows,** without ignored ones, are the same. -/
theorem filter_shows_eq (h : t.DiffersInIgnored t') (ht : t.IsWellFormed) (ht' : t'.IsWellFormed)
    (hfiles : files.map some = (d.namesOf t .go (t.names place)).map (d.goFile? t))
    (hfiles' : files'.map some = (d.namesOf t' .go (t'.names place)).map (d.goFile? t')) :
    files'.filter (fun file => !isIgnoredName file.name) =
      files.filter (fun file => !isIgnoredName file.name) := by
  refine List.map_injective_iff.2 (fun _ _ => Option.some.inj) ?_
  rw [SourceDirectory.filter_of_shows hfiles, SourceDirectory.filter_of_shows hfiles',
    h.filter_namesOf_eq ht ht' (by simp)]
  refine List.map_congr_left fun name hname => ?_
  obtain ⟨hname, hignored⟩ := List.mem_filter.1 hname
  exact h.goFile?_eq (isPlain_of_mem_namesOf ht (by simp) hname) (by simpa using hignored)

/-- **A directory that tolerates its ignored files shows** something. -/
theorem exists_shows (h : t.DiffersInIgnored t') (ht : t.IsWellFormed) (ht' : t'.IsWellFormed)
    (hlist' : t'.list d.directory = .ok (place, t'.names place))
    (hfiles : files.map some = (d.namesOf t .go (t.names place)).map (d.goFile? t))
    (htolerates : d.Tolerates t' package) :
    ∃ files' : List GoFile,
      files'.map some = (d.namesOf t' .go (t'.names place)).map (d.goFile? t') := by
  refine SourceDirectory.exists_map_some fun name hname => ?_
  cases hignored : isIgnoredName name with
  | true =>
      obtain ⟨file, hfile, -⟩ := htolerates.ignored name ⟨place, _, hlist', hname⟩ hignored
      exact ⟨file, hfile⟩
  | false =>
      have hthere := h.mem_namesOf ht ht' (by simp) hname hignored
      obtain ⟨file, -, hfile⟩ := SourceDirectory.exists_goFile_of_mem hfiles hthere
      refine ⟨file, ?_⟩
      rw [h.goFile?_eq (isPlain_of_mem_namesOf ht' (by simp) hname) hignored, hfile]

/-- Files whose names are not ignored are shown in both trees. -/
theorem mem_of_shows (h : t.DiffersInIgnored t') (ht : t.IsWellFormed) (ht' : t'.IsWellFormed)
    (hfiles : files.map some = (d.namesOf t .go (t.names place)).map (d.goFile? t))
    (hfiles' : files'.map some = (d.namesOf t' .go (t'.names place)).map (d.goFile? t'))
    (hfile : file ∈ files') (hignored : isIgnoredName file.name = false) : file ∈ files := by
  have hkept : file ∈ files'.filter (fun file => !isIgnoredName file.name) :=
    List.mem_filter.2 ⟨hfile, by simp [hignored]⟩
  rw [h.filter_shows_eq ht ht' hfiles hfiles'] at hkept
  exact (List.mem_filter.1 hkept).1

/-- **The package that is meant** stays so where ignored files are tolerated. -/
theorem meantPackage_eq (h : t.DiffersInIgnored t') (ht : t.IsWellFormed) (ht' : t'.IsWellFormed)
    (hlist' : t'.list d.directory = .ok (place, t'.names place))
    (hfiles : files.map some = (d.namesOf t .go (t.names place)).map (d.goFile? t))
    (hfiles' : files'.map some = (d.namesOf t' .go (t'.names place)).map (d.goFile? t'))
    (hselects : d.Selects t target files asmNames package) (htolerates : d.Tolerates t' package) :
    d.meantPackage (files'.filter (fun file => d.canMean file.package)) = .ok package := by
  obtain ⟨-, -, -, hmeans⟩ := hselects.exists_file
  refine SourceDirectory.meantPackage_eq_ok_iff.2 ⟨?_, ?_⟩
  · obtain ⟨name, file, ⟨place', names', hlist, hname⟩, hgo, rfl⟩ := htolerates.found
    obtain ⟨rfl, rfl⟩ := Prod.mk.inj (Except.ok.inj (hlist'.symm.trans hlist))
    obtain ⟨rfl, -⟩ := SourceDirectory.goFile?_eq_some_iff.1 hgo
    have hfile := (SourceDirectory.mem_iff_of_shows hfiles').2 ⟨hname, hgo⟩
    exact ⟨file, List.mem_filter.2 ⟨hfile, hmeans⟩, rfl⟩
  · by_cases hexpected : package = d.expectedName
    · exact Or.inr hexpected
    · refine Or.inl fun file hfile => ?_
      obtain ⟨hfile, hmeans⟩ := List.mem_filter.1 hfile
      cases hignored : isIgnoredName file.name with
      | true =>
          obtain ⟨hname, hgo⟩ := (SourceDirectory.mem_iff_of_shows hfiles').1 hfile
          obtain ⟨other, hother, hpackage⟩ :=
            htolerates.ignored file.name ⟨place, _, hlist', hname⟩ hignored
          obtain rfl := Option.some.inj (hgo.symm.trans hother)
          exact (hpackage hmeans).resolve_right hexpected
      | false =>
          have hmeant := (SourceDirectory.meantPackage_eq_ok_iff.1 hselects.meant).2
          have hthere := h.mem_of_shows ht ht' hfiles hfiles' hfile hignored
          exact hmeant.resolve_right hexpected file (List.mem_filter.2 ⟨hthere, hmeans⟩)

/-- **The package that is selected** stays so where ignored files are tolerated. -/
theorem selects (h : t.DiffersInIgnored t') (ht : t.IsWellFormed) (ht' : t'.IsWellFormed)
    (hlist' : t'.list d.directory = .ok (place, t'.names place))
    (hfiles : files.map some = (d.namesOf t .go (t.names place)).map (d.goFile? t))
    (hfiles' : files'.map some = (d.namesOf t' .go (t'.names place)).map (d.goFile? t'))
    (hselects : d.Selects t target files (d.namesOf t .assembly (t.names place)) package)
    (htolerates : d.Tolerates t' package) :
    d.Selects t' target files' (d.namesOf t' .assembly (t'.names place)) package where
  meant := h.meantPackage_eq ht ht' hlist' hfiles hfiles' hselects htolerates
  goFiles := by
    intro file hfile hpackage
    cases hignored : isIgnoredName file.name with
    | true => exact Target.decides_of_isIgnoredName hignored target file.src
    | false =>
        have hthere := h.mem_of_shows ht ht' hfiles hfiles' hfile hignored
        exact hselects.goFiles file hthere hpackage
  asmFiles := by
    intro name hname
    cases hignored : isIgnoredName name with
    | true =>
        obtain ⟨-, hfile⟩ := List.mem_filter.1 hname
        rw [Bool.and_eq_true] at hfile
        obtain ⟨src, hsrc⟩ := exists_readSource_of_isFile hfile.1
        exact ⟨src, hsrc, Target.decides_of_isIgnoredName hignored target src⟩
    | false =>
        obtain ⟨src, hsrc, hdecides⟩ :=
          hselects.asmFiles name (h.mem_namesOf ht ht' (by simp) hname hignored)
        have hplain := isPlain_of_mem_namesOf ht' (by simp) hname
        exact ⟨src, (h.readSource_child_iff hplain hignored).2 hsrc, hdecides⟩

/-- **A directory is read as before** if it tolerates its ignored files. -/
theorem read_of_tolerates (h : t.DiffersInIgnored t') (ht : t.IsWellFormed) (ht' : t'.IsWellFormed)
    (hread : (d.read t target).Ends (.ok contents)) (hall : d.onlyFile = none)
    (htolerates : d.Tolerates t' contents.name) : (d.read t' target).Ends (.ok contents) := by
  obtain ⟨files, asmNames, hshows, hselects, hcontents⟩ := SourceDirectory.exists_of_read hread
  cases hshows with
  | only honly => cases hall.symm.trans honly
  | @all place names _ _ hlist hfiles =>
      obtain ⟨hplace, hnode, rfl⟩ := list_eq_ok_iff.1 hlist
      have hlist' : t'.list d.directory = .ok (place, t'.names place) :=
        list_eq_ok_iff.2 ⟨h.resolve_directory hplace hnode, h.directory_iff.2 hnode, rfl⟩
      obtain ⟨files', hfiles'⟩ := h.exists_shows ht ht' hlist' hfiles htolerates
      have hselects' := h.selects ht ht' hlist' hfiles hfiles' hselects htolerates
      have hread' := SourceDirectory.answers_read (.all hall hlist' hfiles') hselects'
      have hgo : SourceDirectory.goFilesOf target contents.name files' =
          SourceDirectory.goFilesOf target contents.name files := by
        rw [← SourceDirectory.goFilesOf_filter files', h.filter_shows_eq ht ht' hfiles hfiles',
          SourceDirectory.goFilesOf_filter]
      have hasm : (d.namesOf t' .assembly (t'.names place)).filter (t'.admits target d.directory) =
          (d.namesOf t .assembly (t.names place)).filter (t.admits target d.directory) := by
        rw [← SourceDirectory.filter_admits_filter (t := t'),
          ← SourceDirectory.filter_admits_filter (t := t) (d.namesOf t .assembly (t.names place)),
          h.filter_namesOf_eq ht ht' (by simp)]
        refine List.filter_congr fun name hname => ?_
        obtain ⟨hname, hignored⟩ := List.mem_filter.1 hname
        exact h.admits_eq (isPlain_of_mem_namesOf ht (by simp) hname) (by simpa using hignored)
      rw [SourceDirectory.contentsOf, hgo, hasm] at hread'
      rw [hcontents]
      exact hread'.ends

end FileTree.DiffersInIgnored

end GoPlanner

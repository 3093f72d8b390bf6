import GoPlanner.Proofs.Discovery.Tolerates
import GoPlanner.Proofs.FileTree.Beside
import Mathlib.Data.List.Sort

/-!
# The Package That Is Selected

A directory that is read as a whole has candidates for some packages, one of which is selected. Of
its files only those are kept that are no test files and belong to the target. What is read is
described here by the names, headers and texts of the files, and the description leaves nothing
open: it has exactly one result.

## Main definitions

* `HasExtension`: file names with a stem and an extension.
* `SourceDirectory.IsCandidate`, `SourceDirectory.Means`: the candidates for a package, and the
  package that is meant.
* `SourceDirectory.IsAdmitted`: the files that are admitted.
* `SourceDirectory.HasContents`: the contents for a package.
* `SourceDirectory.Chooses`: what reading a directory results in.

## Main results

* `SourceDirectory.Chooses.unique`: there is one result.
* `SourceDirectory.answers_read_iff`: reading a directory has this result.
-/

namespace GoPlanner

open Telling

/-! ### Extensions -/

/-- **A file name with an extension:** a stem that is not empty, a dot, and the extension without
dots, whose case does not matter. -/
def HasExtension (name stem extension : String) : Prop :=
  stem ≠ "" ∧ ∃ written, name = stem ++ "." ++ written ∧ '.' ∉ written.toList ∧
    written.map Char.toLower = extension

variable {name stem extension written : String}

/-- A text ends with another one if that stands behind something. -/
theorem endsWith_iff {stop s : String} : endsWith stop s = true ↔ ∃ before, s = before ++ stop := by
  rw [endsWith, List.isSuffixOf_iff_suffix]
  constructor
  · rintro ⟨before, hbefore⟩
    refine ⟨String.ofList before, String.toList_inj.1 ?_⟩
    simp [hbefore]
  · rintro ⟨before, rfl⟩
    exact ⟨before.toList, by simp⟩

/-- **The extension of a name** in lower case. -/
theorem extension?_lower_iff (hne : extension ≠ "") :
    (extension? name).map (fun e => e.map Char.toLower) = some extension ↔
      ∃ stem, HasExtension name stem extension := by
  rw [extension?, Option.map_map, Option.map_eq_some_iff]
  constructor
  · rintro ⟨⟨stem, written⟩, hsplit, hlower⟩
    obtain ⟨hstem, hname, hdot⟩ := eq_append_of_splitExtension? hsplit
    exact ⟨stem, hstem, written, hname, hdot, hlower⟩
  · rintro ⟨stem, hstem, written, rfl, hdot, rfl⟩
    refine ⟨(stem, written), splitExtension?_append hstem hdot ?_, rfl⟩
    -- Two dots have an empty extension.
    intro hup
    have hparts := splitOn_append_extension stem hdot
    rw [hup] at hparts
    have hlast := congrArg List.getLast? hparts
    rw [List.getLast?_concat] at hlast
    obtain rfl : written = "" := String.toList_inj.1 (Option.some.inj hlast).symm
    exact hne (by simp)

/-- Go files and assembly files are told by their extensions in lower case. -/
theorem ofName_iff_lower (name : String) :
    (FileKind.ofName name = .go ↔
      (extension? name).map (fun e => e.map Char.toLower) = some "go") ∧
    (FileKind.ofName name = .assembly ↔
      (extension? name).map (fun e => e.map Char.toLower) = some "s") := by
  rw [FileKind.ofName]
  cases (extension? name).map (fun e => e.map Char.toLower) with
  | none => simp
  | some e =>
      by_cases hgo : e = "go"
      · simp [hgo]
      · by_cases hasm : e = "s"
        · simp [hasm]
        · simp only [hgo, hasm, if_false, Option.some.injEq, iff_false]
          split <;> simp

/-- **Go files** are those with the extension `go`. -/
theorem ofName_eq_go_iff : FileKind.ofName name = .go ↔ ∃ stem, HasExtension name stem "go" :=
  (ofName_iff_lower name).1.trans (extension?_lower_iff (by decide))

/-- **Assembly files** are those with the extension `s`. -/
theorem ofName_eq_assembly_iff :
    FileKind.ofName name = .assembly ↔ ∃ stem, HasExtension name stem "s" :=
  (ofName_iff_lower name).2.trans (extension?_lower_iff (by decide))

/-- Test files are told by the end of the stem. -/
theorem isTestFile_iff (h : HasExtension name stem extension) :
    isTestFile name = true ↔ ∃ before, stem = before ++ "_test" := by
  obtain ⟨-, written, rfl, hdot, -⟩ := h
  have hstem : fileStem (stem ++ "." ++ written) = stem := by
    obtain ⟨first, rest, hparts⟩ :=
      List.exists_cons_of_ne_nil (List.splitOn_ne_nil '.' stem.toList)
    have hdots := intercalate_dots stem
    rw [hparts] at hdots
    rw [fileStem, splitOn_append_extension stem hdot, List.dropLast_concat, hparts]
    exact hdots
  rw [isTestFile, hstem, endsWith_iff]

namespace SourceDirectory

variable {d : SourceDirectory} {t : FileTree} {target : Target} {contents contents' : Contents}
  {package package' : String} {names packages : List String} {files : List GoFile}
  {result result' : Except BuildError Contents}

/-! ### Candidates -/

/-- **A candidate for a package** is a Go file with this package clause. No external test is a
candidate, and a program is only as the root. -/
structure IsCandidate (d : SourceDirectory) (t : FileTree) (package name : String) : Prop where
  /-- It is a file. -/
  isFile : t.isFile (d.directory.child name) = true
  /-- It is a Go file. -/
  extension : ∃ stem, HasExtension name stem "go"
  /-- Its header has the package clause. -/
  header : ∃ header, t.header? (d.directory.child name) = some header ∧ header.package = package
  /-- The package is no external test. -/
  test : ∀ before, package ≠ before ++ "_test"
  /-- The package is no program but as the root. -/
  main : package = mainPackage → d.isRoot = true

/-- Some file is a candidate for a package. -/
def HasCandidate (d : SourceDirectory) (t : FileTree) (names : List String) (package : String) :
    Prop :=
  ∃ name ∈ names, d.IsCandidate t package name

/-- **A package is meant** if it has candidates, and it is the only one that has or the one with the
expected name. -/
structure Means (d : SourceDirectory) (t : FileTree) (names : List String) (package : String) :
    Prop where
  /-- It has candidates. -/
  hasCandidate : d.HasCandidate t names package
  /-- It is the only one, or the expected one. -/
  decided : (∀ other, d.HasCandidate t names other → other = package) ∨ package = d.expectedName

/-- **One package at most is meant.** -/
theorem Means.unique (h : d.Means t names package) (h' : d.Means t names package') :
    package = package' := by
  rcases h.decided with honly | rfl
  · exact (honly _ h'.hasCandidate).symm
  · rcases h'.decided with honly | rfl
    · exact honly _ h.hasCandidate
    · rfl

theorem canMean_iff : d.canMean package = true ↔
    (∀ before, package ≠ before ++ "_test") ∧ (package = mainPackage → d.isRoot = true) := by
  rw [canMean, Bool.and_eq_true, Bool.not_eq_true', ← Bool.not_eq_true, endsWith_iff, not_exists,
    and_comm, Bool.or_eq_true, bne_iff_ne]
  exact and_congr_right fun _ => by tauto

/-! ### Admission -/

/-- **A file is admitted** if its stem does not end in `_test`, and its name and its text belong to
the target. -/
def IsAdmitted (d : SourceDirectory) (t : FileTree) (target : Target) (name : String) : Prop :=
  ∃ stem extension src, HasExtension name stem extension ∧ (∀ before, stem ≠ before ++ "_test") ∧
    t.readSource (d.directory.child name) = .ok src ∧ target.includes name src = .ok true

theorem isAdmitted_iff (h : HasExtension name stem extension) :
    d.IsAdmitted t target name ↔ t.admits target d.directory name = true := by
  rw [FileTree.admits, Option.any_eq_true]
  constructor
  · rintro ⟨stem', extension', src, hname, htest, hsrc, hincludes⟩
    refine ⟨src, by rw [hsrc]; rfl, ?_⟩
    have hplain : isTestFile name = false := by
      rw [← Bool.not_eq_true, isTestFile_iff hname]
      exact not_exists.2 htest
    rw [Target.admits, hplain, hincludes]
    rfl
  · rintro ⟨src, hsrc, hadmits⟩
    rw [Target.admits, Bool.and_eq_true, Bool.not_eq_true', ← Bool.not_eq_true, isTestFile_iff h,
      not_exists, beq_iff_eq] at hadmits
    exact ⟨stem, extension, src, h, hadmits.1, ok_of_toOption hsrc, ok_of_toOption hadmits.2⟩

/-! ### Results -/

open Classical in
/-- **The contents for a package:** the candidates and the assembly files that are admitted, in the
order of their names, and the import paths of the former, each where it stands first. -/
structure HasContents (d : SourceDirectory) (t : FileTree) (target : Target) (names : List String)
    (package : String) (contents : Contents) : Prop where
  /-- The name is that of the package. -/
  name : contents.name = package
  /-- The Go files are the candidates that are admitted. -/
  goFiles : contents.goFiles =
    names.filter (fun name => d.IsCandidate t package name ∧ d.IsAdmitted t target name)
  /-- They are in the order of their names. -/
  sorted : contents.goFiles.Pairwise (· ≤ ·)
  /-- The imports are those of the Go files. -/
  imports : contents.imports =
    ((contents.goFiles.map d.directory.child).flatMap t.importsIn).eraseDups
  /-- The assembly files are those that are admitted. -/
  asmFiles : contents.asmFiles = names.filter (fun name =>
    t.isFile (d.directory.child name) = true ∧ (∃ stem, HasExtension name stem "s") ∧
      d.IsAdmitted t target name)
  /-- They are in the order of their names. -/
  asmSorted : contents.asmFiles.Pairwise (· ≤ ·)

theorem HasContents.unique (h : d.HasContents t target names package contents)
    (h' : d.HasContents t target names package contents') : contents = contents' := by
  obtain ⟨name, goFiles, asmFiles, imports⟩ := contents
  obtain ⟨name', goFiles', asmFiles', imports'⟩ := contents'
  obtain rfl : name = name' := h.name.trans h'.name.symm
  obtain rfl : goFiles = goFiles' := h.goFiles.trans h'.goFiles.symm
  obtain rfl : asmFiles = asmFiles' := h.asmFiles.trans h'.asmFiles.symm
  obtain rfl : imports = imports' := h.imports.trans h'.imports.symm
  rfl

/-- **What reading a directory as a whole results in:** an error if no package or too many have
candidates, else the contents for the package that is meant. -/
inductive Chooses (d : SourceDirectory) (t : FileTree) (target : Target) (names : List String) :
    Except BuildError Contents → Prop
  | empty (hempty : ∀ package, ¬ d.HasCandidate t names package) :
      Chooses d t target names (.error (.emptyPackage d.importPath d.directory))
  | ambiguous {packages : List String}
      (hpackages : ∀ package, package ∈ packages ↔ d.HasCandidate t names package)
      (hsorted : packages.Pairwise (· < ·)) (hseveral : 1 < packages.length)
      (hexpected : d.expectedName ∉ packages) :
      Chooses d t target names (.error (.ambiguousPackage d.importPath d.directory packages))
  | selected {package : String} {contents : Contents} (hmeans : d.Means t names package)
      (hcontents : d.HasContents t target names package contents) :
      Chooses d t target names (.ok contents)

section Several

variable (hpackages : ∀ package, package ∈ packages ↔ d.HasCandidate t names package)
  (hseveral : 1 < packages.length)

include hpackages hseveral

theorem exists_candidate_of_several : ∃ package, d.HasCandidate t names package := by
  obtain ⟨first, hfirst⟩ := List.exists_mem_of_length_pos (Nat.zero_lt_of_lt hseveral)
  exact ⟨first, (hpackages first).1 hfirst⟩

/-- No package is meant if several have candidates, none of them with the expected name. -/
theorem not_means_of_several (hsorted : packages.Pairwise (· < ·))
    (hexpected : d.expectedName ∉ packages) : ¬ d.Means t names package := by
  rintro ⟨hcandidate, honly | rfl⟩
  · rcases packages with _ | ⟨first, _ | ⟨second, rest⟩⟩
    · cases hseveral
    · exact absurd hseveral (Nat.lt_irrefl 1)
    · have hlt : first < second := (List.pairwise_cons.1 hsorted).1 second (by simp)
      obtain rfl := honly first ((hpackages first).1 (by simp))
      obtain rfl := honly second ((hpackages second).1 (by simp))
      exact String.lt_irrefl _ hlt
  · exact hexpected ((hpackages _).2 hcandidate)

end Several

/-- **There is one result.** -/
theorem Chooses.unique (h : d.Chooses t target names result)
    (h' : d.Chooses t target names result') : result = result' := by
  cases h with
  | empty hempty =>
      cases h' with
      | empty _ => rfl
      | ambiguous hpackages _ hseveral _ =>
          exact absurd (exists_candidate_of_several hpackages hseveral) (not_exists.2 hempty)
      | selected hmeans _ => exact absurd hmeans.hasCandidate (hempty _)
  | ambiguous hpackages hsorted hseveral hexpected =>
      cases h' with
      | empty hempty =>
          exact absurd (exists_candidate_of_several hpackages hseveral) (not_exists.2 hempty)
      | ambiguous hpackages' hsorted' _ _ =>
          have hmem (package : String) := (hpackages package).trans (hpackages' package).symm
          rw [hsorted.eq_of_mem_iff hsorted' hmem]
      | selected hmeans _ =>
          exact absurd hmeans (not_means_of_several hpackages hseveral hsorted hexpected)
  | selected hmeans hcontents =>
      cases h' with
      | empty hempty => exact absurd hmeans.hasCandidate (hempty _)
      | ambiguous hpackages hsorted hseveral hexpected =>
          exact absurd hmeans (not_means_of_several hpackages hseveral hsorted hexpected)
      | selected hmeans' hcontents' =>
          obtain rfl := hmeans.unique hmeans'
          rw [hcontents.unique hcontents']

/-! ### Files that are shown -/

/-- A file that has a header has the package clause of that header. -/
theorem goFile?_package (d : SourceDirectory) (t : FileTree) (name : String) :
    (d.goFile? t name).map (·.package) =
      (t.header? (d.directory.child name)).map (·.package) := by
  rw [goFile?, FileTree.header?, Option.map_bind, Option.map_bind]
  simp [Function.comp_def]

/-- **The candidates** are the Go files that are read with a package that can be meant. -/
theorem isCandidate_iff : d.IsCandidate t package name ↔
    (t.isFile (d.directory.child name) && FileKind.ofName name == .go) = true ∧
      (∃ file, d.goFile? t name = some file ∧ file.package = package) ∧
        d.canMean package = true := by
  have hheader : (∃ file, d.goFile? t name = some file ∧ file.package = package) ↔
      ∃ header, t.header? (d.directory.child name) = some header ∧ header.package = package := by
    rw [← Option.map_eq_some_iff, goFile?_package, Option.map_eq_some_iff]
  rw [Bool.and_eq_true, beq_iff_eq, ofName_eq_go_iff, hheader, canMean_iff]
  constructor
  · rintro ⟨hfile, hextension, hheader, htest, hmain⟩
    exact ⟨⟨hfile, hextension⟩, hheader, htest, hmain⟩
  · rintro ⟨⟨hfile, hextension⟩, hheader, htest, hmain⟩
    exact ⟨hfile, hextension, hheader, htest, hmain⟩

theorem pairwise_distinctSorted (names : List String) :
    (distinctSorted names).Pairwise (· < ·) := by
  have hsorted : (distinctSorted names).Pairwise (· ≤ ·) := FileTree.pairwise_sorted _
  refine (hsorted.and (nodup_distinctSorted names)).imp fun {a b} h => ?_
  exact String.not_le.1 fun hle => h.2 (String.le_antisymm h.1 hle)

section Shown

variable (hfiles : files.map some = (d.namesOf t .go names).map (d.goFile? t))

include hfiles

/-- The packages with candidates are those of the files that are shown and can be meant. -/
theorem hasCandidate_iff : d.HasCandidate t names package ↔
    ∃ file ∈ files.filter (fun file => d.canMean file.package), file.package = package := by
  constructor
  · rintro ⟨name, hname, hcandidate⟩
    obtain ⟨hkind, ⟨file, hfile, rfl⟩, hmeans⟩ := isCandidate_iff.1 hcandidate
    obtain ⟨rfl, -⟩ := goFile?_eq_some_iff.1 hfile
    have hshown := (mem_iff_of_shows hfiles).2 ⟨List.mem_filter.2 ⟨hname, hkind⟩, hfile⟩
    exact ⟨file, List.mem_filter.2 ⟨hshown, hmeans⟩, rfl⟩
  · rintro ⟨file, hfile, rfl⟩
    obtain ⟨hshown, hmeans⟩ := List.mem_filter.1 hfile
    obtain ⟨hname, hgo⟩ := (mem_iff_of_shows hfiles).1 hshown
    obtain ⟨hname, hkind⟩ := List.mem_filter.1 hname
    exact ⟨file.name, hname, isCandidate_iff.2 ⟨hkind, ⟨file, hgo, rfl⟩, hmeans⟩⟩

/-- **The package that is meant** is found. -/
theorem means_iff : d.Means t names package ↔
    d.meantPackage (files.filter (fun file => d.canMean file.package)) = .ok package := by
  have hcandidate {other : String} : d.HasCandidate t names other ↔ _ := hasCandidate_iff hfiles
  rw [meantPackage_eq_ok_iff, ← hcandidate]
  have honly : (∀ other, d.HasCandidate t names other → other = package) ↔
      ∀ file ∈ files.filter (fun file => d.canMean file.package), file.package = package := by
    simp only [hcandidate]
    exact ⟨fun h file hfile => h _ ⟨file, hfile, rfl⟩,
      fun h other ⟨file, hfile, heq⟩ => heq ▸ h file hfile⟩
  rw [← honly]
  exact ⟨fun h => ⟨h.hasCandidate, h.decided⟩, fun h => ⟨h.1, h.2⟩⟩

/-- **An error is found** if no package can be meant. -/
theorem chooses_of_error {e : BuildError}
    (h : d.meantPackage (files.filter (fun file => d.canMean file.package)) = .error e) :
    d.Chooses t target names (.error e) := by
  have hmem (package : String) : _ ↔ d.HasCandidate t names package :=
    mem_distinctSorted.trans (hasCandidate_iff hfiles).symm
  have hsorted := pairwise_distinctSorted
    ((files.filter (fun file => d.canMean file.package)).map (·.package))
  rw [meantPackage] at h
  generalize distinctSorted _ = packages at h hmem hsorted
  rcases packages with _ | ⟨first, _ | ⟨second, rest⟩⟩
  · cases h
    exact .empty fun package hcandidate => List.not_mem_nil ((hmem package).2 hcandidate)
  · cases h
  · dsimp only at h
    split at h
    · cases h
    · rename_i hexpected
      cases h
      exact .ambiguous hmem hsorted (by simp) (by simpa using hexpected)

end Shown

/-! ### Reading -/

theorem isGoFileOf_iff (hmeans : d.canMean package = true) :
    t.isGoFileOf target d.directory package name = true ↔
      d.IsCandidate t package name ∧ d.IsAdmitted t target name := by
  obtain ⟨htest, hmain⟩ := canMean_iff.1 hmeans
  rw [FileTree.isGoFileOf, Bool.and_eq_true, Bool.and_eq_true, Bool.and_eq_true, beq_iff_eq,
    ofName_eq_go_iff, Option.any_eq_true]
  simp only [beq_iff_eq]
  constructor
  · rintro ⟨⟨⟨hfile, stem, hgo⟩, hheader⟩, hadmits⟩
    exact ⟨⟨hfile, ⟨stem, hgo⟩, hheader, htest, hmain⟩, (isAdmitted_iff hgo).2 hadmits⟩
  · rintro ⟨⟨hfile, ⟨stem, hgo⟩, hheader, -, -⟩, hadmitted⟩
    exact ⟨⟨⟨hfile, stem, hgo⟩, hheader⟩, (isAdmitted_iff hgo).1 hadmitted⟩

theorem isAsmFile_iff : (t.admits target d.directory name &&
    (t.isFile (d.directory.child name) && FileKind.ofName name == .assembly)) = true ↔
      t.isFile (d.directory.child name) = true ∧ (∃ stem, HasExtension name stem "s") ∧
        d.IsAdmitted t target name := by
  rw [Bool.and_eq_true, Bool.and_eq_true, beq_iff_eq, ofName_eq_assembly_iff]
  constructor
  · rintro ⟨hadmits, hfile, stem, hasm⟩
    exact ⟨hfile, ⟨stem, hasm⟩, (isAdmitted_iff hasm).2 hadmits⟩
  · rintro ⟨hfile, ⟨stem, hasm⟩, hadmitted⟩
    exact ⟨(isAdmitted_iff hasm).1 hadmitted, hfile, stem, hasm⟩

/-- **The contents that are read** are those for the package that they name. -/
theorem hasContents_of_read (hread : (d.read t target).Ends (.ok contents))
    (hall : d.onlyFile = none) {place : Place} (hlist : t.list d.directory = .ok (place, names)) :
    d.HasContents t target names contents.name contents := by
  classical
  obtain ⟨place', names', hlist', hgo, -⟩ := files_of_directory hread hall
  obtain ⟨rfl, rfl⟩ := Prod.mk.inj (Except.ok.inj (hlist.symm.trans hlist'))
  obtain ⟨files, asmNames, hshows, hselects, hcontents⟩ := exists_of_read hread
  obtain ⟨-, -, -, hmeans⟩ := hselects.exists_file
  have hnames : names.Pairwise (· ≤ ·) := by
    rw [FileTree.names_of_list hlist]
    exact FileTree.pairwise_names _ _
  have hasm : contents.asmFiles =
      (d.namesOf t .assembly names).filter (t.admits target d.directory) := by
    cases hshows with
    | only honly => cases hall.symm.trans honly
    | all _ hlist' _ =>
        obtain ⟨rfl, rfl⟩ := Prod.mk.inj (Except.ok.inj (hlist.symm.trans hlist'))
        exact congrArg Contents.asmFiles hcontents
  refine ⟨rfl, ?_, ?_, imports_eq hread, ?_, ?_⟩
  · rw [hgo]
    refine List.filter_congr fun name _ => ?_
    rw [Bool.eq_iff_iff, decide_eq_true_iff, isGoFileOf_iff hmeans]
  · rw [hgo]
    exact hnames.filter _
  · rw [hasm, namesOf, List.filter_filter]
    refine List.filter_congr fun name _ => ?_
    rw [Bool.eq_iff_iff, decide_eq_true_iff, isAsmFile_iff]
  · rw [hasm, namesOf]
    exact (hnames.filter _).filter _

/-- **A directory is readable** if its Go files have headers, and the target decides about the files
that are consulted. -/
structure IsReadable (d : SourceDirectory) (t : FileTree) (target : Target) (names : List String) :
    Prop where
  /-- All Go files have headers. -/
  headers : ∀ name ∈ names, t.isFile (d.directory.child name) = true →
    (∃ stem, HasExtension name stem "go") →
      ∃ header, t.header? (d.directory.child name) = some header
  /-- Test files apart, no candidate for the package that is meant and no assembly file has a
  malformed constraint. -/
  constraints : ∀ package, d.Means t names package → ∀ name ∈ names,
    d.IsCandidate t package name ∨ (∃ stem, HasExtension name stem "s") →
      ∀ src, t.readSource (d.directory.child name) = .ok src → target.Decides name src

/-- Being readable can be checked file by file. -/
theorem isReadable_of_all (h : names.all (fun name =>
    (FileKind.ofName name != .go || (t.header? (d.directory.child name)).isSome) &&
      (t.readSource (d.directory.child name)).toOption.all (fun src =>
        isTestFile name || (target.includes name src).toOption.isSome)) = true) :
    d.IsReadable t target names := by
  have hname (name : String) (hname : name ∈ names) := List.all_eq_true.1 h name hname
  constructor
  · intro name hmem _ hextension
    have hheader := (Bool.and_eq_true_iff.1 (hname name hmem)).1
    rw [← ofName_eq_go_iff] at hextension
    simpa [hextension, Option.isSome_iff_exists] using hheader
  · intro _ _ name hmem _ src hsrc
    have hdecides := (Bool.and_eq_true_iff.1 (hname name hmem)).2
    rw [hsrc] at hdecides
    rcases Bool.or_eq_true_iff.1 hdecides with htest | hincludes
    · exact Or.inl htest
    · obtain ⟨admitted, hadmitted⟩ := Option.isSome_iff_exists.1 hincludes
      exact Or.inr ⟨admitted, ok_of_toOption hadmitted⟩

namespace IsReadable

theorem exists_files (h : d.IsReadable t target names) :
    ∃ files : List GoFile, files.map some = (d.namesOf t .go names).map (d.goFile? t) := by
  refine exists_map_some fun name hname => ?_
  obtain ⟨hname, hkind⟩ := List.mem_filter.1 hname
  rw [Bool.and_eq_true, beq_iff_eq, ofName_eq_go_iff] at hkind
  obtain ⟨header, hheader⟩ := h.headers name hname hkind.1 hkind.2
  have hpackage := goFile?_package d t name
  rw [hheader, Option.map_some, Option.map_eq_some_iff] at hpackage
  obtain ⟨file, hfile, -⟩ := hpackage
  exact ⟨file, hfile⟩

/-- The package that is meant can be selected. -/
theorem selects (h : d.IsReadable t target names)
    (hfiles : files.map some = (d.namesOf t .go names).map (d.goFile? t))
    (hmeans : d.Means t names package) :
    d.Selects t target files (d.namesOf t .assembly names) package where
  meant := (means_iff hfiles).1 hmeans
  goFiles := by
    rintro file hfile rfl
    obtain ⟨hname, hgo⟩ := (mem_iff_of_shows hfiles).1 hfile
    obtain ⟨hname, hkind⟩ := List.mem_filter.1 hname
    obtain ⟨-, header, hsrc, -⟩ := goFile?_eq_some_iff.1 hgo
    obtain ⟨_, -, hcandidate⟩ := hmeans.hasCandidate
    have hcan := canMean_iff.2 ⟨hcandidate.test, hcandidate.main⟩
    have hfile := isCandidate_iff.2 ⟨hkind, ⟨file, hgo, rfl⟩, hcan⟩
    exact h.constraints _ hmeans file.name hname (Or.inl hfile) file.src hsrc
  asmFiles := by
    intro name hname
    obtain ⟨hname, hkind⟩ := List.mem_filter.1 hname
    rw [Bool.and_eq_true, beq_iff_eq, ofName_eq_assembly_iff] at hkind
    obtain ⟨src, hsrc⟩ := FileTree.exists_readSource_of_isFile hkind.1
    exact ⟨src, hsrc, h.constraints package hmeans name hname (Or.inr hkind.2) src hsrc⟩

theorem exists_answers (h : d.IsReadable t target names) (hall : d.onlyFile = none)
    {place : Place} (hlist : t.list d.directory = .ok (place, names)) :
    ∃ result, (d.read t target).Answers result ∧ d.Chooses t target names result := by
  obtain ⟨files, hfiles⟩ := h.exists_files
  have hshows : d.Shows t files (d.namesOf t .assembly names) := .all hall hlist hfiles
  cases hmeant : d.meantPackage (files.filter (fun file => d.canMean file.package)) with
  | error e => exact ⟨_, answers_read_error hshows hmeant, chooses_of_error hfiles hmeant⟩
  | ok package =>
      have hmeans := (means_iff hfiles).2 hmeant
      have hread := answers_read hshows (h.selects hfiles hmeans)
      exact ⟨_, hread, .selected hmeans (hasContents_of_read hread.ends hall hlist)⟩

end IsReadable

/-- **Reading a directory as a whole** results in what is chosen by the names, headers and texts of
its files. -/
theorem answers_read_iff (h : d.IsReadable t target names) (hall : d.onlyFile = none)
    {place : Place} (hlist : t.list d.directory = .ok (place, names))
    (result : Except BuildError Contents) :
    (d.read t target).Answers result ↔ d.Chooses t target names result := by
  obtain ⟨result', hanswers, hchooses⟩ := h.exists_answers hall hlist
  constructor
  · intro hresult
    rwa [hanswers.eq_of_ends hresult.ends]
  · intro hresult
    rwa [hresult.unique hchooses]

/-! ### Files of several packages and targets -/

/-- A directory with Go files of several packages, and with files of other targets. -/
def mixedTree : FileTree where
  entries := [(["app"], ⟨.directory, 0⟩),
    (["app", "add_amd64.s"], ⟨.file (.text "") false, 0⟩),
    (["app", "add_arm64.s"], ⟨.file (.text "") false, 0⟩),
    (["app", "main.go"], ⟨.file (.text "package main\n\nimport \"unsafe\"\n") false, 0⟩),
    (["app", "main_test.go"], ⟨.file (.text "package main_test\n") false, 0⟩),
    (["app", "main_windows.go"], ⟨.file (.text "package main\n") false, 0⟩),
    (["app", "tool.go"], ⟨.file (.text "package tool\n") false, 0⟩)]

def mixedNames : List String :=
  ["add_amd64.s", "add_arm64.s", "main.go", "main_test.go", "main_windows.go", "tool.go"]

/-- The directory as the root package. -/
def mixedDirectory : SourceDirectory :=
  { directory := ⟨"/app"⟩, importPath := mainPackage, isRoot := true }

def mixedTarget : Target :=
  { goroot := ⟨"/g"⟩ }

def mixedContents : Contents :=
  ⟨mainPackage, ["main.go"], ["add_amd64.s"], ["unsafe"]⟩

theorem list_mixedTree : mixedTree.list mixedDirectory.directory = .ok (["app"], mixedNames) := by
  decide +kernel

theorem isReadable_mixedTree : mixedDirectory.IsReadable mixedTree mixedTarget mixedNames :=
  isReadable_of_all (by decide +kernel)

theorem answers_mixedTree :
    (mixedDirectory.read mixedTree mixedTarget).Answers (.ok mixedContents) := by
  obtain ⟨result, hanswers, -⟩ := isReadable_mixedTree.exists_answers rfl list_mixedTree
  have hends : (mixedDirectory.read mixedTree mixedTarget).Ends (.ok mixedContents) :=
    ends_of_outcome (by decide +kernel)
  rwa [hanswers.eq_of_ends hends]

theorem chooses_mixedTree : mixedDirectory.IsReadable mixedTree mixedTarget mixedNames ∧
    mixedDirectory.onlyFile = none ∧
    mixedTree.list mixedDirectory.directory = .ok (["app"], mixedNames) ∧
    mixedDirectory.Chooses mixedTree mixedTarget mixedNames (.ok mixedContents) :=
  ⟨isReadable_mixedTree, rfl, list_mixedTree,
    (answers_read_iff isReadable_mixedTree rfl list_mixedTree _).1 answers_mixedTree⟩

/-- **Not every assembly file** of the directory is one of the package. -/
theorem asmFiles_mixedTree_ne_all : mixedDirectory.IsReadable mixedTree mixedTarget mixedNames ∧
    mixedDirectory.onlyFile = none ∧
    mixedTree.list mixedDirectory.directory = .ok (["app"], mixedNames) ∧
    (mixedDirectory.read mixedTree mixedTarget).Answers (.ok mixedContents) ∧
    ¬ ∀ name, name ∈ mixedContents.asmFiles ↔ name ∈ mixedNames ∧
      mixedTree.isFile (mixedDirectory.directory.child name) = true ∧
        ∃ stem, HasExtension name stem "s" := by
  refine ⟨isReadable_mixedTree, rfl, list_mixedTree, answers_mixedTree, fun hall => ?_⟩
  have harm : "add_arm64.s" ∈ mixedContents.asmFiles :=
    (hall _).2 ⟨by decide, by decide +kernel, ofName_eq_assembly_iff.1 (by decide +kernel)⟩
  exact absurd harm (by decide)

end SourceDirectory

end GoPlanner

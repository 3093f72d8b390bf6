import GoPlanner.Proofs.Discovery.Complete
import GoPlanner.Proofs.FileTree.Freshness

/-!
# The Files and Imports of Packages

The Go files of a package are those in its directory that have its name in their headers and
that the target admits, in the order of their names. The import paths of a package come in the
order of these files and of their headers, each where it stands first.

## Main definitions

* `FileTree.IsWellFormed`: trees in which every place has one entry, and names have no slash.
* `FileTree.importsIn`, `Package.written`: the import paths in a file and in a package.
* `FileTree.isGoFileOf`: the Go files of a package in a directory.
* `SourceDirectory.Sees`: what has been seen when some files have been looked at.
* `SourceDirectory.Selects`, `SourceDirectory.contentsOf`: the package that is selected, and the
  contents of the directory.
* `Discovery.HasGoFiles`: packages with the Go files that are theirs.

## Main results

* `FileTree.pairwise_names`, `FileTree.IsWellFormed.nodup_names`: the names in a directory.
* `SourceDirectory.Sees.lookAtAll`: what looking at files gives.
* `SourceDirectory.read_of_ends`: what reading a directory gives.
* `Discovery.Complete.hasGoFiles`, `Discovery.Complete.imports_eq`: the files and import paths
  of a package.
-/

namespace GoPlanner

open Telling

namespace FileTree

variable {t : FileTree} {place : Place} {name s : String} {file : Path}

/-! ### Names -/

theorem pairwise_sorted (names : List String) : (sorted names).Pairwise (· ≤ ·) := by
  have hpairwise : (sorted names).Pairwise (fun a b => decide (a ≤ b) = true) := by
    refine pairwise_sortedBy ?_ ?_
    · intro a b c hab hbc
      simp only [decide_eq_true_eq] at hab hbc ⊢
      exact String.le_trans hab hbc
    · intro a b
      simpa using String.le_total a b
  exact hpairwise.imp fun h => of_decide_eq_true h

/-- **The names in a directory are in order.** -/
theorem pairwise_names (t : FileTree) (place : Place) : (t.names place).Pairwise (· ≤ ·) :=
  pairwise_sorted _

/-- **A tree is well-formed** when every place has one entry at most, and no name has a
slash. -/
structure IsWellFormed (t : FileTree) : Prop where
  /-- No place has two entries. -/
  nodup : (t.entries.map (·.1)).Nodup
  /-- Names have no slash. -/
  slash : ∀ e ∈ t.entries, ∀ name ∈ e.1, '/' ∉ name.toList

/-- The name that a place has in a directory. -/
theorem nameAt_eq_some_iff {other : Place} :
    (if other ≠ [] && other.dropLast = place then other.getLast? else none) = some name ↔
      other = place ++ [name] := by
  constructor
  · intro h
    split at h
    · rename_i hplace
      simp only [ne_eq, decide_not, Bool.and_eq_true, Bool.not_eq_true',
        decide_eq_false_iff_not, decide_eq_true_eq] at hplace
      obtain ⟨hne, rfl⟩ := hplace
      rw [List.getLast?_eq_some_getLast hne] at h
      rw [← Option.some.inj h, List.dropLast_append_getLast]
    · cases h
  · rintro rfl
    simp

/-- The names in a directory are those of its entries. -/
theorem mem_names_iff : name ∈ t.names place ↔ ∃ e ∈ t.entries, e.1 = place ++ [name] := by
  rw [names, sorted, mem_sortedBy, List.mem_filterMap]
  exact exists_congr fun e => and_congr_right fun _ => nameAt_eq_some_iff

/-- **No name is there twice** in a well-formed tree. -/
theorem IsWellFormed.nodup_names (h : t.IsWellFormed) (place : Place) :
    (t.names place).Nodup := by
  rw [names, sorted, sortedBy_perm.nodup_iff]
  have hentries : t.entries.Pairwise (fun e e' => e.1 ≠ e'.1) := List.pairwise_map.1 h.nodup
  refine List.Pairwise.filterMap _ ?_ hentries
  rintro e e' hne name hname _ hname' rfl
  exact hne ((nameAt_eq_some_iff.1 hname).trans (nameAt_eq_some_iff.1 hname').symm)

/-- The names in a well-formed tree have no slash. -/
theorem IsWellFormed.slash_notMem (h : t.IsWellFormed) (hname : name ∈ t.names place) :
    '/' ∉ name.toList := by
  obtain ⟨e, he, hplace⟩ := mem_names_iff.1 hname
  exact h.slash e he name (by simp [hplace])

/-- The names in a well-formed tree are those under which something stands. -/
theorem mem_names_iff_isSome :
    name ∈ t.names place ↔ (t.node? (place ++ [name])).isSome = true := by
  rw [mem_names_iff, node?, if_neg (by simp), Option.isSome_map, entry?, List.lookup_isSome_iff]
  exact exists_congr fun e => and_congr_right fun _ => eq_comm.trans beq_iff_eq.symm

/-- **The names that are kept** in two trees are the same if they are there in both. -/
theorem IsWellFormed.filter_names_congr {t' : FileTree} (h : t.IsWellFormed) (h' : t'.IsWellFormed)
    {keep : String → Bool} (hthere : ∀ name, keep name = true →
      (t'.node? (place ++ [name])).isSome = (t.node? (place ++ [name])).isSome) :
    (t'.names place).filter keep = (t.names place).filter keep := by
  refine List.Perm.eq_of_pairwise (fun a b _ _ => String.le_antisymm)
    ((t'.pairwise_names place).filter _) ((t.pairwise_names place).filter _) ?_
  refine (List.perm_ext_iff_of_nodup ((h'.nodup_names place).filter _)
    ((h.nodup_names place).filter _)).2 fun name => ?_
  rw [List.mem_filter, List.mem_filter, mem_names_iff_isSome, mem_names_iff_isSome]
  exact and_congr_left fun hkeep => by rw [hthere name hkeep]

/-! ### Headers -/

/-- The header of a Go file. -/
def header? (t : FileTree) (file : Path) : Option Header :=
  (t.readSource file).toOption.bind (fun src => (scanHeader src).toOption)

theorem header?_eq_some {src : String} {header : Header} (hsrc : t.readSource file = .ok src)
    (hheader : scanHeader src = .ok header) : t.header? file = some header := by
  simp [header?, hsrc, hheader, Except.toOption]

/-- **The import paths in a file,** in the order of its header. -/
def importsIn (t : FileTree) (file : Path) : List String :=
  match t.header? file with
  | some header => header.imports.map (·.path)
  | none => []

end FileTree

/-- **The import paths in a package,** in the order of its files. -/
def Package.written (p : Package) (t : FileTree) : List String :=
  p.goPaths.flatMap t.importsIn

theorem Package.Evolves.written {p q : Package} (h : p.Evolves q) (t : FileTree) :
    q.written t = p.written t := by
  rw [Package.written, Package.written, Package.goPaths, Package.goPaths, h.directory, h.goFiles]

/-! ### Admission -/

/-- **A target admits a file** that is no test file, if its name and its text fit. -/
def Target.admits (target : Target) (name src : String) : Bool :=
  !isTestFile name && (target.includes name src).toOption == some true

/-- **A target decides about a file** if it is a test file, or if its constraints can be read. -/
def Target.Decides (target : Target) (name src : String) : Prop :=
  isTestFile name = true ∨ ∃ admitted, target.includes name src = .ok admitted

/-- Whether a target admits a file of a directory. -/
def FileTree.admits (t : FileTree) (target : Target) (directory : Path) (name : String) : Bool :=
  (t.readSource (directory.child name)).toOption.any (target.admits name)

/-- **The Go files of a package** in a directory have the name of the package in their headers,
and the target admits them. -/
def FileTree.isGoFileOf (t : FileTree) (target : Target) (directory : Path) (package : String)
    (name : String) : Bool :=
  t.isFile (directory.child name) && FileKind.ofName name == .go &&
    (t.header? (directory.child name)).any (fun header => header.package == package) &&
    t.admits target directory name

namespace SourceDirectory

variable {d : SourceDirectory} {t : FileTree} {target : Target} {contents : Contents}
  {name package src : String} {names asmNames : List String} {file : GoFile} {files : List GoFile}
  {seen seen' found : List GoFile × List String}

/-! ### Looking at files -/

/-- A Go file is what the directory holds under its name. -/
def Holds (d : SourceDirectory) (t : FileTree) (file : GoFile) : Prop :=
  ∃ header, t.readSource (d.directory.child file.name) = .ok file.src ∧
    scanHeader file.src = .ok header ∧ file.package = header.package ∧
    file.imports = header.imports.map (·.path)

theorem holds_of_goFile (h : (d.goFile t name).Ends (.ok file)) :
    file.name = name ∧ d.Holds t file := by
  rw [goFile] at h
  obtain ⟨src, hsrc, h⟩ := h.bind
  cases hheader : scanHeader src with
  | error e => simp [hheader] at h
  | ok header =>
      rw [hheader] at h
      obtain rfl := Except.ok.inj (ends_pure.1 h)
      exact ⟨rfl, header, ends_orRefused.1 hsrc, hheader, rfl, rfl⟩

/-- **What has been seen** when files with some names have been looked at. -/
structure Sees (d : SourceDirectory) (t : FileTree) (names : List String)
    (seen : List GoFile × List String) : Prop where
  /-- All Go files have been seen. -/
  goFiles : seen.1.map (·.name) = names.filter (fun name => FileKind.ofName name == .go)
  /-- They have been read. -/
  holds : ∀ file ∈ seen.1, d.Holds t file
  /-- All assembly files have been seen. -/
  asmFiles : seen.2 = names.filter (fun name => FileKind.ofName name == .assembly)

theorem sees_nil : d.Sees t [] ([], []) :=
  ⟨rfl, by simp, rfl⟩

/-- **One file** is looked at. -/
theorem Sees.lookAt (h : d.Sees t names seen) (hlook : (d.lookAt t seen name).Ends (.ok seen')) :
    d.Sees t (names ++ [name]) seen' := by
  rw [SourceDirectory.lookAt] at hlook
  split at hlook
  · rename_i hkind
    obtain ⟨file, hfile, hlook⟩ := hlook.bind
    obtain rfl := Except.ok.inj (ends_pure.1 hlook)
    obtain ⟨rfl, hholds⟩ := holds_of_goFile hfile
    refine ⟨by simp [h.goFiles, hkind], fun file' hfile' => ?_, by simp [h.asmFiles, hkind]⟩
    rcases List.mem_append.1 hfile' with hfile' | hfile'
    · exact h.holds file' hfile'
    · exact List.mem_singleton.1 hfile' ▸ hholds
  · rename_i hkind
    obtain rfl := Except.ok.inj (ends_pure.1 hlook)
    exact ⟨by simp [h.goFiles, hkind], h.holds, by simp [h.asmFiles, hkind]⟩
  · rename_i hkind
    obtain ⟨_, -, hlook⟩ := hlook.bind
    obtain rfl := Except.ok.inj (ends_pure.1 hlook)
    exact ⟨by simp [h.goFiles, hkind], h.holds, by simp [h.asmFiles, hkind]⟩
  · rename_i hkind
    obtain rfl := Except.ok.inj (ends_pure.1 hlook)
    exact ⟨by simp [h.goFiles, hkind], h.holds, by simp [h.asmFiles, hkind]⟩

/-- **Several files** are looked at, one after the other. -/
theorem Sees.lookAtAll {later : List String} (h : d.Sees t names seen)
    (hlook : (later.foldlM (d.lookAt t) seen).Ends (.ok found)) :
    d.Sees t (names ++ later) found := by
  induction later generalizing names seen with
  | nil =>
      obtain rfl := Except.ok.inj (ends_pure.1 hlook)
      simpa using h
  | cons name later ih =>
      obtain ⟨seen', hstep, hlook⟩ := hlook.foldlM_cons
      have hall := ih (h.lookAt hstep) hlook
      rwa [List.append_assoc] at hall

/-- **Looking at a directory** sees the only file to be read, or all files. -/
theorem look_of_ends (h : (d.look t).Ends (.ok found)) :
    (∃ file, d.onlyFile = some file.name ∧ d.Holds t file ∧
      found = ([{ file with package := mainPackage }], [])) ∨
    (d.onlyFile = none ∧ ∃ place names, t.list d.directory = .ok (place, names) ∧
      d.Sees t (names.filter (fun name => t.isFile (d.directory.child name))) found) := by
  rw [look] at h
  split at h
  · rename_i honly
    obtain ⟨file, hfile, h⟩ := h.bind
    obtain rfl := Except.ok.inj (ends_pure.1 h)
    obtain ⟨rfl, hholds⟩ := holds_of_goFile hfile
    exact Or.inl ⟨file, honly, hholds, rfl⟩
  · rename_i hall
    obtain ⟨names, hnames, h⟩ := h.bind
    rw [fileNames] at hnames
    obtain ⟨⟨place, all⟩, hlist, hnames⟩ := hnames.bind
    obtain rfl := Except.ok.inj (ends_pure.1 hnames)
    exact Or.inr ⟨hall, place, all, ends_orRefused.1 hlist, sees_nil.lookAtAll h⟩

/-! ### Reading a directory -/

/-- The packages between which the import decides are those of the files. -/
theorem mem_distinctSorted {files : List GoFile} :
    package ∈ distinctSorted (files.map (·.package)) ↔ ∃ file ∈ files, file.package = package := by
  rw [distinctSorted, FileTree.sorted, mem_sortedBy, List.mem_eraseDups, List.mem_map]

/-- The package that is meant has a file. -/
theorem exists_of_meantPackage {files : List GoFile} (h : d.meantPackage files = .ok package) :
    ∃ file ∈ files, file.package = package := by
  rw [meantPackage] at h
  rw [← mem_distinctSorted]
  split at h
  · cases h
  · rename_i hpackages
    obtain rfl := Except.ok.inj h
    simp [hpackages]
  · split at h
    · rename_i hcontains
      obtain rfl := Except.ok.inj h
      simpa using hcontains
    · cases h

theorem eq_of_admits {admitted : Bool} (h : (d.admits target name src).Ends (.ok admitted)) :
    admitted = target.admits name src := by
  rw [admits] at h
  rw [Target.admits]
  split at h
  · rename_i htest
    simpa [htest] using h
  · rename_i htest
    split at h
    · simp at h
    · rename_i included hincludes
      obtain ⟨_, -, h⟩ := h.bind
      simpa [htest, hincludes, Except.toOption] using h

theorem decides_of_admits {admitted : Bool} (h : (d.admits target name src).Ends (.ok admitted)) :
    target.Decides name src := by
  rw [admits] at h
  split at h
  · rename_i htest
    exact Or.inl htest
  · split at h
    · simp at h
    · rename_i admitted hincludes
      exact Or.inr ⟨admitted, hincludes⟩

/-- The Go files of a package that a target admits. -/
def goFilesOf (target : Target) (package : String) (files : List GoFile) : List GoFile :=
  files.filter (fun file => file.package == package && target.admits file.name file.src)

/-- The files of a package among those that can be meant. -/
theorem filter_candidates (hmeans : d.canMean package = true) (files : List GoFile) :
    ((files.filter (fun file => d.canMean file.package)).filter
      (fun file => file.package == package)).filter
        (fun file => target.admits file.name file.src) = goFilesOf target package files := by
  rw [List.filter_filter, List.filter_filter, goFilesOf]
  refine List.filter_congr fun file _ => ?_
  by_cases hfile : file.package = package
  · simp [hfile, hmeans]
  · simp [beq_false_of_ne hfile]

/-- **A package is selected** among the files of a directory, and the target decides about its
files. -/
structure Selects (d : SourceDirectory) (t : FileTree) (target : Target) (files : List GoFile)
    (asmNames : List String) (package : String) : Prop where
  /-- It is the package that is meant. -/
  meant : d.meantPackage (files.filter (fun file => d.canMean file.package)) = .ok package
  /-- The target decides about its Go files. -/
  goFiles : ∀ file ∈ files, file.package = package → target.Decides file.name file.src
  /-- The target decides about the assembly files. -/
  asmFiles : ∀ name ∈ asmNames, ∃ src, t.readSource (d.directory.child name) = .ok src ∧
    target.Decides name src

/-- The package that is selected can be meant, and has a file. -/
theorem Selects.exists_file (h : d.Selects t target files asmNames package) :
    ∃ file ∈ files, file.package = package ∧ d.canMean package = true := by
  obtain ⟨file, hfile, rfl⟩ := exists_of_meantPackage h.meant
  obtain ⟨hfile, hmeans⟩ := List.mem_filter.1 hfile
  exact ⟨file, hfile, rfl, hmeans⟩

/-- **The contents of a directory,** for the package that is selected. -/
def contentsOf (d : SourceDirectory) (t : FileTree) (target : Target) (files : List GoFile)
    (asmNames : List String) (package : String) : Contents :=
  let goFiles := goFilesOf target package files
  ⟨package, goFiles.map (·.name), asmNames.filter (t.admits target d.directory),
    (goFiles.flatMap (·.imports)).eraseDups⟩

/-- **What reading a directory gives:** the contents for a package that is selected. -/
theorem read_of_ends (h : (d.read t target).Ends (.ok contents)) :
    ∃ files asmNames, (d.look t).Ends (.ok (files, asmNames)) ∧
      d.Selects t target files asmNames contents.name ∧
      contents = d.contentsOf t target files asmNames contents.name := by
  rw [read] at h
  obtain ⟨⟨files, asmNames⟩, hlook, h⟩ := h.bind
  dsimp only at h
  split at h
  · simp at h
  · rename_i package hmeant
    obtain ⟨goFiles, hgo, h⟩ := h.bind
    obtain ⟨asmFiles, hasm, h⟩ := h.bind
    obtain rfl := Except.ok.inj (ends_pure.1 h)
    have hselects : d.Selects t target files asmNames package := by
      refine ⟨hmeant, ?_, ?_⟩
      · rintro file hfile rfl
        obtain ⟨other, hother, hpackage⟩ := exists_of_meantPackage hmeant
        have hmeans : d.canMean file.package = true := hpackage ▸ (List.mem_filter.1 hother).2
        obtain ⟨admitted, hadmits⟩ := hgo.exists_of_filterM
          (List.mem_filter.2 ⟨List.mem_filter.2 ⟨hfile, hmeans⟩, BEq.rfl⟩)
        exact decides_of_admits hadmits
      · intro name hname
        obtain ⟨admitted, hadmits⟩ := hasm.exists_of_filterM hname
        obtain ⟨src, hsrc, hadmits⟩ := hadmits.bind
        exact ⟨src, ends_orRefused.1 hsrc, decides_of_admits hadmits⟩
    refine ⟨files, asmNames, hlook, hselects, ?_⟩
    obtain ⟨-, -, -, hmeans⟩ := hselects.exists_file
    have hgoFiles : goFiles = goFilesOf target package files := by
      rw [hgo.filterM (fun file b => eq_of_admits), filter_candidates hmeans]
    have hasmFiles : asmFiles = asmNames.filter (t.admits target d.directory) := by
      refine hasm.filterM fun name b hb => ?_
      obtain ⟨src, hsrc, hb⟩ := hb.bind
      rw [FileTree.admits, ends_orRefused.1 hsrc]
      exact eq_of_admits hb
    rw [hgoFiles, hasmFiles]
    rfl

/-- **The files of a directory** of which all are read. -/
theorem files_of_directory (h : (d.read t target).Ends (.ok contents)) (hall : d.onlyFile = none) :
    ∃ place names, t.list d.directory = .ok (place, names) ∧
      contents.goFiles = names.filter (t.isGoFileOf target d.directory contents.name) ∧
      contents.asmFiles.Sublist names := by
  obtain ⟨files, asmNames, hlook, -, hcontents⟩ := read_of_ends h
  have hgo : contents.goFiles = (goFilesOf target contents.name files).map (·.name) :=
    congrArg Contents.goFiles hcontents
  have hasm : contents.asmFiles = asmNames.filter (t.admits target d.directory) :=
    congrArg Contents.asmFiles hcontents
  rcases look_of_ends hlook with ⟨file, honly, -⟩ | ⟨-, place, names, hlist, hsees⟩
  · cases hall.symm.trans honly
  · refine ⟨place, names, hlist, ?_, ?_⟩
    · have hfiles : goFilesOf target contents.name files = files.filter (fun file =>
          (t.header? (d.directory.child file.name)).any
            (fun header => header.package == contents.name) &&
              t.admits target d.directory file.name) := by
        refine List.filter_congr fun file hfile => ?_
        obtain ⟨header, hsrc, hheader, hpackage, -⟩ := hsees.holds file hfile
        rw [FileTree.header?_eq_some hsrc hheader, FileTree.admits, hsrc, hpackage]
        rfl
      have hnames := List.filter_map (f := fun file : GoFile => file.name) (l := files)
        (p := fun name => (t.header? (d.directory.child name)).any
          (fun header => header.package == contents.name) && t.admits target d.directory name)
      rw [hgo, hfiles]
      rw [hsees.goFiles] at hnames
      refine hnames.symm.trans ?_
      rw [List.filter_filter, List.filter_filter]
      refine List.filter_congr fun name _ => ?_
      rw [FileTree.isGoFileOf]
      ac_rfl
    · have hnames : asmNames = _ := hsees.asmFiles
      rw [hasm, hnames]
      exact List.filter_sublist.trans (List.filter_sublist.trans List.filter_sublist)

/-- **The files of a directory** of which one is read. -/
theorem files_of_file (h : (d.read t target).Ends (.ok contents)) (honly : d.onlyFile = some name) :
    contents.goFiles = [name].filter (t.admits target d.directory) ∧ contents.asmFiles = [] := by
  obtain ⟨files, asmNames, hlook, hselects, hcontents⟩ := read_of_ends h
  obtain ⟨file, hfile, hpackage, -⟩ := hselects.exists_file
  have hgo : contents.goFiles = (goFilesOf target contents.name files).map (·.name) :=
    congrArg Contents.goFiles hcontents
  have hasm : contents.asmFiles = asmNames.filter (t.admits target d.directory) :=
    congrArg Contents.asmFiles hcontents
  rcases look_of_ends hlook with ⟨file', honly', hholds, hfound⟩ | ⟨hall, -⟩
  · obtain ⟨rfl, rfl⟩ := Prod.mk.inj hfound
    obtain rfl := Option.some.inj (honly.symm.trans honly')
    obtain ⟨header, hsrc, -⟩ := hholds
    obtain rfl := List.mem_singleton.1 hfile
    refine ⟨?_, by simpa using hasm⟩
    have hadmits : t.admits target d.directory file'.name = target.admits file'.name file'.src := by
      rw [FileTree.admits, hsrc]
      rfl
    rw [hgo, goFilesOf, ← hpackage, List.filter_singleton, List.filter_singleton, hadmits]
    simp only [BEq.rfl, Bool.true_and]
    cases target.admits file'.name file'.src <;> rfl
  · cases hall.symm.trans honly

/-- **The imports of a directory** are those in the files that it admits, in order. -/
theorem imports_eq (h : (d.read t target).Ends (.ok contents)) :
    contents.imports =
      ((contents.goFiles.map d.directory.child).flatMap t.importsIn).eraseDups := by
  obtain ⟨files, asmNames, hlook, -, hcontents⟩ := read_of_ends h
  have hgo : contents.goFiles = (goFilesOf target contents.name files).map (·.name) :=
    congrArg Contents.goFiles hcontents
  have himports : contents.imports =
      ((goFilesOf target contents.name files).flatMap (·.imports)).eraseDups :=
    congrArg Contents.imports hcontents
  have hread : ∀ file ∈ files, file.imports = t.importsIn (d.directory.child file.name) := by
    intro file hfile
    rcases look_of_ends hlook with ⟨file', -, ⟨header, hsrc, hheader, -, hpaths⟩, hfound⟩ |
        ⟨-, place, names, -, hsees⟩
    · obtain ⟨rfl, -⟩ := Prod.mk.inj hfound
      obtain rfl := List.mem_singleton.1 hfile
      rw [FileTree.importsIn, FileTree.header?_eq_some hsrc hheader, hpaths]
    · obtain ⟨header, hsrc, hheader, -, hpaths⟩ := hsees.holds file hfile
      rw [FileTree.importsIn, FileTree.header?_eq_some hsrc hheader, hpaths]
  rw [himports, hgo, List.map_map, List.flatMap_map]
  exact congrArg List.eraseDups (List.flatMap_congr fun file hfile =>
    hread file (List.mem_of_mem_filter hfile))

end SourceDirectory

namespace Discovery

variable {c : Discovery} {start a : Arrival} {isRoot : Bool} {g : PackageGraph} {id : PackageId}
  {p q : Package} {imports : List String} {precompiled : Bool}

/-! ### Packages -/

/-- A directory of which all files are read can be listed. -/
theorem Reads.exists_list (h : c.Reads a isRoot p imports) (hall : a.onlyFile = none) :
    ∃ found, c.tree.list a.directory = .ok found := by
  obtain ⟨contents, hread, -, -⟩ := h
  obtain ⟨place, names, hlist, -⟩ := SourceDirectory.files_of_directory hread hall
  exact ⟨_, hlist⟩

/-- **The Go files of a package** are those of its directory, unless it is the root and only one
file is read, or it stands for an archive. -/
inductive HasGoFiles (c : Discovery) (start : Arrival) (id : PackageId) (p : Package) : Prop
  /-- All files of the directory that are of the package. -/
  | all {place : Place} {names : List String} (hall : id = PackageGraph.root → start.onlyFile = none)
      (hsource : id = PackageGraph.root ∨ ¬ c.IsArchived p.importPath p.directory)
      (hlist : c.tree.list p.directory = .ok (place, names))
      (hfiles : p.goFiles = names.filter (c.tree.isGoFileOf c.target p.directory p.name))
  /-- The only file that is read. -/
  | only {name : String} (hid : id = PackageGraph.root) (honly : start.onlyFile = some name)
      (hfiles : p.goFiles = [name].filter (c.tree.admits c.target p.directory))
  /-- No files, as there is an archive. -/
  | none (hid : id ≠ PackageGraph.root) (harchived : c.IsArchived p.importPath p.directory)
      (hfiles : p.goFiles = [])

theorem HasGoFiles.congr (h : c.HasGoFiles start id p) (hpath : p.importPath = q.importPath)
    (hdirectory : p.directory = q.directory) (hname : p.name = q.name)
    (hgoFiles : p.goFiles = q.goFiles) : c.HasGoFiles start id q := by
  cases h with
  | all hall hsource hlist hfiles =>
      rw [hpath, hdirectory] at hsource
      rw [hdirectory] at hlist
      rw [hdirectory, hname, hgoFiles] at hfiles
      exact .all hall hsource hlist hfiles
  | only hid honly hfiles =>
      rw [hdirectory, hgoFiles] at hfiles
      exact .only hid honly hfiles
  | none hid harchived hfiles =>
      rw [hpath, hdirectory] at harchived
      exact .none hid harchived (hgoFiles ▸ hfiles)

/-- **The Go files of a package** are in order. -/
theorem HasGoFiles.pairwise (h : c.HasGoFiles start id p) : p.goFiles.Pairwise (· ≤ ·) := by
  cases h with
  | all _ _ hlist hfiles =>
      rw [hfiles, FileTree.names_of_list hlist]
      exact (FileTree.pairwise_names _ _).filter _
  | only _ _ hfiles =>
      rw [hfiles]
      exact (List.pairwise_singleton _ _).filter _
  | none _ _ hfiles =>
      rw [hfiles]
      exact List.Pairwise.nil

theorem Stems.hasGoFiles (h : c.Stems start precompiled id p imports) :
    c.HasGoFiles start id p := by
  cases h with
  | root hid hread =>
      obtain ⟨contents, hread, rfl, -⟩ := hread
      cases honly : start.onlyFile with
      | none =>
          obtain ⟨place, names, hlist, hfiles, -⟩ := SourceDirectory.files_of_directory hread honly
          exact .all (fun _ => honly) (Or.inl hid) hlist hfiles
      | some name => exact .only hid honly (SourceDirectory.files_of_file hread honly).1
  | source hid harrives hread =>
      obtain ⟨contents, hread, rfl, -⟩ := hread
      obtain ⟨place, names, hlist, hfiles, -⟩ :=
        SourceDirectory.files_of_directory hread harrives.onlyFile
      refine .all (fun hroot => absurd hroot hid) (Or.inr ?_) hlist hfiles
      rintro ⟨archive, harchived⟩
      obtain ⟨directory, hlocated, -⟩ := harrives.located
      rw [← harrives.importPath] at hlocated
      cases hlocated.symm.trans harchived
  | archived hid hlocated => exact .none hid ⟨_, hlocated⟩ rfl

/-- The assembly files of a package come from a directory. -/
theorem Reads.asmFiles (h : c.Reads a isRoot p imports) :
    p.asmFiles = [] ∨ ∃ place, p.asmFiles.Sublist (c.tree.names place) := by
  obtain ⟨contents, hread, rfl, -⟩ := h
  cases honly : a.onlyFile with
  | none =>
      obtain ⟨place, names, hlist, -, hsub⟩ := SourceDirectory.files_of_directory hread honly
      rw [FileTree.names_of_list hlist] at hsub
      exact Or.inr ⟨place, hsub⟩
  | some name => exact Or.inl (SourceDirectory.files_of_file hread honly).2

theorem Stems.asmFiles (h : c.Stems start precompiled id p imports) :
    p.asmFiles = [] ∨ ∃ place, p.asmFiles.Sublist (c.tree.names place) := by
  cases h with
  | root _ hread => exact hread.asmFiles
  | source _ _ hread => exact hread.asmFiles
  | archived _ _ => exact Or.inl rfl

/-- **The import paths of a package** are written in it, in this order. -/
theorem Reads.imports_eq (h : c.Reads a isRoot p imports) :
    imports = (p.written c.tree).eraseDups := by
  obtain ⟨contents, hread, rfl, rfl⟩ := h
  exact SourceDirectory.imports_eq hread

theorem Stems.imports_eq (h : c.Stems start precompiled id p imports) :
    imports = (p.written c.tree).eraseDups := by
  cases h with
  | root _ hread => exact hread.imports_eq
  | source _ _ hread => exact hread.imports_eq
  | archived _ _ => rfl

/-- **The Go files of a complete package** are its own. -/
theorem Complete.hasGoFiles (h : c.Complete start g id p imports) : c.HasGoFiles start id p := by
  obtain ⟨q, hq, hqp⟩ := h.stems
  exact hq.hasGoFiles.congr hqp.importPath.symm hqp.directory.symm (by rw [hqp.fields])
    hqp.goFiles.symm

/-- **The import paths of a complete package** are written in it, in this order. -/
theorem Complete.imports_eq (h : c.Complete start g id p imports) :
    imports = (p.written c.tree).eraseDups := by
  obtain ⟨q, hq, hqp⟩ := h.stems
  rw [hq.imports_eq, hqp.written]

end Discovery

end GoPlanner

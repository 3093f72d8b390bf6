import GoPlanner.Proofs.Discovery.ReadsAlike
import GoPlanner.Proofs.FileTree.Beside

/-!
# Single Files and Their Siblings

When a single file is the input, its directory is that of the root package, but no other file in it
is read. Imports can lead back to this directory, as a directory of the module, of vendored
packages or of a search path. It is on every way, so that ends in an import cycle before anything
is read. So it does not matter which other source files are in it, or what is in them.

## Main results

* `FileTree.DiffersBeside.readsAlike`, `FileTree.DiffersBeside.readsAlike_root`: directories in file
  trees that differ in siblings.
* `discover_beside`: the discovery of a file does not depend on its siblings.
-/

namespace GoPlanner

open Telling Discovery

variable {t t' : FileTree} {file place : Place} {a : Arrival} {input buildDir : Path}
  {target : Target} {isRoot : Bool}

namespace FileTree.DiffersBeside

/-! ### Directories -/

/-- **Other directories are read alike.** -/
theorem readsAlike (h : t.DiffersBeside file t') (ht : t.IsRooted) (ht' : t'.IsRooted)
    (hdir : t.node? a.place = some .directory) (hplace : a.place ≠ file.dropLast)
    (hall : a.onlyFile = none) : (a.toRead isRoot).ReadsAlike t t' := by
  have hplain {place : Place} {names : List String} {name : String}
      (hlist : t.list a.place.path = .ok (place, names)) (hname : name ∈ names) : IsPlain name := by
    obtain ⟨hreached, -, rfl⟩ := list_eq_ok_iff.1 hlist
    exact ht.isPlain (mem_names_iff_isSome.1 hname) name (by simp)
  constructor
  · intro _
    rw [SourceDirectory.fileNames, SourceDirectory.fileNames]
    change orRefused _ (t'.list a.place.path) >>= _ = orRefused _ (t.list a.place.path) >>= _
    rw [h.list_path_eq hdir hplace ht ht']
    refine bind_congr fun found hfound => ?_
    have hfiles : found.2.filter (fun name => t'.isFile (a.place.path.child name)) =
        found.2.filter (fun name => t.isFile (a.place.path.child name)) :=
      List.filter_congr fun name hname => h.isFile_elsewhere_eq hdir hplace ht ht'
        (hplain (ends_orRefused.1 hfound) hname)
    exact congrArg pure hfiles
  · intro name hread
    cases hread with
    | only honly => cases hall.symm.trans honly
    | all _ hlist hname hfile =>
        exact h.readSource_elsewhere_eq hdir hplace ht ht' (hplain hlist hname) hfile

/-- **The directory of the file is read alike,** since only the file is read. -/
theorem readsAlike_root {before : Place} {name : String}
    (h : t.DiffersBeside (before ++ [name]) t') (ht : t.IsRooted) (ht' : t'.IsRooted)
    {node : Node} (hnode : t.node? (before ++ [name]) = some node) (hfile : node.isFile = true) :
    SourceDirectory.ReadsAlike ⟨before.path, mainPackage, false, true, some name⟩ t t' := by
  have hplain := ht.isPlain (by rw [hnode]; rfl)
  have hbefore (last : String) (hlast : last ∈ before.getLast?) : IsPlain last :=
    hplain last (List.mem_append_left _ (List.mem_of_getLast? hlast))
  have hpath : before.path.child name = Place.path (before ++ [name]) :=
    Place.path_child (fun last hlast => ⟨(hbefore last hlast).slash, (hbefore last hlast).ne_empty⟩)
      (hplain name (by simp)).slash
  have hlink : node.isLink = false := by
    obtain ⟨c, x, rfl⟩ := Node.isFile_iff.1 hfile
    rfl
  constructor
  · intro hall
    cases hall
  · intro other hread
    cases hread with
    | only honly =>
        obtain rfl := Option.some.inj honly
        rw [hpath, h.readSource_path_eq ht ht' hnode hlink]
    | all hall _ _ _ => cases hall

end FileTree.DiffersBeside

/-! ### Discoveries -/

/-- **The root of a file is entered alike.** -/
theorem enter_root_beside {c : Discovery} {before : Place} {name : String} {precompiled : Bool}
    (h : c.tree.DiffersBeside (before ++ [name]) t) (hc : c.tree.IsRooted) (ht : t.IsRooted)
    {node : Node} (hnode : c.tree.node? (before ++ [name]) = some node)
    (hfile : node.isFile = true) :
    (c.inTree t).enter [] ⟨before, mainPackage, false, some name⟩ ⟨[], precompiled⟩ =
      c.enter [] ⟨before, mainPackage, false, some name⟩ ⟨[], precompiled⟩ := by
  have hdirectory := h.spares.isDirectoryAt_eq h.symm.spares
  have hread (b : Arrival) (isRoot : Bool) (hall : b.onlyFile = none)
      (hdir : c.tree.isDirectoryAt b.place = true)
      (hother : b.directory.same before.path = false) :
      (c.inTree t).read b isRoot = c.read b isRoot := by
    have hdir' : c.tree.node? b.place = some .directory := by
      simpa [FileTree.isDirectoryAt] using hdir
    have hplace : b.place ≠ (before ++ [name]).dropLast := by
      rw [List.dropLast_concat]
      rintro rfl
      simp [Arrival.directory, Path.same_self] at hother
    exact read_inTree (h.readsAlike hc ht hdir' hplace hall)
      fun _ => h.usableArchive?_eq hdir' hplace hc ht c.layout b.importPath
  refine enter_eq_of_step h.looksUpAlike hdirectory fun _ _ _ => ⟨?_, fun b g hall => ?_⟩
  · exact read_inTree (h.readsAlike_root hc ht hnode hfile) fun hroot => by cases hroot
  · exact enter_inTree h.looksUpAlike hdirectory hread (by simp [Way.passes, Arrival.directory])
      hall

/-- **The discoveries of a file** are the same computation. -/
theorem discoverAll_beside (h : t.DiffersBeside file t') (ht : t.IsRooted) (ht' : t'.IsRooted)
    (hplace : t.resolve input = .ok file) (hfile : t.isFile input = true) :
    discoverAll t' input buildDir target = discoverAll t input buildDir target := by
  obtain ⟨place, node, hplace', hnode, hisFile⟩ := FileTree.isFile_iff_resolve.1 hfile
  obtain rfl : file = place := Except.ok.inj (hplace.symm.trans hplace')
  have hnot : t.isDirectoryAt file = false := by
    obtain ⟨c, x, rfl⟩ := Node.isFile_iff.1 hisFile
    simp [FileTree.isDirectoryAt, hnode]
  -- The root of the tree is a directory, so the file has a name.
  have hne : file ≠ [] := by
    rintro rfl
    cases hnot
  obtain ⟨before, name, rfl⟩ := (List.eq_nil_or_concat' file).resolve_left hne
  have hroot : rootOf t (before ++ [name]) = ⟨before, mainPackage, false, some name⟩ := by
    simp [rootOf, hnot]
  have hroot' : rootOf t' (before ++ [name]) = rootOf t (before ++ [name]) := by
    rw [rootOf, rootOf, h.spares.isDirectoryAt_eq h.symm.spares]
  have hmodule : moduleOf t' (Place.path before) = moduleOf t (Place.path before) := by
    rw [moduleOf, moduleOf, h.loadModule_eq]
  rw [discoverAll, discoverAll, hplace, (h.spares.resolve_iff h.symm.spares h.node_file).2 hplace]
  refine bind_congr fun place hends => ?_
  obtain rfl := Except.ok.inj (ends_orRefused.1 hends)
  dsimp only
  rw [hroot', hroot, h.spares.isDirectory_eq h.symm.spares]
  change moduleOf t' (Place.path before) >>= _ = moduleOf t (Place.path before) >>= _
  rw [hmodule]
  refine bind_congr fun module? _ => bind_congr fun _ _ => ?_
  exact congrArg (· >>= _) (enter_root_beside
    (c := ⟨t, target, ⟨target, Place.path before, module?⟩, ⟨buildDir⟩⟩) h ht ht' hnode hisFile)

/-- **A single file is discovered alike** in file trees that differ in its siblings: the graph or
the error is the same, and so is everything that is told. -/
theorem discover_beside (h : t.DiffersBeside file t') (ht : t.IsRooted) (ht' : t'.IsRooted)
    (hplace : t.resolve input = .ok file) (hfile : t.isFile input = true) (buildDir : Path)
    (target : Target) :
    (discover t' input buildDir target).outcome = (discover t input buildDir target).outcome := by
  rw [discover, discover, discoverAll_beside h ht ht' hplace hfile]

/-! ### A module with a file beside the input -/

/-- A module with a program of one file, a package that it imports with a given text, and perhaps a
file beside the program. -/
def siblingTree (lib : String) (sibling : Option String) : FileTree where
  entries :=
    (sibling.map fun src => (["app", "other.go"], ⟨.file (.text src) false, 0⟩)).toList ++
      [(["app"], ⟨.directory, 0⟩), (["app", "go.mod"], ⟨.file (.text "module m\n") false, 0⟩),
        (["app", "main.go"], ⟨.file (.text "package main\nimport \"m/lib\"\n") false, 0⟩),
        (["app", "lib"], ⟨.directory, 0⟩), (["app", "lib", "lib.go"], ⟨.file (.text lib) false, 0⟩)]

theorem isRooted_siblingTree (lib : String) (sibling : Option String) :
    (siblingTree lib sibling).IsRooted where
  nodup := by cases sibling <;> simp [siblingTree]
  slash := by cases sibling <;> simp [siblingTree]
  inside := by cases sibling <;> simp [siblingTree, FileTree.node?, FileTree.entry?, List.lookup_cons]
  plain := by cases sibling <;> simp [siblingTree] <;> decide

/-- Such trees differ at the place of the sibling. -/
theorem differsBeside_siblingTree (lib : String) (sibling sibling' : Option String) :
    (siblingTree lib sibling).DiffersBeside ["app", "main.go"] (siblingTree lib sibling') where
  cwd := rfl
  entry := by
    intro place
    have hentry {sibling : Option String} (hplace : place ≠ ["app", "other.go"]) :
        FileTree.entry? (siblingTree lib sibling) place =
          FileTree.entry? (siblingTree lib none) place := by
      cases sibling <;>
        simp [siblingTree, FileTree.entry?, List.lookup_cons, beq_false_of_ne hplace]
    have hbystander (sibling : Option String) :
        (siblingTree lib sibling).IsBystander ["app", "main.go"] ["app", "other.go"] :=
      { sibling := ⟨"other.go", rfl, by decide, by decide +kernel⟩
        isFile := by
          intro node hnode
          cases sibling with
          | none => cases hnode
          | some src =>
              obtain rfl := Option.some.inj hnode
              rfl
        unlinked := by
          intro other target links hlink
          exact absurd hlink (FileTree.node?_ne_link (by cases sibling <;> rfl) other target) }
    by_cases hplace : place = ["app", "other.go"]
    · subst hplace
      exact Or.inr ⟨hbystander sibling, hbystander sibling'⟩
    · exact Or.inl ((hentry hplace).trans (hentry hplace).symm)

/-- A target without search paths. -/
def siblingTarget : Target :=
  { goroot := ⟨"/g"⟩ }

theorem discover_siblingTree :
    (siblingTree "package lib\n" none).resolve ⟨"/app/main.go"⟩ = .ok ["app", "main.go"] ∧
    (discover (siblingTree "package lib\n" (some "import\n")) ⟨"/app/main.go"⟩ ⟨"/b"⟩
        siblingTarget).outcome =
      (discover (siblingTree "package lib\n" none) ⟨"/app/main.go"⟩ ⟨"/b"⟩ siblingTarget).outcome :=
  have hplace : (siblingTree "package lib\n" none).resolve ⟨"/app/main.go"⟩ =
    .ok ["app", "main.go"] := by decide +kernel
  ⟨hplace, discover_beside (differsBeside_siblingTree _ none _) (isRooted_siblingTree _ _)
    (isRooted_siblingTree _ _) hplace (by decide +kernel) ⟨"/b"⟩ siblingTarget⟩

example : (discover (siblingTree "package lib\nimport \"m\"\n" (some "import\n"))
    ⟨"/app/main.go"⟩ ⟨"/b"⟩ siblingTarget).outcome.1 =
      .error (.importCycle ["main", "m/lib", "m"]) := by
  decide +kernel

end GoPlanner

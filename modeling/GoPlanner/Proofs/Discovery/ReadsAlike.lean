import GoPlanner.Proofs.Discovery.Alike
import GoPlanner.Proofs.Discovery.Circles
import GoPlanner.Proofs.FileTree.Found

/-!
# Discoveries That Read Alike

Two file trees may differ in files that no discovery reads. If import paths stand for the same
places in both, and every directory that is entered is read alike, then the discoveries are the
same: the graph, the error and everything that is told on the way to it.

A directory on the way is never entered again. So one directory may be left out, if every way
passes it.

## Main definitions

* `SourceDirectory.IsRead`: the files that are read from a directory.
* `SourceDirectory.ReadsAlike`: directories with the same files to be read.

## Main results

* `SourceDirectory.ReadsAlike.read_eq`: what reading a directory depends on.
* `Discovery.enter_eq_of_step`: one directory is entered alike.
* `Discovery.enter_inTree`: directories are entered alike on ways that pass a given one.
-/

namespace GoPlanner

open Telling

namespace SourceDirectory

variable {d : SourceDirectory} {t t' : FileTree} {target : Target} {name : String}
  {names asmNames : List String} {found : List GoFile × List String}

/-! ### Directories -/

/-- **The files that are read** from a directory: the only one, or all that it holds. -/
inductive IsRead (d : SourceDirectory) (t : FileTree) (name : String) : Prop
  | only (honly : d.onlyFile = some name)
  | all {place : Place} {names : List String} (hall : d.onlyFile = none)
      (hlist : t.list d.directory = .ok (place, names)) (hname : name ∈ names)
      (hfile : t.isFile (d.directory.child name) = true)

/-- **A directory is read alike** in another tree. -/
structure ReadsAlike (d : SourceDirectory) (t t' : FileTree) : Prop where
  /-- The same names are those of files. -/
  fileNames : d.onlyFile = none → d.fileNames t' = d.fileNames t
  /-- The files that are read have the same texts. -/
  readSource : ∀ name, d.IsRead t name →
    t'.readSource (d.directory.child name) = t.readSource (d.directory.child name)

/-- The names of the files of a directory are those that are read. -/
theorem isRead_of_fileNames (hall : d.onlyFile = none)
    (h : (d.fileNames t).Ends (.ok names)) (hname : name ∈ names) : d.IsRead t name := by
  rw [fileNames] at h
  obtain ⟨⟨place, listed⟩, hlist, h⟩ := h.bind
  obtain rfl := Except.ok.inj (ends_pure.1 h)
  obtain ⟨hname, hfile⟩ := List.mem_filter.1 hname
  exact .all hall (ends_orRefused.1 hlist) hname hfile

/-- So are the names of the assembly files. -/
theorem isRead_of_look (h : (d.look t).Ends (.ok found)) (hname : name ∈ found.2) :
    d.IsRead t name := by
  rcases look_of_ends h with ⟨file, -, -, rfl⟩ | ⟨hall, place, names, hlist, hsees⟩
  · simp at hname
  · rw [hsees.asmFiles] at hname
    obtain ⟨hname, hfile⟩ := List.mem_filter.1 (List.mem_filter.1 hname).1
    exact .all hall hlist hname hfile

namespace ReadsAlike

theorem goFile_eq (h : d.ReadsAlike t t') (hname : d.IsRead t name) :
    d.goFile t' name = d.goFile t name := by
  rw [goFile, goFile, source, source, h.readSource name hname]

theorem look_eq (h : d.ReadsAlike t t') : d.look t' = d.look t := by
  rw [look, look]
  cases honly : d.onlyFile with
  | some name =>
      dsimp only
      rw [h.goFile_eq (.only honly)]
  | none =>
      dsimp only
      rw [h.fileNames honly]
      refine bind_congr fun names hnames => foldlM_congr (fun seen name hname => ?_) _
      rw [lookAt, lookAt, h.goFile_eq (isRead_of_fileNames honly hnames hname)]

theorem admittedAsmFiles_eq (h : d.ReadsAlike t t') (hnames : ∀ name ∈ asmNames, d.IsRead t name) :
    d.admittedAsmFiles t' target asmNames = d.admittedAsmFiles t target asmNames := by
  refine filterM_congr fun name hname => ?_
  rw [source, source, h.readSource name (hnames name hname)]

/-- **Reading a directory** depends on the files that are read. -/
theorem read_eq (h : d.ReadsAlike t t') : d.read t' target = d.read t target := by
  rw [read, read, h.look_eq]
  refine bind_congr fun found hlook => ?_
  dsimp only
  rw [h.admittedAsmFiles_eq fun name hname => isRead_of_look hlook hname]

end ReadsAlike

end SourceDirectory

namespace Discovery

variable {c : Discovery} {t : FileTree} {way : Way} {a : Arrival} {g : PackageGraph}
  {isRoot : Bool} {start : Path}

/-! ### Packages and imports -/

/-- **A package is read alike** if its directory is, and the same archive can be used. -/
theorem read_inTree (h : (a.toRead isRoot).ReadsAlike c.tree t)
    (harchive : isRoot = false →
      t.usableArchive? c.layout a.importPath a.directory =
        c.tree.usableArchive? c.layout a.importPath a.directory) :
    (c.inTree t).read a isRoot = c.read a isRoot := by
  have harchive' : (c.inTree t).archiveFor a isRoot = c.archiveFor a isRoot := by
    rw [archiveFor, archiveFor]
    cases isRoot with
    | true => rw [if_pos rfl, if_pos rfl]
    | false => rw [if_neg (by simp), if_neg (by simp), ← harchive rfl, tree_inTree, layout_inTree]
  have hpackage : (c.inTree t).packageOf a isRoot = c.packageOf a isRoot := by
    funext contents
    rw [packageOf, packageOf, harchive']
  rw [read, read, hpackage, tree_inTree, target_inTree, h.read_eq]

variable {enter enter' : Arrival → PackageGraph → Telling (PackageId × PackageGraph)}

/-- **An import is followed alike,** given how directories are entered. -/
theorem follow_inTree (h : c.LooksUpAlike t)
    (henter : ∀ b g, b.onlyFile = none → enter' b g = enter b g) (importer : Path)
    (importPath : String) (g : PackageGraph) :
    (c.inTree t).follow enter' importer importPath g = c.follow enter importer importPath g := by
  rw [follow, follow, tree_inTree, locator_inTree, h.locate]
  cases hlocated : c.locator.locate c.tree importPath with
  | none => rfl
  | some location =>
      cases location with
      | builtin => rfl
      | archived directory archive => rfl
      | source directory isInternal =>
          -- The directory is there, so its path leads to a place, and to the same one.
          have hthere : c.tree.isDirectory directory = true := Locator.isThere_of_locate hlocated
          obtain ⟨place, hplace, -⟩ := FileTree.isDirectory_iff_resolve.1 hthere
          have hplace' := (h.resolve directory place hthere).2 hplace
          have hsame (place : Place) : enter' ⟨place, importPath, isInternal, none⟩ =
              enter ⟨place, importPath, isInternal, none⟩ := funext fun g => henter _ g rfl
          simp only [hplace, hplace', hsame]

theorem followFrom_inTree (h : c.LooksUpAlike t)
    (henter : ∀ b g, b.onlyFile = none → enter' b g = enter b g) (importer : PackageId) :
    (c.inTree t).followFrom enter' a importer = c.followFrom enter a importer := by
  funext g importPath
  rw [followFrom, followFrom, follow_inTree h henter]

/-! ### Entering directories -/

/-- **One directory is entered alike** if it is read alike, and the directories behind it are
entered alike. -/
theorem enter_eq_of_step (h : c.LooksUpAlike t)
    (hdirectory : ∀ place, t.isDirectoryAt place = c.tree.isDirectoryAt place)
    (hstep : way.passes a.directory = false → g.byDirectory? a.directory = none →
      c.tree.isDirectoryAt a.place = true →
      (c.inTree t).read a g.isEmpty = c.read a g.isEmpty ∧ ∀ b g', b.onlyFile = none →
        (c.inTree t).enter (way ++ [(a.directory, a.importPath)]) b g' =
          c.enter (way ++ [(a.directory, a.importPath)]) b g') :
    (c.inTree t).enter way a g = c.enter way a g := by
  rw [enter, enter]
  by_cases hway : way.passes a.directory = true
  · rw [dif_pos hway, dif_pos hway]
  · rw [dif_neg hway, dif_neg hway]
    cases hknown : g.byDirectory? a.directory with
    | some id => rfl
    | none =>
        by_cases hdir : c.tree.isDirectoryAt a.place = true
        · obtain ⟨hread, hbehind⟩ := hstep (by simpa using hway) hknown hdir
          simp only [tree_inTree, hdirectory, hdir, dite_true, hread,
            followFrom_inTree h hbehind]
        · simp only [tree_inTree, hdirectory, hdir, Bool.false_eq_true, dite_false]

/-- **Directories are entered alike** on ways that pass a given directory, if all others are read
alike. -/
theorem enter_inTree (h : c.LooksUpAlike t)
    (hdirectory : ∀ place, t.isDirectoryAt place = c.tree.isDirectoryAt place)
    (hread : ∀ b isRoot, b.onlyFile = none → c.tree.isDirectoryAt b.place = true →
      b.directory.same start = false → (c.inTree t).read b isRoot = c.read b isRoot)
    (hstart : way.passes start = true) (hall : a.onlyFile = none) :
    (c.inTree t).enter way a g = c.enter way a g := by
  induction way, a, g using enter.induct c with
  | case1 way a g hway =>
      exact enter_eq_of_step h hdirectory fun hoff => absurd hway (by simp [hoff])
  | case2 way a g hway id hknown =>
      exact enter_eq_of_step h hdirectory fun _ hnew => absurd hknown (by simp [hnew])
  | case3 way a g hway hnew hdir ih =>
      refine enter_eq_of_step h hdirectory fun hoff _ _ => ⟨hread a _ hall hdir ?_, ?_⟩
      · rw [← Bool.not_eq_true]
        intro hsame
        rw [passes_congr hsame, hstart] at hoff
        cases hoff
      · intro b g' hb
        exact ih b g' (by rw [passes_append, hstart, Bool.true_or]) hb
  | case4 way a g hway hnew hdir =>
      exact enter_eq_of_step h hdirectory fun _ _ hthere => absurd hthere hdir

end Discovery

end GoPlanner

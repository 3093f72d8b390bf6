import GoPlanner.Discovery.Contents
import GoPlanner.Freshness
import GoPlanner.Graph.Stale
import GoPlanner.Locate

/-!
# Discovering the Package Graph

Discovery starts at the root package and enters every directory that an import leads to.
A directory that is being entered already closes an import cycle, and one that has been
entered before is the same package under another path. So no directory is read twice, and
the directories on the way to a package are all different.

## Main definitions

* `Discovery`: what stays the same during a discovery.
* `Arrival`: a directory that an import path led to.
* `Discovery.enter`: adds the package of a directory and all that it imports.
* `discover`: the package graph of an input.
-/

namespace GoPlanner

/-- **What stays the same** during a discovery. -/
structure Discovery where
  /-- The files. -/
  tree : FileTree
  /-- The target. -/
  target : Target
  /-- Where import paths are looked up. -/
  locator : Locator
  /-- The build directory. -/
  layout : Layout
deriving Inhabited

/-- **A directory that an import path led to.** -/
structure Arrival where
  /-- The place of the directory. -/
  place : Place
  /-- The import path. -/
  importPath : String
  /-- Whether the directory belongs to the Go distribution. -/
  isInternal : Bool := false
  /-- The only file to be read, if not all are. -/
  onlyFile : Option String := none
deriving DecidableEq, Inhabited

namespace Arrival

/-- The directory. -/
def directory (a : Arrival) : Path :=
  a.place.path

/-- The directory as it is to be read. -/
def toRead (a : Arrival) (isRoot : Bool) : SourceDirectory :=
  ⟨a.directory, a.importPath, a.isInternal, isRoot, a.onlyFile⟩

end Arrival

/-- The directories that are being entered, with their import paths; the root comes
first. -/
abbrev Way : Type :=
  List (Path × String)

namespace Way

/-- Whether a directory is on the way. -/
def passes (way : Way) (directory : Path) : Bool :=
  way.any (fun step => step.1.same directory)

/-- The import paths from a directory on the way to the end of the way. -/
def since (way : Way) (directory : Path) : List String :=
  (way.dropWhile (fun step => !step.1.same directory)).map (·.2)

end Way

namespace Discovery

open Telling

/-! ### The directories that can still be entered -/

/-- The directories off a way. -/
def offWay (c : Discovery) (way : Way) : List Place :=
  c.tree.directories.filter (fun place => !way.passes place.path)

/-- Every directory is among the directories of its tree. -/
theorem mem_directories {t : FileTree} {place : Place} (h : t.isDirectoryAt place = true) :
    place ∈ t.directories := by
  unfold FileTree.isDirectoryAt FileTree.node? at h
  unfold FileTree.directories
  by_cases hroot : place = []
  · simp [hroot]
  · rw [if_neg hroot, beq_iff_eq] at h
    obtain ⟨entry, hentry, hnode⟩ := Option.map_eq_some_iff.1 h
    refine List.mem_cons_of_mem _ (List.mem_filterMap.2 ⟨(place, entry), ?_, by simp [hnode]⟩)
    unfold FileTree.entry? at hentry
    obtain ⟨before, after, hsplit, _⟩ := List.lookup_eq_some_iff.1 hentry
    simp [hsplit]

/-- Entering a directory off the way leaves fewer directories off it. -/
theorem offWay_append_lt {c : Discovery} {way : Way} {place : Place} {importPath : String}
    (hdir : c.tree.isDirectoryAt place = true) (hway : way.passes place.path = false) :
    (c.offWay (way ++ [(place.path, importPath)])).length < (c.offWay way).length := by
  unfold offWay
  have hsplit :
      c.tree.directories.filter
          (fun q => !Way.passes (way ++ [(place.path, importPath)]) q.path) =
        (c.tree.directories.filter (fun q => !way.passes q.path)).filter
          (fun q => !place.path.same q.path) := by
    rw [List.filter_filter]
    apply List.filter_congr
    intro q _
    simp [Way.passes, List.any_append, Bool.and_comm]
  rw [hsplit]
  refine List.length_filter_lt_length_iff_exists.2 ⟨place, ?_, by simp [Path.same]⟩
  exact List.mem_filter.2 ⟨mem_directories hdir, by simp [hway]⟩

/-! ### Packages -/

/-- The archive that is used for a package: never one for the root. -/
def archiveFor (c : Discovery) (a : Arrival) (isRoot : Bool) : Option Path :=
  if isRoot then none else c.tree.usableArchive? c.layout a.importPath a.directory

/-- The package of a directory, as long as its imports are not known. -/
def packageOf (c : Discovery) (a : Arrival) (isRoot : Bool) (contents : Contents) :
    Package where
  directory := a.directory
  importPath := a.importPath
  name := contents.name
  isInternal := a.isInternal
  goFiles := contents.goFiles
  asmFiles := contents.asmFiles
  cachedArchive := c.archiveFor a isRoot

/-- Reads the directory of an arrival. -/
def read (c : Discovery) (a : Arrival) (isRoot : Bool) : Telling (Package × List String) := do
  let contents ← (a.toRead isRoot).read c.tree c.target
  let package := c.packageOf a isRoot contents
  tell (.atLevel .info ("parsing " ++ a.importPath ++ " (" ++ a.directory.text ++ ") with " ++
    toString package.fileCount ++ " source files"))
  match package.cachedArchive with
  | some archive =>
    tell (.ofPart .cache (a.importPath ++ " is up to date (" ++ archive.text ++ ")"))
  | none => pure ()
  pure (package, contents.imports)

/-- The package of the standard library that an archive stands for. -/
def archivedPackage (directory archive : Path) (importPath : String) : Package where
  directory := directory
  importPath := importPath
  name := lastPiece '/' importPath
  isInternal := true
  cachedArchive := some archive

/-- **The package of an import path.** Some import paths have none: those that only the
compiler knows, and sources of a standard library that is there as archives. A directory
of sources is entered by the given function. -/
def follow (c : Discovery)
    (enter : Arrival → PackageGraph → Telling (PackageId × PackageGraph))
    (importer : Path) (importPath : String) (g : PackageGraph) :
    Telling (Option PackageId × PackageGraph) := do
  match c.locator.locate c.tree importPath with
  | none => throw (.importNotFound importPath importer)
  | some location =>
    tell (.ofPart .resolve ("\"" ++ importPath ++ "\" -> " ++ location.describe))
    match location with
    | .builtin => pure (none, g)
    | .archived directory archive =>
      match g.byDirectory? directory with
      | some id => pure (some id, g.addAlias id importPath)
      | none =>
        let (id, g) := g.register (archivedPackage directory archive importPath)
        pure (some id, g)
    | .source directory isInternal =>
      if isInternal && g.precompiled then
        tell (.atLevel .debug
          (importPath ++ " has no archive, leaving it to the standard library registration"))
        pure (none, g)
      else
        let place ← orRefused directory (c.tree.resolve directory)
        let (id, g) ← enter ⟨place, importPath, isInternal, none⟩ g
        pure (some id, g)

/-- Follows one import of a package and records it. -/
def followFrom (c : Discovery)
    (enter : Arrival → PackageGraph → Telling (PackageId × PackageGraph))
    (a : Arrival) (importer : PackageId) (g : PackageGraph) (importPath : String) :
    Telling PackageGraph := do
  tell (.atLevel .trace (a.importPath ++ " imports " ++ importPath))
  let (found, g) ← c.follow enter a.directory importPath g
  match found with
  | some dependency => pure (g.addImport importer dependency)
  | none => pure g

/-- **Enters a directory.** If it is new, its package is registered and all its imports are
followed before this one is left again. -/
def enter (c : Discovery) (way : Way) (a : Arrival) (g : PackageGraph) :
    Telling (PackageId × PackageGraph) :=
  if _hway : way.passes a.directory then
    throw (.importCycle (way.since a.directory ++ [a.importPath]))
  else
    match g.byDirectory? a.directory with
    | some id => pure (id, g.addAlias id a.importPath)
    | none =>
      if _hdir : c.tree.isDirectoryAt a.place then do
        let (package, imports) ← c.read a g.isEmpty
        let (id, g) := g.register package
        let g ← imports.foldlM
          (c.followFrom (fun b g => enter c (way ++ [(a.directory, a.importPath)]) b g) a id) g
        pure (id, g)
      else
        throw (.refused a.directory .notDirectory)
termination_by (c.offWay way).length
decreasing_by exact offWay_append_lt _hdir (by simpa [Arrival.directory] using _hway)

end Discovery

/-! ### From the input to the graph -/

open Telling

/-- The root package of an input: that of a directory, or a single file. -/
def rootOf (t : FileTree) (place : Place) : Arrival :=
  if t.isDirectoryAt place then ⟨place, mainPackage, false, none⟩
  else ⟨place.dropLast, mainPackage, false, place.getLast?⟩

/-- The module that encloses the root package. A module file that cannot be read is
ignored with a warning. -/
def moduleOf (t : FileTree) (root : Path) : Telling (Option Module) := do
  match t.loadModule root with
  | .error e =>
    tell (.warning ("ignoring go.mod: " ++ e.message))
    pure none
  | .ok none => pure none
  | .ok (some m) =>
    tell (.ofPart .resolve ("module " ++ m.modulePath ++ " at " ++ m.root.text))
    pure (some m)

/-- **Discovers** the packages of an input; archives are as they were found. -/
def discoverAll (t : FileTree) (input buildDir : Path) (target : Target) :
    Telling PackageGraph := do
  let place ← orRefused input (t.resolve input)
  let root := rootOf t place
  let module ← moduleOf t root.directory
  let precompiled := t.isDirectory target.archiveDir
  tell (.ofPart .resolve ("precompiled standard library: " ++ toString precompiled))
  let c : Discovery := ⟨t, target, ⟨target, root.directory, module⟩, ⟨buildDir⟩⟩
  let (_, g) ← c.enter [] root ⟨[], precompiled⟩
  pure g

/-- **The package graph of an input,** without stale archives. -/
def discover (t : FileTree) (input buildDir : Path) (target : Target) :
    Telling PackageGraph := do
  let g ← discoverAll t input buildDir target
  match g.dropStale? with
  | none => throw .endless
  | some (g, stale) =>
    stale.forM (fun importPath =>
      tell (.ofPart .cache (importPath ++ " has a stale dependency")))
    pure g

end GoPlanner

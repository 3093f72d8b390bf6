import GoPlanner.Project.File
import GoPlanner.Target

/-!
# Settings

The settings of a build come in three layers: the command line, the project file, and the
process environment. A higher layer hides what lies below it, so a value that is hidden is
neither used nor checked. Relative paths are read from the directory that belongs to their
layer.

## Main definitions

* `Overrides`: the settings of the command line.
* `Settings`: the settings in effect.
* `Settings.resolve`: the layers put together.
-/

namespace GoPlanner

/-- **The settings of the command line.** -/
structure Overrides where
  /-- The build directory. -/
  buildDir : Option Path := none
  /-- Tags that hold. -/
  tags : Option (List String) := none
  /-- The operating system. -/
  goos : Option String := none
  /-- The architecture. -/
  goarch : Option String := none
  /-- The directory of the Go distribution. -/
  goroot : Option Path := none
  /-- Directories in which packages are searched. -/
  gopath : Option (List Path) := none
  /-- Whether the tag `cgo` holds. -/
  cgo : Option Bool := none
  /-- The highest `N` for which the tag `go1.N` holds. -/
  goMinor : Option Nat := none
deriving DecidableEq, Inhabited

/-- **The settings in effect.** -/
structure Settings where
  /-- The input. -/
  input : Path
  /-- The build directory. -/
  buildDir : Path
  /-- The target. -/
  target : Target
deriving DecidableEq, Inhabited

namespace Settings

/-- The layers above the process environment, with the directories that their relative
paths are read from. -/
structure Layers where
  /-- The command line. -/
  overrides : Overrides
  /-- The working directory. -/
  cwd : Path
  /-- The project file. -/
  file : ProjectFile
  /-- The directory of the project file. -/
  root : Path
deriving Inhabited

/-- The layers of a run; without a project, its directory is the working directory. -/
def layersOf (overrides : Overrides) (project : Option Project) (cwd : Path) : Layers :=
  match project with
  | some p => ⟨overrides, cwd, p.file, cwd.join p.root⟩
  | none => ⟨overrides, cwd, {}, cwd⟩

namespace Layers

/-- The operating system above a target. -/
def goos (l : Layers) (base : Target) : String :=
  (l.overrides.goos.or l.file.goos).getD base.goos

/-- The architecture above a target. -/
def goarch (l : Layers) (base : Target) : String :=
  (l.overrides.goarch.or l.file.goarch).getD base.goarch

/-- The directory of the Go distribution above a target. -/
def goroot (l : Layers) (base : Target) : Path :=
  match l.overrides.goroot, l.file.goroot with
  | some path, _ => l.cwd.join path
  | none, some path => l.root.join ⟨path⟩
  | none, none => base.goroot

/-- The search path above a target; an empty one in the project file says nothing. -/
def searchPath (l : Layers) (base : Target) : List Path :=
  match l.overrides.gopath, l.file.gopath with
  | some paths, _ => paths.map l.cwd.join
  | none, [] => base.searchPath
  | none, paths => paths.map (fun p => l.root.join ⟨p⟩)

/-- The tags, trimmed; empty ones are left out. -/
def tags (l : Layers) : List String :=
  ((l.overrides.tags.getD l.file.tags).map trimmed).filter (fun tag => tag != "")

/-- Whether the tag `cgo` holds above a target. -/
def cgoEnabled (l : Layers) (base : Target) : Bool :=
  (l.overrides.cgo.or l.file.cgo).getD base.cgoEnabled

/-- The last release tag above a target. -/
def goMinor (l : Layers) (base : Target) : Nat :=
  (l.overrides.goMinor.or l.file.goMinor).getD base.goMinor

/-- The build directory. -/
def buildDir (l : Layers) : Path :=
  match l.overrides.buildDir with
  | some path => l.cwd.join path
  | none => l.root.join ⟨l.file.outDir⟩

/-- The target in effect. -/
def target (l : Layers) (base : Target) : Target where
  goos := l.goos base
  goarch := l.goarch base
  goroot := l.goroot base
  searchPath := l.searchPath base
  tags := l.tags
  cgoEnabled := l.cgoEnabled base
  goMinor := l.goMinor base

end Layers

/-- **The settings in effect.** The input must be there, the platform must be known, and
the Go distribution must be there; the first of these that fails is the error. -/
def resolve (t : FileTree) (input : Path) (project : Option Project) (overrides : Overrides)
    (base : Target) (cwd : Path) : Except ProjectError Settings :=
  let input := cwd.join input
  let layers := layersOf overrides project cwd
  let target := layers.target base
  if !t.isPresent input then .error (.inputNotFound input)
  else if !knownSystems.contains target.goos then .error (.unknownSystem target.goos)
  else if !knownArchitectures.contains target.goarch then
    .error (.unknownArchitecture target.goarch)
  else if !t.isDirectory target.goroot then .error (.gorootNotFound target.goroot)
  else .ok ⟨input, layers.buildDir, target⟩

end Settings

end GoPlanner

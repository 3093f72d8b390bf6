import GoPlanner.FileTree.Read
import GoPlanner.Toml.Document

/-!
# Project Files

A project file gives settings for all builds below its directory. It is a TOML document
whose table `build` holds the settings; other keys are ignored, and so are other tables.

## Main definitions

* `ProjectFile`: the settings of a project file.
* `ProjectFile.ofText?`: reads a project file.
* `Project`: a project file with the directory that it stands for.
* `FileTree.discoverProject`: the project of an input.
-/

namespace GoPlanner

/-- **The settings of a project file.** -/
structure ProjectFile where
  /-- The build directory. -/
  outDir : String := "build"
  /-- Tags that hold. -/
  tags : List String := []
  /-- The operating system. -/
  goos : Option String := none
  /-- The architecture. -/
  goarch : Option String := none
  /-- The directory of the Go distribution. -/
  goroot : Option String := none
  /-- Directories in which packages are searched. -/
  gopath : List String := []
  /-- Whether the tag `cgo` holds. -/
  cgo : Option Bool := none
  /-- The highest `N` for which the tag `go1.N` holds. -/
  goMinor : Option Nat := none
deriving DecidableEq, Inhabited

namespace ProjectFile

/-! ### Values of the right kind -/

/-- A string. -/
def text? : Toml → Option String
  | .text s => some s
  | _ => none

/-- An array of strings. -/
def texts? : Toml → Option (List String)
  | .array items => items.mapM text?
  | _ => none

/-- A truth value. -/
def boolean? : Toml → Option Bool
  | .boolean b => some b
  | _ => none

/-- A number from zero to `2 ^ 32 - 1`. -/
def number? : Toml → Option Nat
  | .integer n => if 0 ≤ n && n.toNat < Nat.pow 2 32 then some n.toNat else none
  | _ => none

/-! ### Reading -/

/-- The settings with one more key. Unknown keys change nothing; a known one needs a value
of the right kind. -/
def addKey (f : ProjectFile) (entry : String × Toml) : Option ProjectFile :=
  match entry with
  | ("out_dir", v) => (text? v).map (fun s => { f with outDir := s })
  | ("tags", v) => (texts? v).map (fun ss => { f with tags := ss })
  | ("goos", v) => (text? v).map (fun s => { f with goos := some s })
  | ("goarch", v) => (text? v).map (fun s => { f with goarch := some s })
  | ("goroot", v) => (text? v).map (fun s => { f with goroot := some s })
  | ("gopath", v) => (texts? v).map (fun ss => { f with gopath := ss })
  | ("cgo", v) => (boolean? v).map (fun b => { f with cgo := some b })
  | ("go_minor", v) => (number? v).map (fun n => { f with goMinor := some n })
  | _ => some f

/-- The keys of the settings, in order. -/
def keys : List String :=
  ["out_dir", "tags", "goos", "goarch", "goroot", "gopath", "cgo", "go_minor"]

/-- The settings in the table `build`. An array can stand for the table if it has a value
for every key, in order; a time says nothing about any of them. -/
def ofBuild? : Toml → Option ProjectFile
  | .table _ entries => entries.foldlM addKey {}
  | .inline _ entries => entries.foldlM addKey {}
  | .array items =>
    if keys.length ≤ items.length then (keys.zip items).foldlM addKey {} else none
  | .time => some {}
  | _ => none

/-- **Reads a project file.** -/
def ofText? (text : String) : Option ProjectFile :=
  (Toml.ofText? text).bind (fun root =>
    match root.lookup "build" with
    | some build => ofBuild? build
    | none => some {})

end ProjectFile

/-- **What can be wrong with a project.** -/
inductive ProjectError where
  /-- The project file cannot be read. -/
  | refused (path : Path) (fault : Fault)
  /-- The project file is malformed. -/
  | malformed (path : Path) (detail : String)
  /-- The input is not there. -/
  | inputNotFound (path : Path)
  /-- The Go distribution is not there. -/
  | gorootNotFound (path : Path)
  /-- The operating system is not known. -/
  | unknownSystem (name : String)
  /-- The architecture is not known. -/
  | unknownArchitecture (name : String)
deriving DecidableEq, Inhabited

namespace ProjectError

/-- **The message for the user.** -/
def message : ProjectError → String
  | refused path fault => "failed to read '" ++ path.text ++ "': " ++ fault.message
  | malformed path detail => "failed to parse '" ++ path.text ++ "': " ++ detail
  | inputNotFound path => "input package not found: '" ++ path.text ++ "'"
  | gorootNotFound path => "GOROOT not found: '" ++ path.text ++ "'"
  | unknownSystem name => "unsupported GOOS '" ++ name ++ "'"
  | unknownArchitecture name => "unsupported GOARCH '" ++ name ++ "'"

/-- The fault behind a project file that cannot be read. -/
def fault? : ProjectError → Option Fault
  | refused _ fault => some fault
  | _ => none

end ProjectError

/-! ### Finding the project file -/

/-- The name of project files. -/
def projectFileName : String :=
  "gplan.toml"

/-- **A project:** its settings, and the directory that their paths are read from. -/
structure Project where
  /-- The directory. -/
  root : Path
  /-- The settings. -/
  file : ProjectFile := {}
deriving DecidableEq, Inhabited

namespace FileTree

/-- The directory of the nearest project file at or above a path. -/
def projectRoot? (t : FileTree) (start : Path) : Option Path :=
  t.upward? projectFileName start

/-- Reads the project file at a path. -/
def loadProjectFile (t : FileTree) (path : Path) : Except ProjectError ProjectFile :=
  match t.readText path with
  | .error fault => .error (.refused path fault)
  | .ok text =>
    match ProjectFile.ofText? text with
    | some f => .ok f
    | none => .error (.malformed path "not a valid project file")

/-- **The project of an input:** that of the given project file, or else of the nearest one
above the input. -/
def discoverProject (t : FileTree) (input : Path) (explicit : Option Path) :
    Except ProjectError (Option Project) :=
  match explicit with
  | some path => (t.loadProjectFile path).map (fun f => some ⟨path.parent?.getD ⟨""⟩, f⟩)
  | none =>
    match t.projectRoot? input with
    | some root =>
      (t.loadProjectFile (root.child projectFileName)).map (fun f => some ⟨root, f⟩)
    | none => .ok none

end FileTree

end GoPlanner

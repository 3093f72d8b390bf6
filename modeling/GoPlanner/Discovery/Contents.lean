import GoPlanner.FileTree.Read
import GoPlanner.Source.Header
import GoPlanner.Source.Selection
import GoPlanner.Telling

/-!
# The Files of a Package

A directory can hold the files of several packages, test files, and files of other
targets. The headers of its Go files tell which package an import means, and constraints
tell which files of that package are built. Test files are passed over by their names.

## Main definitions

* `SourceDirectory`: a directory to be read for one import.
* `Contents`: the files of the package and what they import.
* `SourceDirectory.read`: the contents of a directory.
-/

namespace GoPlanner

/-- **A directory to be read** for an import path. -/
structure SourceDirectory where
  /-- The directory. -/
  directory : Path
  /-- The import path that led to it. -/
  importPath : String
  /-- Whether it belongs to the Go distribution. -/
  isInternal : Bool := false
  /-- Whether it is that of the root package. -/
  isRoot : Bool := false
  /-- The only file to be read, if not all are. -/
  onlyFile : Option String := none
deriving DecidableEq, Inhabited

/-- **The contents of a package.** -/
structure Contents where
  /-- The name of the package. -/
  name : String
  /-- The Go files of the target. -/
  goFiles : List String
  /-- The assembly files of the target. -/
  asmFiles : List String
  /-- The import paths in the Go files, each once. -/
  imports : List String
deriving DecidableEq, Inhabited

/-- A Go file with its text. -/
structure GoFile where
  /-- The name of the file. -/
  name : String
  /-- The text. -/
  src : String
  /-- The package that it belongs to. -/
  package : String
  /-- The import paths in it. -/
  imports : List String
deriving DecidableEq, Inhabited

/-- The import path of the root package, which is also the name of every package that is
linked to a program. -/
def mainPackage : String :=
  "main"

/-- Extensions of source files that the Go distribution can build but a plan cannot. -/
def unsupportedExtensions : List String :=
  ["c", "h", "cc", "cpp", "cxx", "hh", "hpp", "hxx", "m", "f", "for", "f90", "swig", "swigcxx",
    "syso"]

/-- What a file is by its extension. -/
inductive FileKind where
  | go
  | assembly
  | unsupported
  | unrelated
deriving DecidableEq, Inhabited

/-- The kind of a file; the case of the extension does not matter. -/
def FileKind.ofName (name : String) : FileKind :=
  match (extension? name).map (fun e => e.map Char.toLower) with
  | some e =>
    if e = "go" then .go
    else if e = "s" then .assembly
    else if unsupportedExtensions.contains e then .unsupported
    else .unrelated
  | none => .unrelated

/-- Names in increasing order, each once. -/
def distinctSorted (names : List String) : List String :=
  FileTree.sorted names.eraseDups

/-- A file name without its last extension. -/
def fileStem (name : String) : String :=
  match (name.toList.splitOn '.').dropLast with
  | [] => name
  | parts => ".".intercalate (parts.map String.ofList)

/-- Whether a file name is that of a test file. -/
def isTestFile (name : String) : Bool :=
  endsWith "_test" (fileStem name)

namespace SourceDirectory

open Telling

/-- The names of the files to be looked at; directories are none. -/
def fileNames (d : SourceDirectory) (t : FileTree) : Telling (List String) := do
  let (_, names) ← orRefused d.directory (t.list d.directory)
  pure (names.filter (fun name => t.isFile (d.directory.child name)))

/-- The text of a file. -/
def source (d : SourceDirectory) (t : FileTree) (name : String) : Telling String :=
  orRefused (d.directory.child name) (t.readSource (d.directory.child name))

/-- A Go file with its header. -/
def goFile (d : SourceDirectory) (t : FileTree) (name : String) : Telling GoFile := do
  let src ← d.source t name
  match scanHeader src with
  | .error e => throw (.malformed (d.directory.child name) e.message)
  | .ok header => pure ⟨name, src, header.package, header.imports.map (·.path)⟩

/-- A file that cannot be built is mentioned; in the Go distribution it is no surprise. -/
def mentionUnsupported (d : SourceDirectory) (name : String) : Telling Unit :=
  if d.isInternal then
    tell (.atLevel .debug ("skipping " ++ name ++ " in " ++ d.importPath))
  else
    tell (.warning
      ("unsupported source file " ++ (d.directory.child name).text ++ ", ignoring"))

/-- Looks at one file: Go files are read, assembly files are noted. -/
def lookAt (d : SourceDirectory) (t : FileTree) (seen : List GoFile × List String)
    (name : String) : Telling (List GoFile × List String) := do
  match FileKind.ofName name with
  | .go =>
    let file ← d.goFile t name
    pure (seen.1 ++ [file], seen.2)
  | .assembly => pure (seen.1, seen.2 ++ [name])
  | .unsupported =>
    d.mentionUnsupported name
    pure seen
  | .unrelated => pure seen

/-- The Go files, and the names of the assembly files. A file that is read alone counts as
part of the package `main`, whatever its package clause says. -/
def look (d : SourceDirectory) (t : FileTree) : Telling (List GoFile × List String) := do
  match d.onlyFile with
  | some name =>
    let file ← d.goFile t name
    pure ([{ file with package := mainPackage }], [])
  | none =>
    let names ← d.fileNames t
    names.foldlM (d.lookAt t) ([], [])

/-- Whether a package can be meant by the import: external tests never are, and a program
is only as the root. -/
def canMean (d : SourceDirectory) (package : String) : Bool :=
  (d.isRoot || package != mainPackage) && !endsWith "_test" package

/-- The name that decides between several packages. -/
def expectedName (d : SourceDirectory) : String :=
  if d.isRoot then mainPackage else lastPiece '/' d.importPath

/-- **The package that is meant:** the only one there is, or the one with the expected
name. -/
def meantPackage (d : SourceDirectory) (files : List GoFile) : Except BuildError String :=
  match distinctSorted (files.map (·.package)) with
  | [] => .error (.emptyPackage d.importPath d.directory)
  | [name] => .ok name
  | names =>
    if names.contains d.expectedName then .ok d.expectedName
    else .error (.ambiguousPackage d.importPath d.directory names)

/-- **Admission** of a file: no test file, and none of another target. -/
def admits (d : SourceDirectory) (target : Target) (name src : String) : Telling Bool := do
  if isTestFile name then
    pure false
  else
    match target.includes name src with
    | .error e => throw (.malformed (d.directory.child name) e.message)
    | .ok admitted =>
      tellIf (!admitted) (.ofPart .scan
        ((d.directory.child name).text ++ ": excluded by build constraints"))
      pure admitted

/-- Keeps the Go files that are admitted. -/
def admittedGoFiles (d : SourceDirectory) (target : Target) (files : List GoFile) :
    Telling (List GoFile) :=
  files.filterM (fun file => d.admits target file.name file.src)

/-- Keeps the assembly files that are admitted. -/
def admittedAsmFiles (d : SourceDirectory) (t : FileTree) (target : Target)
    (names : List String) : Telling (List String) :=
  names.filterM (fun name => do
    let src ← d.source t name
    d.admits target name src)

/-- **The contents of a directory** for a target. -/
def read (d : SourceDirectory) (t : FileTree) (target : Target) : Telling Contents := do
  let (files, asmNames) ← d.look t
  let candidates := files.filter (fun file => d.canMean file.package)
  match d.meantPackage candidates with
  | .error e => throw e
  | .ok name =>
    let goFiles ← d.admittedGoFiles target (candidates.filter (fun f => f.package == name))
    let asmFiles ← d.admittedAsmFiles t target asmNames
    pure ⟨name, goFiles.map (·.name), asmFiles, (goFiles.flatMap (·.imports)).eraseDups⟩

end SourceDirectory

end GoPlanner

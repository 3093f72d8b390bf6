import GoPlanner.FileTree.Basic

/-!
# Looking at Files

Every question about a file names it by a path, and links on the way and at the end of
the path are followed. A question that cannot be answered has the fault of the system as
its answer; the plain tests take any fault as a no.

## Main definitions

* `FileTree.isDirectory`, `FileTree.isFile`, `FileTree.isPresent`: tests.
* `FileTree.content`, `FileTree.readText`, `FileTree.readSource`: what a file holds.
* `FileTree.list`: the names in a directory.
* `FileTree.canonical`: the absolute path without dots and links.
* `FileTree.modified`: the time of the last change.
* `FileTree.upward?`: the nearest directory above that holds a file of a given name.
-/

namespace GoPlanner

namespace FileTree

/-- What a path leads to. -/
def find (t : FileTree) (p : Path) : Except Fault (Place × Node) :=
  match t.resolve p with
  | .error e => .error e
  | .ok place =>
    match t.node? place with
    | some node => .ok (place, node)
    | none => .error .noEntry

/-- Whether a path leads to a directory. -/
def isDirectory (t : FileTree) (p : Path) : Bool :=
  match t.find p with
  | .ok (_, .directory) => true
  | _ => false

/-- Whether a path leads to a file that is no directory. -/
def isFile (t : FileTree) (p : Path) : Bool :=
  match t.find p with
  | .ok (_, .file _ _) => true
  | _ => false

/-- Whether a path leads to anything. -/
def isPresent (t : FileTree) (p : Path) : Bool :=
  match t.find p with
  | .ok _ => true
  | .error _ => false

/-- Whether a path names a symbolic link; one with a slash at its end names what the link
leads to. -/
def isLink (t : FileTree) (p : Path) : Bool :=
  match refusal? p, lastName? (stepsOf p) with
  | none, some (before, name, false) =>
    match t.follow maxLinks (startOf t.cwd p) before with
    | .ok dir => (t.node? (dir ++ [name])).any Node.isLink
    | .error _ => false
  | _, _ => false

/-- **The content** of a file. -/
def content (t : FileTree) (p : Path) : Except Fault Content :=
  match t.find p with
  | .error e => .error e
  | .ok (_, .file c _) => .ok c
  | .ok _ => .error .isDirectory

/-- The text of a file that must hold text. -/
def readText (t : FileTree) (p : Path) : Except Fault String :=
  match t.content p with
  | .error e => .error e
  | .ok c =>
    match c.text? with
    | some s => .ok s
    | none => .error .notText

/-- The text of a source file, in which bytes that are no text are replaced. -/
def readSource (t : FileTree) (p : Path) : Except Fault String :=
  (t.content p).map Content.readable

/-- **The names in a directory,** in increasing order, with the place of the directory. -/
def list (t : FileTree) (p : Path) : Except Fault (Place × List String) :=
  match t.find p with
  | .error e => .error e
  | .ok (place, .directory) => .ok (place, t.names place)
  | .ok _ => .error .notDirectory

/-- **The canonical path** of a file: absolute, without dots and links. -/
def canonical (t : FileTree) (p : Path) : Except Fault Path :=
  (t.resolve p).map Place.path

/-- The time at which the file that a path leads to was last changed. -/
def modified (t : FileTree) (p : Path) : Except Fault Int :=
  match t.resolve p with
  | .error e => .error e
  | .ok place => .ok (((t.entry? place).map (·.modified)).getD 0)

/-- The path of the working directory, unless it is gone. -/
def workingDirectory (t : FileTree) : Except Fault Path :=
  if t.isDirectoryAt t.cwd then .ok (Place.path t.cwd) else .error .noEntry

/-! ### Searching upward -/

/-- **Searching upward.** The first of a path and its ancestors, as written, that holds a
file of the given name; for a path that leads to a file only its ancestors are tried. -/
def upward? (t : FileTree) (name : String) (p : Path) : Option Path :=
  (if t.isFile p then p.ancestors else p :: p.ancestors).find?
    (fun above => t.isFile (above.child name))

end FileTree

end GoPlanner

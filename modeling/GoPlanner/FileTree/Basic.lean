import GoPlanner.FileTree.Fault
import GoPlanner.Path
import GoPlanner.Sorted
import GoPlanner.Text.Utf8

/-!
# File Trees

A file tree is the state of a file system as a value: finitely many entries, each at its
place, with the working directory and the time that new entries are stamped with. A
place is the list of names that lead to an entry from the root, without dots and without
passing through links. The root itself is always a directory.

## Main definitions

* `Place`, `Node`, `Entry`, `FileTree`: the state.
* `FileTree.node?`: what stands at a place.
* `FileTree.put`, `FileTree.remove`: the two ways to change a tree.
* `FileTree.walk`, `FileTree.follow`: the place that steps lead to, through links.
* `FileTree.resolve`: the place that a path leads to.
* `FileTree.names`: the names in a directory.
-/

namespace GoPlanner

/-- **A place** in a file tree: the names on the way to it from the root. -/
abbrev Place : Type :=
  List String

/-- The absolute path of a place. -/
def Place.path (place : Place) : Path :=
  ⟨"/" ++ "/".intercalate place⟩

/-- **What stands at a place.** -/
inductive Node where
  /-- A directory; its entries are those one name further. -/
  | directory
  /-- A file with its content, which may be executable. -/
  | file (content : Content) (executable : Bool)
  /-- A symbolic link. -/
  | link (target : Path)
deriving DecidableEq, Inhabited

/-- Whether a node is a symbolic link. -/
def Node.isLink : Node → Bool
  | link _ => true
  | _ => false

/-- **An entry:** what stands there, and when it was last changed. -/
structure Entry where
  /-- What stands at the place. -/
  node : Node
  /-- The time of the last change. -/
  modified : Int
deriving DecidableEq, Inhabited

/-- **A file tree.** -/
structure FileTree where
  /-- The entries, at most one for each place. -/
  entries : List (Place × Entry) := []
  /-- The working directory. -/
  cwd : Place := []
  /-- The time that new and changed entries are stamped with. -/
  clock : Int := 0
deriving DecidableEq, Inhabited

namespace FileTree

/-- The entry at a place. -/
def entry? (t : FileTree) (place : Place) : Option Entry :=
  t.entries.lookup place

/-- **What stands at a place.** -/
def node? (t : FileTree) (place : Place) : Option Node :=
  if place = [] then some .directory else (t.entry? place).map (·.node)

/-- Whether a directory stands at a place. -/
def isDirectoryAt (t : FileTree) (place : Place) : Bool :=
  t.node? place == some .directory

/-- **Puts** an entry at a place, in the stead of any other. -/
def put (t : FileTree) (place : Place) (entry : Entry) : FileTree :=
  { t with entries := (place, entry) :: t.entries.filter (fun e => e.1 != place) }

/-- **Removes** the entry at a place, and everything below it. -/
def remove (t : FileTree) (place : Place) : FileTree :=
  { t with entries := t.entries.filter (fun e => !place.isPrefixOf e.1) }

/-- The places of all directories. -/
def directories (t : FileTree) : List Place :=
  [] :: t.entries.filterMap (fun e => if e.2.node = .directory then some e.1 else none)

/-- Names in increasing order. -/
def sorted (names : List String) : List String :=
  sortedBy (fun a b => decide (a ≤ b)) names

/-- **The names in a directory,** in increasing order. -/
def names (t : FileTree) (place : Place) : List String :=
  sorted (t.entries.filterMap
    (fun e => if e.1 ≠ [] && e.1.dropLast = place then e.1.getLast? else none))

/-! ### Following paths -/

/-- How many links may be followed on the way to one file. -/
def maxLinks : Nat := 40

/-- The steps of a path as the system takes them. Empty steps count as dots, so that a
path with a trailing slash leads to a directory only. -/
def stepsOf (p : Path) : List String :=
  pieces '/' p.text

/-- Where the first step of a path is taken. -/
def startOf (here : Place) (p : Path) : Place :=
  if p.isAbsolute then [] else here

/-- The steps before the last name of a path, that name, and whether slashes follow it.
A path that ends in dots, and the root, have no last name. -/
def lastName? (steps : List String) : Option (List String × String × Bool) :=
  let trailing := steps.reverse.takeWhile (fun s => s == "")
  match steps.reverse.dropWhile (fun s => s == "") with
  | [] => none
  | name :: before =>
    if Path.isIdle name || name == ".." then none
    else some (before.reverse, name, !trailing.isEmpty)

/-- How many bytes a name may have. -/
def maxName : Nat := 255

/-- How many bytes a path may have. -/
def maxPath : Nat := 4095

/-- **Why a path can name nothing,** whatever the files are: it is empty, too long, or
holds the character that ends names. -/
def refusal? (p : Path) : Option Fault :=
  if p.text.toList.contains '\x00' then some .nullInName
  else if maxPath < p.text.utf8ByteSize then some .nameTooLong
  else if p.text = "" then some .noEntry
  else none

/-- **Walking along steps** from a place. A step needs a directory to be taken in; two dots
lead to the directory above. A link leads to where the steps of its target and the steps
behind it lead, which the given function finds out. -/
def walk (t : FileTree) (jump : Place → List String → Except Fault Place) :
    Place → List String → Except Fault Place
  | here, [] => if (t.node? here).isSome then .ok here else .error .noEntry
  | here, step :: rest =>
    match t.node? here with
    | none => .error .noEntry
    | some .directory =>
      if Path.isIdle step then walk t jump here rest
      else if step = ".." then walk t jump here.dropLast rest
      else if maxName < step.utf8ByteSize then .error .nameTooLong
      else
        match t.node? (here ++ [step]) with
        | none => .error .noEntry
        | some (.link target) => jump (startOf here target) (stepsOf target ++ rest)
        | some _ => walk t jump (here ++ [step]) rest
    | some _ => .error .notDirectory

/-- **Following steps** from a place, through links as long as some may be followed. -/
def follow (t : FileTree) : Nat → Place → List String → Except Fault Place
  | 0 => t.walk (fun _ _ => .error .tooManyLinks)
  | links + 1 => t.walk (t.follow links)

/-- **The place that a path leads to.** The empty path leads nowhere. -/
def resolve (t : FileTree) (p : Path) : Except Fault Place :=
  match refusal? p with
  | some fault => .error fault
  | none => t.follow maxLinks (startOf t.cwd p) (stepsOf p)

end FileTree

end GoPlanner

import GoPlanner.Text.Blank

/-!
# Paths as Text

A path is the text by which a file is named. Operations keep that text as it was
written: nothing is normalised, and `.`, `..` and doubled slashes stay where they are.
Two paths name the same directory of the package graph when their components agree.

## Main definitions

* `Path.components`: the steps of a path, without empty steps and inner dots.
* `Path.join`: one path read from another; an absolute path replaces its base.
* `Path.ancestors`, `Path.parent?`: the path without its last components.
* `Path.descend`: the directory of a slash-separated import path below a base.
-/

namespace GoPlanner

/-- A path, as written. -/
structure Path where
  /-- The text of the path. -/
  text : String
deriving DecidableEq, Inhabited

/-- One step of a path. -/
inductive Component where
  /-- The leading slash of an absolute path. -/
  | root
  /-- A leading dot. -/
  | current
  /-- Two dots: the directory above. -/
  | parent
  /-- An entry of the directory reached so far. -/
  | name (text : String)
deriving DecidableEq

/-- The text of a step. -/
def Component.text : Component → String
  | root => "/"
  | current => "."
  | parent => ".."
  | name n => n

namespace Path

/-- A path is **absolute** when its text starts with a slash. -/
def isAbsolute (p : Path) : Bool :=
  startsWith "/" p.text

/-- Pieces between slashes that name no step. -/
def isIdle (piece : String) : Bool :=
  piece == "" || piece == "."

/-- The step that a piece between slashes stands for. -/
def step? (piece : String) : Option Component :=
  if isIdle piece then none
  else if piece = ".." then some .parent
  else some (.name piece)

/-- **Components.** The steps of the path: a leading slash or a leading dot counts, empty
pieces and all other single dots do not. -/
def components (p : Path) : List Component :=
  let steps := (pieces '/' p.text).filterMap step?
  if p.isAbsolute then .root :: steps
  else if (pieces '/' p.text).head? = some "." then .current :: steps
  else steps

/-- Whether two paths are equal step by step. -/
def same (p q : Path) : Bool :=
  p.components == q.components

/-- **Joining.** The path `q` read from the directory `p`: an absolute `q` stands for
itself, any other is written after `p` and a slash, which is not doubled. -/
def join (p q : Path) : Path :=
  if q.isAbsolute || p.text == "" then q
  else if endsWith "/" p.text then ⟨p.text ++ q.text⟩
  else ⟨p.text ++ "/" ++ q.text⟩

/-- The entry of a directory by its name. -/
def child (p : Path) (name : String) : Path :=
  p.join ⟨name⟩

/-- The part of the text that every ancestor keeps: a leading slash or a leading dot. -/
def anchor (p : Path) : String :=
  if p.isAbsolute then "/"
  else if (pieces '/' p.text).head? = some "." then "."
  else ""

/-- The pieces of the text after its anchor. -/
def body (p : Path) : List String :=
  pieces '/' (String.ofList (p.text.toList.drop p.anchor.length))

/-- All ways to leave out the last steps of a path, the fewest first. Both the given
pieces and the idle pieces to be left out with a step stand in reverse order. -/
def shortened : List String → List (List String)
  | [] => []
  | piece :: before =>
    if isIdle piece then shortened before
    else (before.dropWhile isIdle).reverse :: shortened before

/-- **Ancestors.** The paths that remain when the last component, the last two, and so on
are left out, as written; the root and the empty path have none. -/
def ancestors (p : Path) : List Path :=
  (shortened p.body.reverse).map (fun steps => ⟨p.anchor ++ "/".intercalate steps⟩) ++
    (if p.anchor = "." then [⟨""⟩] else [])

/-- **Parent.** The path without its last component. -/
def parent? (p : Path) : Option Path :=
  p.ancestors.head?

/-- The last component, if it is a name. -/
def fileName? (p : Path) : Option String :=
  match p.components.getLast? with
  | some (.name n) => some n
  | _ => none

/-- The directory of an import path below `base`: one step for every segment that is not
empty. -/
def descend (base : Path) (importPath : String) : Path :=
  ((pieces '/' importPath).filter (fun s => s != "")).foldl child base

end Path

/-! ### File names -/

/-- The part of a file name before its last dot and the part after it. A name without a
dot, or whose only dot comes first, is not divided. -/
def splitExtension? (name : String) : Option (String × String) :=
  let parts := name.toList.splitOn '.'
  let stem := ".".intercalate (parts.dropLast.map String.ofList)
  if name = ".." || parts.length < 2 || stem = "" then none
  else some (stem, String.ofList (parts.getLast?.getD []))

/-- The extension of a file name. -/
def extension? (name : String) : Option String :=
  (splitExtension? name).map (·.2)

end GoPlanner

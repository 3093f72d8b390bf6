import GoPlanner.FileTree.Below
import GoPlanner.FileTree.Write

/-!
# Removing, Renaming and Linking

These changes are made to entries themselves: a link at the end of a path is not followed,
unless a slash stands behind it.

## Main definitions

* `FileTree.placeOf`, `FileTree.newPlace`: the places of entries.
* `FileTree.unlink`, `FileTree.removeDirectory`: removes entries.
* `FileTree.rename`, `FileTree.copyTo`: moves and copies entries.
* `FileTree.makeLink`: makes links.
-/

namespace GoPlanner

namespace FileTree

/-! ### Places -/

/-- **The place of an entry.** A link at the end of the path is an entry itself; a slash
behind the last name asks for a directory. -/
def placeOf (t : FileTree) (p : Path) : Except Fault Place :=
  match refusal? p with
  | some fault => .error fault
  | none =>
    match lastName? (stepsOf p) with
    | some (before, name, false) =>
      match t.follow maxLinks (startOf t.cwd p) before with
      | .error fault => .error fault
      | .ok dir =>
        if !t.isDirectoryAt dir then .error .notDirectory
        else if maxName < name.utf8ByteSize then .error .nameTooLong
        else if (t.node? (dir ++ [name])).isSome then .ok (dir ++ [name])
        else .error .noEntry
    | _ => t.resolve p

/-- What stands at a path; a link counts by itself. -/
def entryAt (t : FileTree) (p : Path) : Except Fault (Place × Node) :=
  match t.placeOf p with
  | .error fault => .error fault
  | .ok place =>
    match t.node? place with
    | some node => .ok (place, node)
    | none => .error .noEntry

/-- **The place of an entry that is to be made.** Nothing may stand there. -/
def newPlace (t : FileTree) (p : Path) : Except Fault Place :=
  match refusal? p with
  | some fault => .error fault
  | none =>
    match lastName? (stepsOf p) with
    | none => (t.resolve p).bind (fun _ => .error .alreadyThere)
    | some (before, name, slash) =>
      match t.follow maxLinks (startOf t.cwd p) before with
      | .error fault => .error fault
      | .ok dir =>
        if !t.isDirectoryAt dir then .error .notDirectory
        else if maxName < name.utf8ByteSize then .error .nameTooLong
        else if (t.node? (dir ++ [name])).isSome then .error .alreadyThere
        else if slash then .error .noEntry
        else .ok (dir ++ [name])

/-! ### Removing -/

/-- **Removes a file** or a link. -/
def unlink (t : FileTree) (p : Path) : Except Fault FileTree :=
  match t.entryAt p with
  | .error fault => .error fault
  | .ok (_, .directory) => .error .isDirectory
  | .ok (place, _) => .ok (t.remove place)

/-- **Removes a directory,** which must be empty. -/
def removeDirectory (t : FileTree) (p : Path) : Except Fault FileTree :=
  match t.entryAt p with
  | .error fault => .error fault
  | .ok (place, .directory) =>
    if (t.names place).isEmpty then .ok (t.remove place) else .error .notEmpty
  | .ok _ => .error .notDirectory

/-! ### Moving and copying -/

/-- The tree with everything below a place also below another one, where nothing else is
left. -/
def copyTo (t : FileTree) (source target : Place) : FileTree :=
  let copied := t.entries.filterMap (fun e =>
    (source.isPrefixOf? e.1).map (fun steps => (target ++ steps, e.2)))
  let t' := t.remove target
  { t' with entries := copied ++ t'.entries }

/-- **Renames an entry.** What stands at the new place is replaced, unless it is a
directory that is not empty or of the other kind. -/
def rename (t : FileTree) (source target : Path) : Except Fault FileTree :=
  match t.entryAt source with
  | .error fault => .error fault
  | .ok (place, node) =>
    let isDirectory := node == .directory
    let goal : Except Fault Place := match t.placeOf target with
      | .ok goal => .ok goal
      | .error .noEntry =>
        t.newPlace (if isDirectory then ⟨withoutSlashes target.text⟩ else target)
      | .error fault => .error fault
    match goal with
    | .error fault => .error fault
    | .ok goal =>
      if goal = place then .ok t
      else if place.isPrefixOf goal then .error (.system 22)
      else
        let move : Except Fault FileTree := .ok ((t.copyTo place goal).remove place)
        match t.node? goal with
        | none => move
        | some .directory =>
          if !isDirectory then .error .isDirectory
          else if (t.names goal).isEmpty then move
          else .error .notEmpty
        | some _ => if isDirectory then .error .notDirectory else move
where
  /-- A path without slashes at its end. -/
  withoutSlashes (text : String) : String :=
    String.ofList (text.toList.reverse.dropWhile (fun c => c == '/')).reverse

/-! ### Links and permissions -/

/-- **Makes a link** to a path. -/
def makeLink (t : FileTree) (target p : Path) : Except Fault FileTree :=
  (t.newPlace p).map (fun place => t.put place ⟨.link target, t.clock⟩)

/-- Lets a file be executable or not. -/
def setExecutable (t : FileTree) (place : Place) (isExecutable : Bool) : FileTree :=
  match t.entry? place with
  | some ⟨.file c _, modified⟩ => t.put place ⟨.file c isExecutable, modified⟩
  | _ => t

end FileTree

end GoPlanner

import GoPlanner.FileTree.Read

/-!
# Changing Files

New entries and changed files are stamped with the clock of the tree. A write to a link
goes to the file that the link leads to, which need not be there yet.

## Main definitions

* `FileTree.write`: gives a file a new content.
* `FileTree.makeDirectory`, `FileTree.makeDirectories`: new directories.
-/

namespace GoPlanner

namespace FileTree

/-- **The place that a write goes to.** The directory must be there; at the place itself
may stand nothing, a file, or a link that is followed in the same way. -/
def writePlace (t : FileTree) : Nat → Place → List String → Except Fault Place
  | links, here, steps =>
    match lastName? steps with
    | none => (t.follow maxLinks here steps).bind (fun _ => .error .isDirectory)
    | some (before, name, slash) =>
      match t.follow maxLinks here before with
      | .error e => .error e
      | .ok dir =>
        if !t.isDirectoryAt dir then .error .notDirectory
        else if slash then .error .isDirectory
        else if maxName < name.utf8ByteSize then .error .nameTooLong
        else
          match t.node? (dir ++ [name]) with
          | none => .ok (dir ++ [name])
          | some (.file _ _) => .ok (dir ++ [name])
          | some .directory => .error .isDirectory
          | some (.link target) =>
            match links with
            | 0 => .error .tooManyLinks
            | n + 1 => writePlace t n (startOf dir target) (stepsOf target)

/-- Whether an executable file stands at a place. -/
def isExecutableAt (t : FileTree) (place : Place) : Bool :=
  match t.node? place with
  | some (.file _ executable) => executable
  | _ => false

/-- The place that a write to a path goes to. -/
def resolveWrite (t : FileTree) (p : Path) : Except Fault Place :=
  match refusal? p with
  | some fault => .error fault
  | none => t.writePlace maxLinks (startOf t.cwd p) (stepsOf p)

/-- The tree with a new content of the file at a place. -/
def setContent (t : FileTree) (place : Place) (c : Content) : FileTree :=
  t.put place ⟨.file c (t.isExecutableAt place), t.clock⟩

/-- **Writes** a file: whatever it held is replaced. -/
def write (t : FileTree) (p : Path) (c : Content) : Except Fault FileTree :=
  (t.resolveWrite p).map (fun place => t.setContent place c)

/-- **Makes a directory.** Its parent must be there, and nothing may stand at its place. -/
def makeDirectory (t : FileTree) (p : Path) : Except Fault FileTree :=
  match refusal? p with
  | some fault => .error fault
  | none =>
    match lastName? (stepsOf p) with
    | none => (t.resolve p).bind (fun _ => .error .alreadyThere)
    | some (before, name, _) =>
      match t.follow maxLinks (startOf t.cwd p) before with
      | .error e => .error e
      | .ok dir =>
        if !t.isDirectoryAt dir then .error .notDirectory
        else if maxName < name.utf8ByteSize then .error .nameTooLong
        else if (t.node? (dir ++ [name])).isSome then .error .alreadyThere
        else .ok (t.put (dir ++ [name]) ⟨.directory, t.clock⟩)

/-- A directory is made, unless there is one already. -/
def ensureDirectory (t : FileTree) (p : Path) : Except Fault FileTree :=
  match t.makeDirectory p with
  | .ok t' => .ok t'
  | .error e => if t.isDirectory p then .ok t else .error e

/-- Makes the last of the given directories; the others are its ancestors, the nearest
first, and are made if they are missing. A fault comes with the files behind it: the
ancestors that were made before it stay. -/
def makeBelow (t : FileTree) (p : Path) : List Path → Except (Fault × FileTree) FileTree
  | above :: others =>
    if p.text = "" then .ok t
    else
      match t.makeDirectory p with
      | .ok t' => .ok t'
      | .error .noEntry =>
        match makeBelow t above others with
        | .error e => .error e
        | .ok t' => (t'.ensureDirectory p).mapError (·, t')
      | .error e => if t.isDirectory p then .ok t else .error (e, t)
  | [] =>
    if p.text = "" then .ok t
    else
      match t.makeDirectory p with
      | .ok t' => .ok t'
      | .error .noEntry => .error (.other "failed to create whole tree", t)
      | .error e => if t.isDirectory p then .ok t else .error (e, t)

/-- **Makes a directory and all missing ancestors.** -/
def makeDirectories (t : FileTree) (p : Path) : Except Fault FileTree :=
  (t.makeBelow p p.ancestors).mapError (·.1)

end FileTree

end GoPlanner

import GoPlanner.FileTree.Read
import GoPlanner.ModuleFile.Basic

/-!
# Modules

A module is a module file together with the directory that holds it. It says which
directory an import path below the module path stands for, and what a replacement makes
of an import path. A rule matches whole segments only, and of several matching rules the
one with the longest path is applied, once.

## Main definitions

* `Module`: a module on disk.
* `belowPath?`: what an import path adds to another one.
* `Module.substitute?`: the effect of the replacements on an import path.
* `Module.localDirectory`: the directory of an import path of the module itself.
* `FileTree.loadModule`: the module that encloses a directory.
-/

namespace GoPlanner

/-- **A module** on disk. -/
structure Module where
  /-- The directory of the module file. -/
  root : Path
  /-- The path of the module. -/
  modulePath : String
  /-- The replacements, in order. -/
  replacements : List Replacement
deriving DecidableEq, Inhabited

/-- **What an import path adds** to a path that it equals or lies below: nothing, or the
segments after a slash. No import path lies below the empty path. -/
def belowPath? (importPath base : String) : Option String :=
  if base = "" then none
  else
    match base.toList.isPrefixOf? importPath.toList with
    | some [] => some ""
    | some ('/' :: rest) => some (String.ofList rest)
    | _ => none

/-- **What a replacement makes of an import path.** -/
inductive Substitute where
  /-- A directory. -/
  | directory (path : Path)
  /-- Another import path. -/
  | importPath (path : String)
deriving DecidableEq, Inhabited

namespace Module

/-- Of two matching rules, the one with the longer path; of two equally long ones, the
later. -/
def preferred (best : Option (Replacement × String)) (rule : Replacement × String) :
    Option (Replacement × String) :=
  match best with
  | none => some rule
  | some b =>
    if b.1.oldPath.utf8ByteSize ≤ rule.1.oldPath.utf8ByteSize then some rule else some b

/-- The rules that match an import path, with what the import path adds to each. -/
def matching (m : Module) (importPath : String) : List (Replacement × String) :=
  m.replacements.filterMap
    (fun r => (belowPath? importPath r.oldPath).map (fun rest => (r, rest)))

/-- The effect of one rule, given what the import path adds to its path. -/
def applied (m : Module) (rule : Replacement) (rest : String) : Substitute :=
  match rule.target with
  | .directory path => .directory ((m.root.join path).descend rest)
  | .module path _ => .importPath (if rest = "" then path else path ++ "/" ++ rest)

/-- **The effect of the replacements** on an import path. -/
def substitute? (m : Module) (importPath : String) : Option Substitute :=
  ((m.matching importPath).foldl preferred none).map (fun rule => m.applied rule.1 rule.2)

/-- **The directory** of an import path at or below the path of the module. -/
def localDirectory (m : Module) (importPath : String) : Option Path :=
  (belowPath? importPath m.modulePath).map m.root.descend

end Module

/-- The directory of the nearest module file at or above a path. -/
def FileTree.moduleRoot? (t : FileTree) (start : Path) : Option Path :=
  t.upward? moduleFileName start

/-- **The module** that encloses a path, if there is a module file at all. -/
def FileTree.loadModule (t : FileTree) (start : Path) : Except ModuleError (Option Module) :=
  match t.moduleRoot? start with
  | none => .ok none
  | some root =>
    let file := root.child moduleFileName
    match t.readText file with
    | .error fault => .error (.refused file fault)
    | .ok text =>
      match ModuleFile.parse text with
      | .error e => .error e
      | .ok m => .ok (some ⟨root, m.modulePath, m.replacements⟩)

end GoPlanner

import GoPlanner.ModuleFile.Module
import GoPlanner.Target

/-!
# Locating Imports

An import path is looked up in a fixed order of places, and the first place that is there
wins. A path that is found nowhere is looked up again without the version at its end.

## Main definitions

* `Location`: what an import path stands for.
* `Locator`: where import paths are looked up.
* `Locator.candidates`: the places for an import path, in order.
* `Locator.locate`: the location of an import path.
-/

namespace GoPlanner

/-- **What an import path stands for.** -/
inductive Location where
  /-- A directory of source files, which may belong to the Go distribution. -/
  | source (directory : Path) (isInternal : Bool)
  /-- A package of the standard library with its archive. -/
  | archived (directory : Path) (archive : Path)
  /-- A package that only the compiler knows. -/
  | builtin
deriving DecidableEq, Inhabited

namespace Location

/-- The location in words. -/
def describe : Location → String
  | source directory true => directory.text ++ " (GOROOT)"
  | source directory false => directory.text
  | archived _ archive => archive.text ++ " (precompiled)"
  | builtin => "pseudo-package"

/-- Whether a location is there: a directory of sources, or an archive. -/
def isThere (t : FileTree) : Location → Bool
  | source directory _ => t.isDirectory directory
  | archived _ archive => t.isFile archive
  | builtin => true

end Location

/-- The import paths of packages that only the compiler knows. -/
def builtinPackages : List String :=
  ["unsafe", "C"]

/-- **Where import paths are looked up.** -/
structure Locator where
  /-- The target of the build. -/
  target : Target
  /-- The directory of the root package. -/
  buildRoot : Path
  /-- The module of the root package. -/
  module? : Option Module := none
deriving DecidableEq, Inhabited

/-- The characters behind a slash, or all of them if no slash comes first. -/
def behindSlash : List Char → List Char
  | '/' :: cs => cs
  | cs => cs

/-- Leaving out a slash makes a text no longer. -/
theorem behindSlash_length_le (cs : List Char) : (behindSlash cs).length ≤ cs.length := by
  unfold behindSlash
  split <;> simp

/-- An import path without the version at its end: a slash, the letter `v` and digits, with
or without one more slash. -/
def withoutVersion? (importPath : String) : Option String :=
  let backward := behindSlash importPath.toList.reverse
  match backward.takeWhile Char.isDigit, backward.dropWhile Char.isDigit with
  | _ :: _, 'v' :: '/' :: before => some (String.ofList before.reverse)
  | _, _ => none

/-- Leaving out a version shortens an import path. -/
theorem withoutVersion?_length {importPath shorter : String}
    (h : withoutVersion? importPath = some shorter) :
    shorter.toList.length < importPath.toList.length := by
  unfold withoutVersion? at h
  dsimp only at h
  have hle := behindSlash_length_le importPath.toList.reverse
  rw [List.length_reverse] at hle
  split at h
  · rename_i before _ hdrop
    obtain rfl := Option.some.inj h
    have hsuffix := List.dropWhile_suffix Char.isDigit (l := behindSlash importPath.toList.reverse)
    rw [hdrop] at hsuffix
    have := hsuffix.length_le
    simp only [List.length_cons] at this
    simp only [String.toList_ofList, List.length_reverse]
    omega
  · simp at h

namespace Locator

/-- The directory below which vendored packages lie: that of the module, or else that of
the root package. -/
def vendorBase (l : Locator) : Path :=
  (l.module?.map (·.root)).getD l.buildRoot

/-- The effect of the replacements of the module on an import path. -/
def substitute? (l : Locator) (importPath : String) : Option Substitute :=
  l.module?.bind (fun m => m.substitute? importPath)

/-- The import path that is looked up in the stead of another one. -/
def lookedUp (l : Locator) (importPath : String) : String :=
  match l.substitute? importPath with
  | some (.importPath path) => path
  | _ => importPath

/-- The directory that replaces an import path. -/
def replacing (l : Locator) (importPath : String) : List Location :=
  match l.substitute? importPath with
  | some (.directory path) => [.source path false]
  | _ => []

/-- The places for an import path that no directory replaces. -/
def ordinary (l : Locator) (importPath : String) : List Location :=
  ((l.module?.bind (fun m => m.localDirectory importPath)).map
      (fun directory => Location.source directory false)).toList ++
    [.source ((l.vendorBase.child "vendor").descend importPath) false] ++
    l.target.searchPath.map (fun base => .source (base.descend importPath) false) ++
    [.archived (l.target.sourceDir.descend importPath)
        (l.target.archiveDir.descend (importPath ++ ".a")),
      .source ((l.target.sourceDir.child "vendor").descend importPath) true,
      .source (l.target.sourceDir.descend importPath) true]

/-- **The places for an import path,** in order. -/
def candidates (l : Locator) (importPath : String) : List Location :=
  l.replacing importPath ++ l.ordinary (l.lookedUp importPath)

/-- The first place that is there. -/
def locateExactly (l : Locator) (t : FileTree) (importPath : String) : Option Location :=
  if builtinPackages.contains importPath then some .builtin
  else (l.candidates importPath).find? (Location.isThere t)

/-- **The location of an import path.** As long as it has none, versions are left out from
its end. -/
def locate (l : Locator) (t : FileTree) (importPath : String) : Option Location :=
  match l.locateExactly t importPath with
  | some location => some location
  | none =>
    match _h : withoutVersion? importPath with
    | some shorter => locate l t shorter
    | none => none
termination_by importPath.toList.length
decreasing_by exact withoutVersion?_length _h

end Locator

end GoPlanner

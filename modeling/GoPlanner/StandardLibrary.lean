import GoPlanner.FileTree.Below

/-!
# The Precompiled Standard Library

A Go distribution may hold its standard library as archives, in a directory for each
platform. The path of an archive below that directory, without the extension, is the path
by which its package is imported.

## Main definitions

* `archivedImportPath?`: the import path of a file in the directory.
* `FileTree.archivesIn`: all archives with their import paths.
-/

namespace GoPlanner

/-- The import path that steps spell. -/
def spelled (steps : List String) : String :=
  "/".intercalate ((Path.mk ("/".intercalate steps)).components.map Component.text)

/-- **The import path** of the archive that lies some steps below the directory; other
files have none. -/
def archivedImportPath? (steps : List String) : Option String :=
  match steps.getLast?.bind splitExtension? with
  | some (stem, "a") => some (spelled (steps.dropLast ++ [stem]))
  | _ => none

namespace FileTree

/-- The archive of a file that lies some steps below a directory. -/
def archiveAt? (directory : Path) (steps : List String) : Option (String × Path) :=
  (archivedImportPath? steps).map (fun importPath => (importPath, steps.foldl Path.child directory))

/-- **All archives** below a directory with their import paths. If the path leads to a
file in the stead of a directory, that is the only archive there can be. -/
def archivesIn (t : FileTree) (directory : Path) : Except Fault (List (String × Path)) :=
  match t.find directory with
  | .error fault => .error (.walk directory.text fault)
  | .ok (place, .directory) => .ok ((t.filesBelow place).filterMap (archiveAt? directory))
  | .ok _ =>
    if !t.isLink directory && directory.fileName?.bind extension? == some "a" then
      .ok [("", directory)]
    else .ok []

end FileTree

end GoPlanner

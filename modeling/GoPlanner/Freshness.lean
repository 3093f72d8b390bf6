import GoPlanner.FileTree.Read
import GoPlanner.Layout

/-!
# Archives of Earlier Runs

An archive that an earlier run left in the build directory can be used again as long as
nothing in the directory of its package has changed since.

## Main definitions

* `FileTree.isNewerInside`: whether something in a directory is newer than a time.
* `FileTree.usableArchive?`: the archive of a package, if it can be used again.
-/

namespace GoPlanner

namespace FileTree

/-- Whether some entry of the directory at a place was changed after a time. Links count
with their own times. -/
def isNewerInside (t : FileTree) (place : Place) (time : Int) : Bool :=
  (t.names place).any
    (fun name => ((t.entry? (place ++ [name])).map (fun e => decide (time < e.modified))).getD
      false)

/-- **The archive of a package,** if it is there and nothing in the directory of the
package is newer. -/
def usableArchive? (t : FileTree) (layout : Layout) (importPath : String) (directory : Path) :
    Option Path :=
  match t.modified (layout.archive importPath), t.list directory with
  | .ok built, .ok (place, _) =>
    if t.isNewerInside place built then none else some (layout.archive importPath)
  | _, _ => none

end FileTree

end GoPlanner

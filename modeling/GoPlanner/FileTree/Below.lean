import GoPlanner.FileTree.Read

/-!
# Everything Below a Directory

The entries below a directory are named by the steps that lead to them. They come in the
order of these steps, so a directory comes before its entries, and the entries of one
directory come in the order of their names. Links are entries; they are not followed.

## Main definitions

* `FileTree.below`: everything below a place.
* `FileTree.filesBelow`: the files among them.
-/

namespace GoPlanner

namespace FileTree

/-- **Everything below a place,** as steps from it. -/
def below (t : FileTree) (place : Place) : List (List String × Node) :=
  let found := t.entries.filterMap
    (fun e => (place.isPrefixOf? e.1).map (fun steps => (steps, e.2.node)))
  sortedBy (fun a b => !List.lex b.1 a.1) (found.filter (fun e => e.1 != []))

/-- **The files below a place,** as steps from it. -/
def filesBelow (t : FileTree) (place : Place) : List (List String) :=
  (t.below place).filterMap
    (fun e => match e.2 with
      | .file _ _ => some e.1
      | _ => none)

end FileTree

end GoPlanner

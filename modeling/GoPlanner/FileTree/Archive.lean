import GoPlanner.FileTree.Write

/-!
# Text Archives

A text archive holds text files one after the other. A line with a path between two pairs
of hyphens begins a file, and all lines up to the next one are its content; what stands in
front of the first file is a comment. Paths are read in the working directory.

## Main definitions

* `Archive.headerOf?`: the path on a line that begins a file.
* `Archive.filesOf`: the files of an archive.
* `FileTree.ofArchive`: the tree with the files of an archive.
* `FileTree.changedSince`: the files that were written after a time.
-/

namespace GoPlanner

namespace Archive

/-- **The path on a line that begins a file.** -/
def headerOf? (line : String) : Option String :=
  if startsWith "-- " line && endsWith " --" line && line.length > 6 then
    some (trimmed (String.ofList (((line.toList.drop 3).reverse.drop 3).reverse)))
  else none

/-- The lines in front of the first file, and the files behind them. -/
def gather (lines : List String) : List String × List (String × String) :=
  lines.foldr (fun line found =>
    match headerOf? line with
    | some path => ([], (path, String.join (found.1.map (· ++ "\n"))) :: found.2)
    | none => (line :: found.1, found.2)) ([], [])

/-- **The files of an archive,** in order. -/
def filesOf (text : String) : List (String × String) :=
  (gather ((Text.lines text.toList).map String.ofList)).2

end Archive

namespace FileTree

/-- A tree that holds one directory, which is the working directory, with its ancestors. -/
def empty (cwd : Place) : FileTree :=
  (List.range cwd.length).foldl (fun t n => t.put (cwd.take (n + 1)) ⟨.directory, 0⟩)
    { cwd := cwd }

/-- **The tree with the files of an archive.** A file that cannot be written is left out. -/
def ofArchive (cwd : Place) (text : String) : FileTree :=
  (Archive.filesOf text).foldl (fun t file =>
    let path : Path := ⟨file.1⟩
    match (t.makeDirectories (path.parent?.getD ⟨""⟩)).bind (·.write path (.text file.2)) with
    | .ok t' => t'
    | .error _ => t) (empty cwd)

/-- **The files that were written after a time,** by their places. -/
def changedSince (t : FileTree) (time : Int) : List (Place × Content) :=
  t.entries.filterMap (fun e =>
    match e.2.node with
    | .file c _ => if time < e.2.modified then some (e.1, c) else none
    | _ => none)

end FileTree

end GoPlanner

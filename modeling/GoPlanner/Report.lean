import GoPlanner.Graph.Order

/-!
# The Table of Packages

The packages of a build are reported as a table in a frame. Columns are as wide as their
widest cell, unless the table would not fit on a line: then the widest columns give up
width, and cells that no longer fit are cut.

## Main definitions

* `PackageGraph.rows`: the rows of the table, in build order.
* `Table.fitted`: the widths of the columns.
* `Table.render`: the table.
-/

namespace GoPlanner

namespace PackageGraph

/-- The row of a package. -/
def row (g : PackageGraph) (p : Package) : List String :=
  [p.importPath, p.name, if p.isInternal then "yes" else "no", toString p.fileCount,
    (p.cachedArchive.map (·.text)).getD "-",
    " ".intercalate (p.imports.filterMap (fun id => (g.package? id).map (·.importPath)))]

/-- **The rows** of the table: every package that the root leads to, in build order. -/
def rows (g : PackageGraph) : List (List String) :=
  g.buildOrder.filterMap (fun id => (g.package? id).map g.row)

end PackageGraph

namespace Table

/-- The widest line. -/
def lineWidth : Nat :=
  100

/-- How much of a line the frame takes up beside `columns` columns. -/
def frameWidth (columns : Nat) : Nat :=
  3 * columns + 1

/-- Makes the last of the widest columns smaller by one. -/
def shrinkWidest (widths : List Nat) : List Nat :=
  let widest := widths.foldl max 0
  match widths.reverse.idxOf? widest with
  | some back => widths.modify (widths.length - 1 - back) (· - 1)
  | none => widths

/-- Makes columns smaller until the sum of their widths is at most `room`, given how many
steps may be needed. -/
def shrink (room : Nat) : Nat → List Nat → List Nat
  | 0, widths => widths
  | steps + 1, widths =>
    if widths.foldl (· + ·) 0 ≤ room then widths else shrink room steps (shrinkWidest widths)

/-- **The widths of the columns** for the given rows. -/
def fitted (rows : List (List String)) (columns : Nat) : List Nat :=
  let natural := (List.range columns).map
    (fun i => (rows.map (fun row => (row.getD i "").length)).foldl max 0)
  shrink (lineWidth - frameWidth columns) (natural.foldl (· + ·) 0) natural

/-- A cell of the given width; a plus sign stands where it was cut. -/
def cell (width : Nat) (s : String) : String :=
  if s.length ≤ width then s ++ String.ofList (List.replicate (width - s.length) ' ')
  else if width = 0 then ""
  else String.ofList (s.toList.take (width - 1)) ++ "+"

/-- A line of cells between bars. -/
def line (widths : List Nat) (row : List String) : String :=
  "│ " ++ " │ ".intercalate (List.zipWith cell widths row) ++ " │\n"

/-- A line of the frame. -/
def rule (left middle right : String) (widths : List Nat) : String :=
  left ++ middle.intercalate
    (widths.map (fun w => String.ofList (List.replicate (w + 2) '─'))) ++ right ++ "\n"

/-- **The table** of rows below their header. A table without rows is an empty frame. -/
def render (header : List String) (rows : List (List String)) : String :=
  if rows.isEmpty then "┌──┐\n│  │\n└──┘\n"
  else
    let widths := fitted (header :: rows) header.length
    rule "┌" "┬" "┐" widths ++ line widths header ++ rule "├" "┼" "┤" widths ++
      String.join (rows.map (line widths)) ++ rule "└" "┴" "┘" widths

end Table

namespace PackageGraph

/-- The header of the table. -/
def header : List String :=
  ["Import Path", "Name", "GOROOT", "Files", "Cached Archive", "Imports"]

/-- **The table of packages.** -/
def table (g : PackageGraph) : String :=
  Table.render header g.rows

end PackageGraph

end GoPlanner

import GoPlanner.Graph.Basic

/-!
# Stale Archives

An archive is stale when its package imports, directly or through others, a package that
is to be built anew. Stale archives are found by a walk through the imports from the root
that knows its answer for every package that it has left. The walk does not look out for
circles: on a way that leads around in one it goes on for ever. Every run is therefore given
how deep it may go. A way that is longer than there are packages leads around in a circle, so
a run that may go as deep as there are packages has a result if any run has one.

## Main definitions

* `Sifting`: what the walk carries along.
* `Sifting.sift?`: the walk from one package, with no result where it has to go too deep.
* `PackageGraph.dropStale?`, `PackageGraph.dropStale`: takes away all stale archives.
-/

namespace GoPlanner

/-- **What the walk for stale archives carries along.** -/
structure Sifting where
  /-- The packages, with the archives that are left. -/
  graph : PackageGraph
  /-- Whether an archive is used for a package that the walk has left. -/
  known : List (PackageId × Bool) := []
  /-- The import paths of the packages that lost their archive. -/
  lost : List String := []
deriving DecidableEq, Inhabited

namespace Sifting

/-- Takes away the archive of a package, if it has one. -/
def drop (s : Sifting) (id : PackageId) : Sifting :=
  match s.graph.package? id with
  | some p =>
    if p.isCached then { s with graph := s.graph.setArchive id none, lost := s.lost ++ [p.importPath] }
    else s
  | none => s

/-- Leaves a package, given whether all packages that it imports are used as archives. -/
def settle (s : Sifting) (id : PackageId) (isGrounded : Bool) : Bool × Sifting :=
  let s := if isGrounded then s else s.drop id
  let isCached := s.graph.isCached id
  (isCached, { s with known := (id, isCached) :: s.known })

/-- Visits one more import, given the walk from it. What came of the imports before is carried
along. -/
def visit (sift : PackageId → Sifting → Option (Bool × Sifting)) (r : Bool × Sifting)
    (dependency : PackageId) : Option (Bool × Sifting) := do
  let (isCached, s) ← sift dependency r.2
  pure (r.1 && isCached, s)

/-- **The walk** from a package: whether an archive is used for it. All its imports are
visited, also behind one that has to be built anew. There is no result if the walk has to go
deeper than `depth` packages. -/
def sift? (depth : Nat) (id : PackageId) (s : Sifting) : Option (Bool × Sifting) :=
  match s.known.lookup id, depth with
  | some isCached, _ => some (isCached, s)
  | none, 0 => none
  | none, depth + 1 => do
    let (isGrounded, s) ← (s.graph.importsOf id).foldlM (visit (sift? depth)) (true, s)
    pure (s.settle id isGrounded)

end Sifting

namespace PackageGraph

/-- **Takes away all stale archives.** With the graph come the import paths of the packages
that lost theirs, in the order in which the walk left them. There is no result if the walk
does not end. -/
def dropStale? (g : PackageGraph) : Option (PackageGraph × List String) :=
  if g.isEmpty then some (g, [])
  else (Sifting.sift? g.size root { graph := g }).map (fun r => (r.2.graph, r.2.lost))

/-- The same for a graph on which the walk is known to end. -/
def dropStale (g : PackageGraph) : PackageGraph × List String :=
  g.dropStale?.getD (g, [])

end PackageGraph

end GoPlanner

import GoPlanner.Path

/-!
# Package Graphs

A package graph holds the packages of one build with their imports. A package is named by
its number, and no two packages lie in one directory: a directory that is met again, by
whatever import path, is the package registered for it first. The first package is the
root of the build.

## Main definitions

* `Package`: one package.
* `PackageGraph`: packages by number.
* `PackageGraph.register`: the number of a package, which is added if its directory is new.
* `PackageGraph.addImport`, `PackageGraph.addAlias`: what is learned about packages later.
* `PackageGraph.byDirectory?`: the package of a directory.
-/

namespace GoPlanner

/-- The number of a package in its graph. -/
abbrev PackageId : Type :=
  Nat

/-- **A package.** -/
structure Package where
  /-- The directory of the package. -/
  directory : Path
  /-- The path by which it was imported first. -/
  importPath : String
  /-- The name in the package clause of its files. -/
  name : String
  /-- Whether it is part of the Go distribution. -/
  isInternal : Bool := false
  /-- The Go files to be compiled. -/
  goFiles : List String := []
  /-- The assembly files to be assembled. -/
  asmFiles : List String := []
  /-- The archive that is used in place of a new one. -/
  cachedArchive : Option Path := none
  /-- The packages that it imports. -/
  imports : List PackageId := []
  /-- Other paths by which it is imported. -/
  aliases : List String := []
deriving DecidableEq, Inhabited

namespace Package

/-- Whether an archive is used in place of a new one. -/
def isCached (p : Package) : Bool :=
  p.cachedArchive.isSome

/-- Whether the package has assembly files. -/
def hasAssembly (p : Package) : Bool :=
  !p.asmFiles.isEmpty

/-- The paths of the Go files. -/
def goPaths (p : Package) : List Path :=
  p.goFiles.map p.directory.child

/-- The paths of the assembly files. -/
def asmPaths (p : Package) : List Path :=
  p.asmFiles.map p.directory.child

/-- How many files take part in the build of the package. -/
def fileCount (p : Package) : Nat :=
  p.goFiles.length + p.asmFiles.length

/-- The package with one more import, unless it is there. -/
def withImport (p : Package) (dependency : PackageId) : Package :=
  if dependency ∈ p.imports then p
  else { p with imports := p.imports ++ [dependency] }

/-- The package with one more import path, unless it has it. -/
def withAlias (p : Package) (importPath : String) : Package :=
  if importPath = p.importPath || p.aliases.contains importPath then p
  else { p with aliases := p.aliases ++ [importPath] }

/-- All import paths of the package. -/
def importPaths (p : Package) : List String :=
  p.importPath :: p.aliases

end Package

/-- **A package graph.** -/
structure PackageGraph where
  /-- The packages by number. -/
  packages : List Package := []
  /-- Whether the standard library is there as archives. -/
  precompiled : Bool := false
deriving DecidableEq, Inhabited

namespace PackageGraph

/-- The number of the root. -/
def root : PackageId :=
  0

/-- How many packages there are. -/
def size (g : PackageGraph) : Nat :=
  g.packages.length

/-- Whether there is no package. -/
def isEmpty (g : PackageGraph) : Bool :=
  g.packages.isEmpty

/-- The package of a number. -/
def package? (g : PackageGraph) (id : PackageId) : Option Package :=
  g.packages[id]?

/-- The imports of a package. -/
def importsOf (g : PackageGraph) (id : PackageId) : List PackageId :=
  ((g.package? id).map (·.imports)).getD []

/-- **The package of a directory.** -/
def byDirectory? (g : PackageGraph) (directory : Path) : Option PackageId :=
  g.packages.findIdx? (fun p => p.directory.same directory)

/-- The first package of an import path; aliases are not searched. -/
def byImportPath? (g : PackageGraph) (importPath : String) : Option PackageId :=
  g.packages.findIdx? (fun p => p.importPath == importPath)

/-- **Registers** a package and gives its number. If its directory is taken, the number is
that of the package there, and nothing changes. -/
def register (g : PackageGraph) (p : Package) : PackageId × PackageGraph :=
  match g.byDirectory? p.directory with
  | some id => (id, g)
  | none => (g.size, { g with packages := g.packages ++ [p] })

/-- The graph with one package changed. -/
def modify (g : PackageGraph) (id : PackageId) (f : Package → Package) : PackageGraph :=
  { g with packages := g.packages.modify id f }

/-- **Records an import;** one that is recorded already changes nothing. -/
def addImport (g : PackageGraph) (importer dependency : PackageId) : PackageGraph :=
  g.modify importer (fun p => p.withImport dependency)

/-- **Records another import path** of a package. -/
def addAlias (g : PackageGraph) (id : PackageId) (importPath : String) : PackageGraph :=
  g.modify id (fun p => p.withAlias importPath)

/-- Gives a package the archive that is used for it, or takes it away. -/
def setArchive (g : PackageGraph) (id : PackageId) (archive : Option Path) : PackageGraph :=
  g.modify id (fun p => { p with cachedArchive := archive })

/-- Whether an archive is used for a package. -/
def isCached (g : PackageGraph) (id : PackageId) : Bool :=
  ((g.package? id).map Package.isCached).getD false

end PackageGraph

end GoPlanner

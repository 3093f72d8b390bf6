import GoPlanner.Proofs.Graph.Log

/-!
# Graphs with an Index of Their Directories

The package of a directory is found by a search through all packages. A graph can keep an index
instead: a map from the steps of a directory to the number of its package, with one entry more
whenever a package is added. As long as a graph comes about by changes from one without packages,
the index and the packages are inverse to each other, so that the search and the index give the same
answers.

## Main definitions

* `IndexedGraph`: a graph with an index of its directories.
* `PackageGraph.LiesIn`: the packages of a directory.
* `PackageGraph.Represents`: what a graph has of its log.

## Main results

* `IndexedGraph.Agrees.register`, `IndexedGraph.Agrees.perform`: a change that goes by the index
  does what it does to the graph.
* `PackageGraph.Logged.represents`: what a graph has of its log, with or without an index.
-/

namespace GoPlanner

open PackageGraph (Change Logged)

deriving instance Hashable for Component

/-! ### The index -/

/-- **A graph with an index** of its directories. -/
structure IndexedGraph where
  /-- The graph. -/
  graph : PackageGraph
  /-- The numbers of the packages by the steps of their directories. -/
  index : Std.HashMap (List Component) PackageId

namespace IndexedGraph

/-- A graph without packages. -/
def new (precompiled : Bool) : IndexedGraph :=
  ⟨⟨[], precompiled⟩, ∅⟩

/-- **The package of a directory,** by the index. -/
def byDirectory? (r : IndexedGraph) (directory : Path) : Option PackageId :=
  r.index[directory.components]?

/-- **Registers a package,** by the index. A package that is added gets an entry. -/
def register (r : IndexedGraph) (p : Package) : PackageId × IndexedGraph :=
  match r.byDirectory? p.directory with
  | some id => (id, r)
  | none =>
    (r.graph.size, ⟨r.graph.extended p, r.index.insert p.directory.components r.graph.size⟩)

/-- The graph with one change more. -/
def perform (r : IndexedGraph) : Change → IndexedGraph
  | .register p => (r.register p).2
  | c => { r with graph := r.graph.perform c }

/-- The index gives the answers of the search. -/
def Agrees (r : IndexedGraph) : Prop :=
  ∀ directory, r.byDirectory? directory = r.graph.byDirectory? directory

variable {r : IndexedGraph} {p : Package} {c : Change} {log : List Change}

/-- **Registering by the index** does to the graph what registering does. -/
theorem Agrees.register (h : r.Agrees) (p : Package) :
    ((r.register p).1, (r.register p).2.graph) = r.graph.register p ∧ (r.register p).2.Agrees := by
  cases hp : r.graph.byDirectory? p.directory with
  | some id =>
      rw [IndexedGraph.register, h p.directory, PackageGraph.register, hp]
      exact ⟨rfl, h⟩
  | none =>
      rw [IndexedGraph.register, h p.directory, hp, PackageGraph.register_of_new hp]
      refine ⟨rfl, fun directory => ?_⟩
      dsimp only
      rw [byDirectory?, Std.HashMap.getElem?_insert, PackageGraph.byDirectory?_extended hp,
        ← byDirectory?, h directory]

/-- **A change by the index** does to the graph what the change does. -/
theorem Agrees.perform (h : r.Agrees) (c : Change) :
    (r.perform c).graph = r.graph.perform c ∧ (r.perform c).Agrees := by
  cases hc : c.registered? with
  | some p =>
      obtain rfl := Change.eq_register hc
      obtain ⟨hregister, hagrees⟩ := h.register p
      exact ⟨congrArg Prod.snd hregister, hagrees⟩
  | none =>
      have hperform : r.perform c = { r with graph := r.graph.perform c } := by
        cases c with
        | register p => cases hc
        | _ => rfl
      rw [hperform]
      refine ⟨rfl, fun directory => ?_⟩
      dsimp only
      -- The search reads nothing but the directories, which only registering changes.
      rw [PackageGraph.byDirectory?_eq_findIdx?, PackageGraph.directories_perform hc,
        ← PackageGraph.byDirectory?_eq_findIdx?]
      exact h directory

/-- **All changes of a log,** by the index, give the graph of the log. -/
theorem agrees_of_logged {precompiled : Bool} {g : PackageGraph} (h : Logged precompiled log g) :
    (log.foldl perform (new precompiled)).graph = g ∧
      (log.foldl perform (new precompiled)).Agrees := by
  induction h with
  | new => exact ⟨rfl, fun directory => Std.HashMap.getElem?_empty⟩
  | @changed log g c _ _ ih =>
      obtain ⟨hgraph, hagrees⟩ := ih
      rw [List.foldl_append, List.foldl_cons, List.foldl_nil, ← hgraph]
      exact hagrees.perform c

end IndexedGraph

namespace PackageGraph

variable {g g' : PackageGraph} {log : List Change} {id : PackageId} {p : Package}
  {directory : Path} {precompiled : Bool}

/-! ### What a graph has of its log -/

/-- **A package lies in a directory** if its own directory has the same steps. -/
def LiesIn (g : PackageGraph) (id : PackageId) (directory : Path) : Prop :=
  ∃ p, g.package? id = some p ∧ p.directory.components = directory.components

/-- **In a graph of a log** the package that is found for a directory is the one that lies in it. -/
theorem Logged.byDirectory?_iff (h : Logged precompiled log g) :
    g.byDirectory? directory = some id ↔ g.LiesIn id directory := by
  constructor
  · intro hid
    obtain ⟨⟨p, hp, hsame⟩, -⟩ := byDirectory?_eq_some.1 hid
    exact ⟨p, hp, Path.same_iff.1 hsame⟩
  · rintro ⟨p, hp, hsteps⟩
    exact h.isIndexed.byDirectory? hp (Path.same_iff.2 hsteps)

/-- **What a graph has of its log.** -/
structure Represents (g : PackageGraph) (log : List Change) : Prop where
  /-- The package that is found for a directory is the one that lies in it. -/
  found : ∀ directory id, g.byDirectory? directory = some id ↔ g.LiesIn id directory
  /-- No directory has two packages. -/
  unique : ∀ directory id k, g.LiesIn id directory → g.LiesIn k directory → id = k
  /-- The numbers are those below the size. -/
  numbers : ∀ id, id < g.size ↔ ∃ p, g.package? id = some p
  /-- There are no more of them than packages were registered, so a number of 32 bits holds each of
  them unless `2 ^ 32` packages or more were registered. -/
  size_le : g.size ≤ (registeredIn log).length
  /-- The directories are numbered in the order in which they were registered first. -/
  numbered : g.directories = ((registeredIn log).map (·.directory.components)).eraseDups
  /-- A package is the one that was registered first for its directory, with what the log says of
  its number. -/
  package : ∀ id p, g.package? id = some p → ∃ first,
    (registeredIn log).find? (fun q => q.directory.same p.directory) = some first ∧
      p = asLogged log id first
  /-- Registering a package in a directory that has one gives the number of that one, and changes
  nothing. -/
  known : ∀ p id, g.LiesIn id p.directory → g.register p = (id, g)
  /-- A package in a new directory gets the next number. -/
  fresh : ∀ p, (∀ id, ¬ g.LiesIn id p.directory) → g.register p = (g.size, g.extended p)
  /-- Every import is a package of the graph. -/
  closed : ∀ id p, g.package? id = some p → ∀ dependency ∈ p.imports, dependency < g.size
  /-- The imports of a package are listed in the order in which they were recorded first, none of
  them twice. -/
  imports : ∀ id p, g.package? id = some p →
    p.imports = (importsIn log id).eraseDups ∧ p.imports.Nodup
  /-- So are its other import paths, and its own is not among them. -/
  aliases : ∀ id p, g.package? id = some p →
    p.aliases = ((aliasesIn log id).filter (fun s => s != p.importPath)).eraseDups ∧
      p.aliases.Nodup ∧ p.importPath ∉ p.aliases

theorem Logged.toRepresents (h : Logged precompiled log g) : g.Represents log where
  found := fun _ _ => h.byDirectory?_iff
  unique := fun _ _ _ hid hk =>
    Option.some.inj ((h.byDirectory?_iff.2 hid).symm.trans (h.byDirectory?_iff.2 hk))
  numbers := fun _ => ⟨exists_package, fun ⟨_, hp⟩ => lt_size_of_package? hp⟩
  size_le := h.size_le
  numbered := h.directories_eq
  package := fun _ _ hp => h.exists_asLogged hp
  known := by
    intro p id hid
    rw [register, h.byDirectory?_iff.2 hid]
  fresh := by
    intro p hnone
    exact register_of_new (Option.eq_none_iff_forall_ne_some.2 fun id hid =>
      hnone id (h.byDirectory?_iff.1 hid))
  closed := by
    intro id p hp dependency hmem
    exact h.isClosed id dependency (by rwa [Imports, importsOf_eq hp])
  imports := by
    intro id p hp
    obtain ⟨first, -, rfl⟩ := h.exists_asLogged hp
    exact ⟨rfl, nodup_eraseDups _⟩
  aliases := by
    intro id p hp
    obtain ⟨first, -, rfl⟩ := h.exists_asLogged hp
    refine ⟨rfl, nodup_eraseDups _, fun hmem => ?_⟩
    have hown := (List.mem_filter.1 (List.mem_eraseDups.1 hmem)).2
    exact absurd rfl (bne_iff_ne.1 hown)

/-- **Directories keep their numbers** while a log goes on. -/
theorem Logged.byDirectory?_of_append {more : List Change} (h : Logged precompiled log g)
    (h' : Logged precompiled (log ++ more) g') (hid : g.byDirectory? directory = some id) :
    g'.byDirectory? directory = some id := by
  have hbare (g : PackageGraph) : g.bare.byDirectory? directory = g.byDirectory? directory :=
    byDirectory?_eq_of_directories fun k => by
      rw [package?_bare, Option.map_map]
      rfl
  rw [← hbare] at hid ⊢
  exact (h.grows h').byDirectory? hid

/-- **A graph represents its log.** After any changes that can be made, directories and numbers of
packages are inverse to each other, packages are numbered as they were registered first, and imports
and import paths are listed as they were recorded first. While the log goes on, numbers and
directories keep their meaning: besides archives, packages only get more imports and import
paths. An index of the directories that is kept along with the changes leads to the same graph, and
answers as the search does. -/
theorem Logged.represents (h : Logged precompiled log g) :
    g.Represents log ∧
      (∀ more g', Logged precompiled (log ++ more) g' → g.bare.Grows g'.bare ∧
        ∀ directory id, g.byDirectory? directory = some id → g'.byDirectory? directory = some id) ∧
      ∃ indexed, log.foldl IndexedGraph.perform (IndexedGraph.new precompiled) = indexed ∧
        indexed.graph = g ∧
        (∀ directory, indexed.byDirectory? directory = g.byDirectory? directory) ∧
        ∀ p, ((indexed.register p).1, (indexed.register p).2.graph) = g.register p := by
  obtain ⟨hgraph, hagrees⟩ := IndexedGraph.agrees_of_logged h
  refine ⟨h.toRepresents, fun more g' h' => ⟨h.grows h', fun _ _ => h.byDirectory?_of_append h'⟩,
    _, rfl, hgraph, ?_, ?_⟩
  · intro directory
    rw [hagrees directory, hgraph]
  · intro p
    rw [(hagrees.register p).1, hgraph]

/-- A package that is registered in a directory. -/
def packageIn (directory importPath : String) : Package where
  directory := ⟨directory⟩
  importPath := importPath
  name := importPath

/-- A directory that is registered a second time, in other words, and a package that is given its
own import path, and another one twice. -/
def sharedLog : List Change :=
  [.register (packageIn "/app" "main"), .register (packageIn "/lib/" "lib"), .addImport 0 1,
    .addImport 0 1, .register (packageIn "//lib/." "lib/v2"), .addAlias 1 "lib/v2",
    .addAlias 1 "lib", .addAlias 1 "lib/v2", .setArchive 1 (some ⟨"/b/lib.a"⟩)]

theorem Logged.represents_sharedLog :
    ∃ g, Logged false sharedLog g ∧ g.directories.length = 2 ∧
      g.byDirectory? ⟨"/lib//"⟩ = some 1 ∧ g.byDirectory? ⟨"/app/../lib"⟩ = none ∧
      g.register (packageIn "/lib" "other") = (1, g) ∧
      (g.package? 0).map (·.imports) = some [1] ∧
      (g.package? 1).map (·.aliases) = some ["lib/v2"] := by
  have h : Logged false sharedLog (sharedLog.foldl perform ⟨[], false⟩) :=
    Logged.new.append (by decide +kernel)
  obtain ⟨hrep, -, -⟩ := Logged.represents h
  have hlies (text : String) (htext : Path.components ⟨text⟩ = [.root, .name "lib"]) :
      (sharedLog.foldl perform ⟨[], false⟩).LiesIn 1 ⟨text⟩ := by
    refine ⟨⟨⟨"/lib/"⟩, "lib", "lib", false, [], [], some ⟨"/b/lib.a"⟩, [], ["lib/v2"]⟩, ?_, ?_⟩
    · decide +kernel
    · rw [htext]
      decide +kernel
  refine ⟨_, h, ?_, (hrep.found _ _).2 (hlies "/lib//" (by decide +kernel)), by decide +kernel,
    hrep.known _ _ (hlies "/lib" (by decide +kernel)), by decide +kernel, by decide +kernel⟩
  rw [hrep.numbered]
  decide +kernel

end PackageGraph

end GoPlanner

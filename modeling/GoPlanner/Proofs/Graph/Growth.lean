import GoPlanner.Proofs.Graph.Imports

/-!
# Growing Graphs

Discovery only adds to a graph: packages at its end, and imports and import paths at the
ends of the lists of a package. So the numbers of packages and directories never change
their meaning.

## Main definitions

* `Package.Evolves`: a package with more imports and import paths.
* `PackageGraph.Grows`: a graph with more packages, which have evolved.
* `PackageGraph.IsIndexed`: every package is the one of its directory.
* `PackageGraph.extended`: the graph with one more package.

## Main results

* `PackageGraph.Grows.byDirectory?`: a directory keeps its package.
* `PackageGraph.grows_addImport`, `PackageGraph.grows_addAlias`,
  `PackageGraph.grows_extended`: the ways in which a graph grows.
* `PackageGraph.IsIndexed.extended`, `PackageGraph.IsIndexed.modify`: a graph stays indexed.
-/

namespace GoPlanner

/-! ### Directories -/

theorem Path.same_iff {p q : Path} : p.same q = true ↔ p.components = q.components := by
  simp [Path.same]

@[simp] theorem Path.same_self (p : Path) : p.same p = true :=
  Path.same_iff.2 rfl

theorem Path.same_comm (p q : Path) : p.same q = q.same p := by
  rw [Bool.eq_iff_iff, Path.same_iff, Path.same_iff, eq_comm]

theorem Path.same_trans {p q r : Path} (h : p.same q = true) (h' : q.same r = true) :
    p.same r = true :=
  Path.same_iff.2 ((Path.same_iff.1 h).trans (Path.same_iff.1 h'))

/-! ### Packages -/

/-- **A package evolves** when imports and import paths are added to it. -/
structure Package.Evolves (p q : Package) : Prop where
  /-- Everything else stays as it is. -/
  fields : q = { p with imports := q.imports, aliases := q.aliases }
  /-- Imports are added at the end. -/
  imports : p.imports <+: q.imports
  /-- Import paths are added at the end. -/
  aliases : p.aliases <+: q.aliases

namespace Package.Evolves

variable {p q r : Package}

theorem refl (p : Package) : p.Evolves p :=
  ⟨rfl, List.prefix_rfl, List.prefix_rfl⟩

theorem trans (hpq : p.Evolves q) (hqr : q.Evolves r) : p.Evolves r where
  fields := by
    rw [hqr.fields, hpq.fields]
  imports := hpq.imports.trans hqr.imports
  aliases := hpq.aliases.trans hqr.aliases

theorem directory (h : p.Evolves q) : q.directory = p.directory := by
  rw [h.fields]

theorem importPath (h : p.Evolves q) : q.importPath = p.importPath := by
  rw [h.fields]

theorem goFiles (h : p.Evolves q) : q.goFiles = p.goFiles := by
  rw [h.fields]

theorem cachedArchive (h : p.Evolves q) : q.cachedArchive = p.cachedArchive := by
  rw [h.fields]

theorem importPaths (h : p.Evolves q) : p.importPaths <+: q.importPaths := by
  rw [Package.importPaths, Package.importPaths, h.importPath]
  exact (List.prefix_cons_inj _).2 h.aliases

theorem withImport (p : Package) (dependency : PackageId) : p.Evolves (p.withImport dependency) := by
  rw [Package.withImport]
  split
  · exact refl p
  · exact ⟨rfl, List.prefix_append _ _, List.prefix_rfl⟩

theorem withAlias (p : Package) (importPath : String) : p.Evolves (p.withAlias importPath) := by
  rw [Package.withAlias]
  split
  · exact refl p
  · exact ⟨rfl, List.prefix_rfl, List.prefix_append _ _⟩

end Package.Evolves

/-- A package has every import path that it was given. -/
theorem Package.mem_importPaths_withAlias {p : Package} {importPath other : String} :
    other ∈ (p.withAlias importPath).importPaths ↔ other ∈ p.importPaths ∨ other = importPath := by
  rw [Package.withAlias]
  split
  · rename_i h
    have hmem : importPath ∈ p.importPaths := by
      simpa [Package.importPaths] using h
    constructor
    · exact Or.inl
    · rintro (h | rfl)
      · exact h
      · exact hmem
  · simp [Package.importPaths, or_assoc]

@[simp] theorem Package.imports_withAlias {p : Package} {importPath : String} :
    (p.withAlias importPath).imports = p.imports := by
  rw [Package.withAlias]
  split <;> rfl

namespace PackageGraph

variable {g g' g'' : PackageGraph} {id k : PackageId} {directory : Path} {p : Package}

/-! ### Changing one package -/

@[simp] theorem package?_modify {f : Package → Package} :
    (g.modify id f).package? k = (g.package? k).map (fun p => if id = k then f p else p) := by
  simp [package?, modify, List.getElem?_modify]

@[simp] theorem size_modify {f : Package → Package} : (g.modify id f).size = g.size := by
  simp [size, modify]

/-- The graph with one more package. -/
def extended (g : PackageGraph) (p : Package) : PackageGraph :=
  { g with packages := g.packages ++ [p] }

theorem package?_extended :
    (g.extended p).package? k = if k = g.size then some p else g.package? k := by
  unfold package? extended size
  rcases Nat.lt_trichotomy k g.packages.length with hlt | rfl | hgt
  · rw [List.getElem?_append_left hlt, if_neg (Nat.ne_of_lt hlt)]
  · simp
  · rw [if_neg (Nat.ne_of_gt hgt), List.getElem?_eq_none (Nat.le_of_lt hgt)]
    exact List.getElem?_eq_none (by simp; omega)

@[simp] theorem size_extended : (g.extended p).size = g.size + 1 := by
  simp [size, extended]

/-- A package whose directory is new is added at the end. -/
theorem register_of_new (h : g.byDirectory? p.directory = none) :
    g.register p = (g.size, g.extended p) := by
  rw [register, h]
  rfl

theorem importsOf_addAlias {importPath : String} :
    (g.addAlias id importPath).importsOf k = g.importsOf k := by
  simp only [importsOf, addAlias]
  rw [package?_modify]
  cases g.package? k with
  | none => rfl
  | some p => by_cases h : id = k <;> simp [h]

theorem importsOf_addImport {dependency : PackageId} (hne : k ≠ id) :
    (g.addImport id dependency).importsOf k = g.importsOf k := by
  simp only [importsOf, addImport]
  rw [package?_modify]
  cases g.package? k with
  | none => rfl
  | some p => simp [Ne.symm hne]

/-- An import is recorded once. -/
theorem importsOf_addImport_self {dependency : PackageId} (hid : id < g.size) :
    (g.addImport id dependency).importsOf id =
      if dependency ∈ g.importsOf id then g.importsOf id else g.importsOf id ++ [dependency] := by
  obtain ⟨p, hp⟩ := exists_package hid
  unfold importsOf addImport
  rw [package?_modify, hp]
  simp only [Option.map_some, if_true, Option.getD_some, Package.withImport]
  split <;> rfl

theorem importsOf_extended :
    (g.extended p).importsOf k = if k = g.size then p.imports else g.importsOf k := by
  rw [importsOf]
  rw [package?_extended]
  split <;> rfl

/-! ### Growing -/

/-- **A graph grows** when packages are added, and those that are there evolve. -/
structure Grows (g g' : PackageGraph) : Prop where
  /-- The standard library stays as it is. -/
  precompiled : g'.precompiled = g.precompiled
  /-- Packages evolve. -/
  package : ∀ id p, g.package? id = some p → ∃ q, g'.package? id = some q ∧ p.Evolves q

theorem Grows.refl (g : PackageGraph) : g.Grows g :=
  ⟨rfl, fun _ p hp => ⟨p, hp, Package.Evolves.refl p⟩⟩

theorem Grows.trans (h : g.Grows g') (h' : g'.Grows g'') : g.Grows g'' where
  precompiled := h'.precompiled.trans h.precompiled
  package := by
    intro id p hp
    obtain ⟨q, hq, hpq⟩ := h.package id p hp
    obtain ⟨r, hr, hqr⟩ := h'.package id q hq
    exact ⟨r, hr, hpq.trans hqr⟩

theorem Grows.lt_size (h : g.Grows g') (hid : id < g.size) : id < g'.size := by
  obtain ⟨p, hp⟩ := exists_package hid
  obtain ⟨q, hq, -⟩ := h.package id p hp
  exact lt_size_of_package? hq

theorem Grows.imports (h : g.Grows g') {dependency : PackageId}
    (himports : g.Imports id dependency) : g'.Imports id dependency := by
  obtain ⟨p, hp, hmem⟩ := himports.exists_importer
  obtain ⟨q, hq, hpq⟩ := h.package id p hp
  rw [Imports, importsOf_eq hq]
  exact hpq.imports.subset hmem

theorem Grows.leads (h : g.Grows g') {other : PackageId} (hleads : g.Leads id other) :
    g'.Leads id other :=
  Relation.ReflTransGen.mono (fun _ _ => h.imports) _ _ hleads

theorem grows_modify {f : Package → Package} (hf : ∀ p : Package, p.Evolves (f p)) :
    g.Grows (g.modify id f) where
  precompiled := rfl
  package := by
    intro k p hp
    refine ⟨_, by rw [package?_modify, hp]; rfl, ?_⟩
    split
    · exact hf p
    · exact Package.Evolves.refl p

/-- **Recording an import** lets a graph grow. -/
theorem grows_addImport {dependency : PackageId} : g.Grows (g.addImport id dependency) :=
  grows_modify fun p => Package.Evolves.withImport p dependency

/-- **Recording an import path** lets a graph grow. -/
theorem grows_addAlias {importPath : String} : g.Grows (g.addAlias id importPath) :=
  grows_modify fun p => Package.Evolves.withAlias p importPath

/-- **Adding a package** lets a graph grow. -/
theorem grows_extended : g.Grows (g.extended p) where
  precompiled := rfl
  package := by
    intro k q hq
    refine ⟨q, ?_, Package.Evolves.refl q⟩
    rw [package?_extended, if_neg (Nat.ne_of_lt (lt_size_of_package? hq)), hq]

/-! ### Packages by directory -/

/-- The package of a directory lies in it, and no earlier one does. -/
theorem byDirectory?_eq_some :
    g.byDirectory? directory = some id ↔
      (∃ p, g.package? id = some p ∧ p.directory.same directory = true) ∧
        ∀ k < id, ∀ p, g.package? k = some p → p.directory.same directory = false := by
  rw [byDirectory?, package?]
  rw [List.findIdx?_eq_some_iff_getElem]
  constructor
  · rintro ⟨hid, hsame, hbefore⟩
    refine ⟨⟨_, List.getElem?_eq_getElem hid, hsame⟩, ?_⟩
    intro k hk p hp
    obtain ⟨hlt, rfl⟩ := List.getElem?_eq_some_iff.1 hp
    simpa using hbefore k hk
  · rintro ⟨⟨p, hp, hsame⟩, hbefore⟩
    obtain ⟨hid, rfl⟩ := List.getElem?_eq_some_iff.1 hp
    refine ⟨hid, hsame, fun k hk => ?_⟩
    simpa using hbefore k hk _ (List.getElem?_eq_getElem (Nat.lt_trans hk hid))

theorem byDirectory?_eq_none :
    g.byDirectory? directory = none ↔
      ∀ id p, g.package? id = some p → p.directory.same directory = false := by
  simp only [byDirectory?, package?]
  rw [List.findIdx?_eq_none_iff]
  constructor
  · exact fun h id p hp => h p (List.mem_of_getElem? hp)
  · intro h p hp
    obtain ⟨id, hid⟩ := List.mem_iff_getElem?.1 hp
    exact h id p hid

theorem lt_size_of_byDirectory? (h : g.byDirectory? directory = some id) : id < g.size := by
  obtain ⟨⟨p, hp, -⟩, -⟩ := byDirectory?_eq_some.1 h
  exact lt_size_of_package? hp

/-- Only the steps of a directory matter. -/
theorem byDirectory?_congr {other : Path} (h : directory.same other = true) :
    g.byDirectory? directory = g.byDirectory? other := by
  rw [byDirectory?]
  congr 1
  funext p
  rw [Path.same, Path.same, Path.same_iff.1 h]

/-- Only the directories of the packages matter. -/
theorem byDirectory?_eq_of_directories
    (h : ∀ id, (g'.package? id).map (·.directory) = (g.package? id).map (·.directory)) :
    g'.byDirectory? directory = g.byDirectory? directory := by
  have hdirectories (g : PackageGraph) : g.byDirectory? directory =
      (g.packages.map (·.directory)).findIdx? (fun d => d.same directory) := by
    rw [List.findIdx?_map]
    rfl
  have hsame : g'.packages.map (·.directory) = g.packages.map (·.directory) := by
    refine List.ext_getElem? fun id => ?_
    rw [List.getElem?_map, List.getElem?_map]
    exact h id
  rw [hdirectories, hdirectories, hsame]

/-- **A directory keeps its package** while the graph grows. -/
theorem Grows.byDirectory? (h : g.Grows g') (hid : g.byDirectory? directory = some id) :
    g'.byDirectory? directory = some id := by
  obtain ⟨⟨p, hp, hsame⟩, hbefore⟩ := byDirectory?_eq_some.1 hid
  obtain ⟨q, hq, hpq⟩ := h.package id p hp
  refine byDirectory?_eq_some.2 ⟨⟨q, hq, by rw [hpq.directory, hsame]⟩, ?_⟩
  intro k hk q' hq'
  obtain ⟨p', hp'⟩ := exists_package (Nat.lt_trans hk (lt_size_of_package? hp))
  obtain ⟨q'', hq'', hpq'⟩ := h.package k p' hp'
  obtain rfl : q'' = q' := Option.some.inj (hq''.symm.trans hq')
  rw [hpq'.directory]
  exact hbefore k hk p' hp'

/-- The package of a directory is found in the directory, by whatever path it is named. -/
def IsIndexed (g : PackageGraph) : Prop :=
  ∀ id p, g.package? id = some p → g.byDirectory? p.directory = some id

theorem IsIndexed.byDirectory? (h : g.IsIndexed) (hp : g.package? id = some p)
    (hsame : p.directory.same directory = true) : g.byDirectory? directory = some id := by
  rw [← byDirectory?_congr hsame]
  exact h id p hp

/-- **No directory has two packages** in an indexed graph. -/
theorem IsIndexed.eq_of_same (h : g.IsIndexed) {q : Package} (hp : g.package? id = some p)
    (hq : g.package? k = some q) (hsame : p.directory.same q.directory = true) : id = k :=
  Option.some.inj ((h.byDirectory? hp hsame).symm.trans (h k q hq))

/-- A graph without packages is indexed. -/
theorem isIndexed_of_isEmpty (h : g.packages = []) : g.IsIndexed := by
  intro id p hp
  simp [package?, h] at hp

/-- A graph stays indexed when its packages evolve. -/
theorem IsIndexed.modify (h : g.IsIndexed) {f : Package → Package}
    (hf : ∀ p : Package, p.Evolves (f p)) : (g.modify id f).IsIndexed := by
  intro k q hq
  rw [package?_modify] at hq
  obtain ⟨p, hp, rfl⟩ := Option.map_eq_some_iff.1 hq
  have hgrows : g.Grows (g.modify id f) := grows_modify hf
  have hdir : (if id = k then f p else p).directory = p.directory := by
    split
    · exact (hf p).directory
    · rfl
  rw [hdir]
  exact hgrows.byDirectory? (h k p hp)

/-- **A graph stays indexed** when a package in a new directory is added. -/
theorem IsIndexed.extended (h : g.IsIndexed) (hnew : g.byDirectory? p.directory = none) :
    (g.extended p).IsIndexed := by
  intro k q hq
  rw [package?_extended] at hq
  split at hq
  · rename_i hk
    subst hk
    obtain rfl := Option.some.inj hq
    refine byDirectory?_eq_some.2 ⟨⟨p, by rw [package?_extended, if_pos rfl], by simp⟩, ?_⟩
    intro j hj r hr
    rw [package?_extended, if_neg (Nat.ne_of_lt hj)] at hr
    exact byDirectory?_eq_none.1 hnew j r hr
  · exact grows_extended.byDirectory? (h k q hq)

end PackageGraph

end GoPlanner

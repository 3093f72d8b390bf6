import GoPlanner.Proofs.Discovery.Runs

/-!
# What Discovery Finds

A package is complete when its imports have been followed: every import path that has a
package is settled, so the graph holds that package under this path, and the imports are
these packages in the order of the import paths. A run of discovery leaves all packages
complete that it adds, and it leads to all of them.

## Main definitions

* `Discovery.dependency?`: the package of an import path in a graph.
* `Discovery.Proper`: what holds of every graph during a discovery.
* `Discovery.Complete`: a package whose imports have been followed.
* `Discovery.Extends`: what a run does to a graph.

## Main results

* `Discovery.extends_of_follows`: every run extends a graph in this way.
* `Discovery.Finds.proper`, `Discovery.Finds.complete`, `Discovery.Finds.leads`: the graph
  that is found.
-/

namespace GoPlanner

/-- The imports behind some that are recorded already, each once. -/
def recordAll (known dependencies : List PackageId) : List PackageId :=
  dependencies.foldl (fun known d => if d ∈ known then known else known ++ [d]) known

theorem recordAll_append (known first second : List PackageId) :
    recordAll known (first ++ second) = recordAll (recordAll known first) second :=
  List.foldl_append

@[simp] theorem mem_recordAll {known dependencies : List PackageId} {d : PackageId} :
    d ∈ recordAll known dependencies ↔ d ∈ known ∨ d ∈ dependencies := by
  induction dependencies generalizing known with
  | nil => simp [recordAll]
  | cons e dependencies ih =>
      have hstep : recordAll known (e :: dependencies) =
          recordAll (if e ∈ known then known else known ++ [e]) dependencies := rfl
      rw [hstep, ih]
      split
      · rename_i he
        constructor
        · exact Or.imp_right (List.mem_cons_of_mem e)
        · rintro (h | h)
          · exact Or.inl h
          · rcases List.mem_cons.1 h with rfl | h
            · exact Or.inl he
            · exact Or.inr h
      · simp [or_assoc]

namespace Discovery

open PackageGraph Telling

variable {c : Discovery} {start : Arrival} {g g' g'' : PackageGraph} {id k : PackageId}
  {s : String} {p : Package} {imports : List String}

/-! ### Settled import paths -/

/-- **The package of an import path** in a graph. -/
def dependency? (c : Discovery) (g : PackageGraph) (importPath : String) : Option PackageId :=
  (c.goal? g.precompiled importPath).bind g.byDirectory?

/-- **An import path is settled** when its package is there and knows the path. -/
structure Settled (c : Discovery) (g : PackageGraph) (importPath : String) : Prop where
  /-- The import path has a location. -/
  located : (c.locator.locate c.tree importPath).isSome
  /-- The package of the location is there. -/
  known : ∀ directory, c.goal? g.precompiled importPath = some directory →
    ∃ k p, g.byDirectory? directory = some k ∧ g.package? k = some p ∧ importPath ∈ p.importPaths

theorem dependency?_of_grows (h : g.Grows g') (hs : c.dependency? g s = some k) :
    c.dependency? g' s = some k := by
  rw [dependency?] at hs ⊢
  obtain ⟨directory, hgoal, hk⟩ := Option.bind_eq_some_iff.1 hs
  rw [h.precompiled, hgoal]
  exact h.byDirectory? hk

theorem Settled.grows (hs : c.Settled g s) (h : g.Grows g') : c.Settled g' s where
  located := hs.located
  known := by
    intro directory hgoal
    rw [h.precompiled] at hgoal
    obtain ⟨k, p, hk, hp, hmem⟩ := hs.known directory hgoal
    obtain ⟨q, hq, hpq⟩ := h.package k p hp
    exact ⟨k, q, h.byDirectory? hk, hq, hpq.importPaths.subset hmem⟩

/-- The package of a settled import path stays the same. -/
theorem Settled.dependency?_eq (hs : c.Settled g s) (h : g.Grows g') :
    c.dependency? g' s = c.dependency? g s := by
  cases hgoal : c.goal? g.precompiled s with
  | none => simp [dependency?, h.precompiled, hgoal]
  | some directory =>
      obtain ⟨k, -, hk, -⟩ := hs.known directory hgoal
      have hdependency : c.dependency? g s = some k := by simp [dependency?, hgoal, hk]
      rw [hdependency]
      exact dependency?_of_grows h hdependency

/-! ### Complete packages -/

/-- **How a package stems from the files:** it is the root, or an import path leads to its
directory or to its archive. -/
inductive Stems (c : Discovery) (start : Arrival) (precompiled : Bool) (id : PackageId) :
    Package → List String → Prop
  | root {p : Package} {imports : List String} (hid : id = PackageGraph.root)
      (hread : c.Reads start true p imports) : Stems c start precompiled id p imports
  | source {s : String} {a : Arrival} {p : Package} {imports : List String}
      (hid : id ≠ PackageGraph.root) (harrives : c.Arrives precompiled s a)
      (hread : c.Reads a false p imports) : Stems c start precompiled id p imports
  | archived {s : String} {directory archive : Path} (hid : id ≠ PackageGraph.root)
      (hlocated : c.locator.locate c.tree s = some (.archived directory archive)) :
      Stems c start precompiled id (archivedPackage directory archive s) []

theorem Reads.fields {a : Arrival} {isRoot : Bool} (h : c.Reads a isRoot p imports) :
    p.directory = a.directory ∧ p.importPath = a.importPath ∧ p.imports = [] ∧ p.aliases = [] := by
  obtain ⟨contents, -, rfl, -⟩ := h
  exact ⟨rfl, rfl, rfl, rfl⟩

theorem Stems.imports_eq_nil {precompiled : Bool} (h : c.Stems start precompiled id p imports) :
    p.imports = [] := by
  cases h with
  | root _ hread => exact hread.fields.2.2.1
  | source _ _ hread => exact hread.fields.2.2.1
  | archived _ _ => rfl

/-- **A package whose imports have been followed.** -/
structure Complete (c : Discovery) (start : Arrival) (g : PackageGraph) (id : PackageId)
    (p : Package) (imports : List String) : Prop where
  /-- The package is there. -/
  package : g.package? id = some p
  /-- It has evolved from what the files say. -/
  stems : ∃ q, c.Stems start g.precompiled id q imports ∧ q.Evolves p
  /-- Its import paths are settled. -/
  settled : ∀ s ∈ imports, c.Settled g s
  /-- It imports the packages of its import paths. -/
  linked : p.imports = recordAll [] (imports.filterMap (c.dependency? g))

/-- A package that is complete stays so, as long as its imports do not change. -/
theorem Complete.grows (hc : c.Complete start g id p imports) (h : g.Grows g')
    (himports : g'.importsOf id = g.importsOf id) :
    ∃ q, c.Complete start g' id q imports := by
  obtain ⟨q, hq, hpq⟩ := h.package id p hc.package
  obtain ⟨r, hr, hrp⟩ := hc.stems
  refine ⟨q, hq, ⟨r, by rwa [h.precompiled], hrp.trans hpq⟩, fun s hs => (hc.settled s hs).grows h, ?_⟩
  rw [← importsOf_eq hq, himports, importsOf_eq hc.package, hc.linked]
  congr 1
  exact List.filterMap_congr fun s hs => ((hc.settled s hs).dependency?_eq h).symm

/-! ### Runs -/

/-- **What holds of every graph** during a discovery. -/
structure Proper (c : Discovery) (start : Arrival) (g : PackageGraph) : Prop where
  /-- No two packages lie in one directory. -/
  indexed : g.IsIndexed
  /-- Imports are packages of the graph. -/
  closed : g.IsClosed
  /-- The import paths of a package lead to it, but that of the root may not. -/
  named : ∀ id p, g.package? id = some p → ∀ s ∈ p.importPaths,
    c.dependency? g s = some id ∨ (id = PackageGraph.root ∧ s = start.importPath)

/-- **What a run does** for the imports of one package. -/
structure Extends (c : Discovery) (start : Arrival) (id : PackageId) (imports : List String)
    (g g' : PackageGraph) : Prop where
  /-- The graph is still a proper one. -/
  proper : c.Proper start g'
  /-- It has grown. -/
  grows : g.Grows g'
  /-- Other packages that were there have the same imports. -/
  others : ∀ k < g.size, k ≠ id → g'.importsOf k = g.importsOf k
  /-- New packages are complete. -/
  complete : ∀ k, g.size ≤ k → k < g'.size → ∃ p imports, c.Complete start g' k p imports
  /-- The package leads to all new ones. -/
  leads : ∀ k, g.size ≤ k → k < g'.size → g'.Leads id k
  /-- The import paths are settled. -/
  settled : ∀ s ∈ imports, c.Settled g' s
  /-- Their packages are recorded as imports. -/
  linked : g'.importsOf id = recordAll (g.importsOf id) (imports.filterMap (c.dependency? g'))

/-- A run for no imports does nothing. -/
theorem Extends.nil (hg : c.Proper start g) : c.Extends start id [] g g where
  proper := hg
  grows := Grows.refl g
  others := fun _ _ _ => rfl
  complete := fun k hk hk' => absurd hk' (Nat.not_lt.2 hk)
  leads := fun k hk hk' => absurd hk' (Nat.not_lt.2 hk)
  settled := by simp
  linked := rfl

/-- **Two runs,** one after the other. -/
theorem Extends.append {first second : List String} (hid : id < g.size)
    (h : c.Extends start id first g g') (h' : c.Extends start id second g' g'') :
    c.Extends start id (first ++ second) g g'' where
  proper := h'.proper
  grows := h.grows.trans h'.grows
  others := by
    intro k hk hne
    rw [h'.others k (h.grows.lt_size hk) hne, h.others k hk hne]
  complete := by
    intro k hk hk'
    by_cases hlt : k < g'.size
    · obtain ⟨p, imports, hp⟩ := h.complete k hk hlt
      have hne : k ≠ id := Nat.ne_of_gt (Nat.lt_of_lt_of_le hid hk)
      obtain ⟨q, hq⟩ := hp.grows h'.grows (h'.others k hlt hne)
      exact ⟨q, imports, hq⟩
    · exact h'.complete k (Nat.not_lt.1 hlt) hk'
  leads := by
    intro k hk hk'
    by_cases hlt : k < g'.size
    · exact h'.grows.leads (h.leads k hk hlt)
    · exact h'.leads k (Nat.not_lt.1 hlt) hk'
  settled := by
    intro s hs
    rcases List.mem_append.1 hs with hs | hs
    · exact (h.settled s hs).grows h'.grows
    · exact h'.settled s hs
  linked := by
    have hfirst : first.filterMap (c.dependency? g'') = first.filterMap (c.dependency? g') :=
      List.filterMap_congr fun s hs => (h.settled s hs).dependency?_eq h'.grows
    rw [List.filterMap_append, hfirst, recordAll_append, ← h.linked]
    exact h'.linked

/-! ### Single steps -/

theorem isSome_of_goal? {precompiled : Bool} {directory : Path}
    (h : c.goal? precompiled s = some directory) : (c.locator.locate c.tree s).isSome := by
  rw [goal?] at h
  cases hlocated : c.locator.locate c.tree s with
  | none => simp [hlocated] at h
  | some location => rfl

theorem isSome_of_passes {precompiled : Bool} (h : c.Passes precompiled s) :
    (c.locator.locate c.tree s).isSome := by
  rcases h with h | ⟨directory, h, -⟩ <;> simp [h]

theorem Proper.addImport (hg : c.Proper start g) (hk : k < g.size) :
    c.Proper start (g.addImport id k) where
  indexed := hg.indexed.modify fun p => Package.Evolves.withImport p k
  closed := by
    intro importer dependency himports
    have hsize : (g.addImport id k).size = g.size := size_modify
    rw [hsize]
    by_cases hid : importer = id
    · subst hid
      have himporter : importer < g.size := hsize ▸ himports.importer_lt
      rw [Imports, importsOf_addImport_self himporter] at himports
      split at himports
      · exact hg.closed _ _ himports
      · rcases List.mem_append.1 himports with h | h
        · exact hg.closed _ _ h
        · exact List.mem_singleton.1 h ▸ hk
    · rw [Imports, importsOf_addImport hid] at himports
      exact hg.closed _ _ himports
  named := by
    intro j q hq s hs
    rw [PackageGraph.addImport, package?_modify] at hq
    obtain ⟨p, hp, rfl⟩ := Option.map_eq_some_iff.1 hq
    have hpaths : s ∈ p.importPaths := by
      split at hs
      · rw [Package.withImport] at hs
        split at hs <;> exact hs
      · exact hs
    exact (hg.named j p hp s hpaths).imp_left (dependency?_of_grows grows_addImport)

theorem Proper.addAlias (hg : c.Proper start g) (hk : c.dependency? g s = some k) :
    c.Proper start (g.addAlias k s) where
  indexed := hg.indexed.modify fun p => Package.Evolves.withAlias p s
  closed := by
    intro importer dependency himports
    have hsize : (g.addAlias k s).size = g.size := size_modify
    rw [Imports, importsOf_addAlias] at himports
    exact hsize ▸ hg.closed _ _ himports
  named := by
    intro j q hq s' hs'
    rw [PackageGraph.addAlias, package?_modify] at hq
    obtain ⟨p, hp, rfl⟩ := Option.map_eq_some_iff.1 hq
    split at hs'
    · rename_i hkj
      rcases Package.mem_importPaths_withAlias.1 hs' with hs' | rfl
      · exact (hg.named j p hp s' hs').imp_left (dependency?_of_grows grows_addAlias)
      · exact Or.inl (hkj ▸ dependency?_of_grows grows_addAlias hk)
    · exact (hg.named j p hp s' hs').imp_left (dependency?_of_grows grows_addAlias)

/-- A new package is found by the import paths that lead to its directory. -/
theorem dependency?_extended (hnew : g.byDirectory? p.directory = none)
    (hgoal : c.goal? g.precompiled s = some p.directory) :
    c.dependency? (g.extended p) s = some g.size := by
  have hpackage : (g.extended p).package? g.size = some p := by
    rw [package?_extended, if_pos rfl]
  rw [dependency?]
  rw [show (g.extended p).precompiled = g.precompiled from rfl, hgoal]
  refine byDirectory?_eq_some.2 ⟨⟨p, hpackage, by simp⟩, ?_⟩
  intro k hk q hq
  rw [package?_extended, if_neg (Nat.ne_of_lt hk)] at hq
  exact byDirectory?_eq_none.1 hnew k q hq

theorem Proper.extended (hg : c.Proper start g) (hnew : g.byDirectory? p.directory = none)
    (himports : p.imports = []) (haliases : p.aliases = [])
    (hgoal : c.goal? g.precompiled p.importPath = some p.directory ∨
      (g.size = PackageGraph.root ∧ p.importPath = start.importPath)) :
    c.Proper start (g.extended p) where
  indexed := hg.indexed.extended hnew
  closed := by
    intro importer dependency h
    rw [Imports, importsOf_extended] at h
    rw [size_extended]
    split at h
    · simp [himports] at h
    · exact Nat.lt_succ_of_lt (hg.closed _ _ h)
  named := by
    intro j q hq s hs
    rw [package?_extended] at hq
    split at hq
    · rename_i hj
      obtain rfl := Option.some.inj hq
      obtain rfl : s = p.importPath := by simpa [Package.importPaths, haliases] using hs
      rcases hgoal with hgoal | ⟨hroot, hpath⟩
      · exact Or.inl (hj ▸ dependency?_extended hnew hgoal)
      · exact Or.inr ⟨hj.trans hroot, hpath⟩
    · exact (hg.named j q hq s hs).imp_left (dependency?_of_grows grows_extended)

/-- An import that has no package changes nothing. -/
theorem extends_passed (hg : c.Proper start g) (hpasses : c.Passes g.precompiled s) :
    c.Extends start id [s] g g where
  proper := hg
  grows := Grows.refl g
  others := fun _ _ _ => rfl
  complete := fun k hk hk' => absurd hk' (Nat.not_lt.2 hk)
  leads := fun k hk hk' => absurd hk' (Nat.not_lt.2 hk)
  settled := by
    intro s' hs'
    obtain rfl := List.mem_singleton.1 hs'
    refine ⟨isSome_of_passes hpasses, ?_⟩
    simp [goal?_of_passes hpasses]
  linked := by simp [dependency?, goal?_of_passes hpasses, recordAll]

/-- Recording the package of an import path as an import. -/
theorem Extends.addImport (hid : id < g.size) (hsettled : c.Settled g' s)
    (hk : c.dependency? g' s = some k) (hproper : c.Proper start g') (hgrows : g.Grows g')
    (himports : ∀ k < g.size, g'.importsOf k = g.importsOf k)
    (hcomplete : ∀ j, g.size ≤ j → j < g'.size → ∃ p imports, c.Complete start g' j p imports)
    (hleads : ∀ j, g.size ≤ j → j < g'.size → g'.Leads k j) :
    c.Extends start id [s] g (g'.addImport id k) := by
  have hkSize : k < g'.size := by
    obtain ⟨directory, -, hk⟩ := Option.bind_eq_some_iff.1 hk
    exact lt_size_of_byDirectory? hk
  have hgrows' : g'.Grows (g'.addImport id k) := grows_addImport
  have hsize : (g'.addImport id k).size = g'.size := size_modify
  have hlinked : (g'.addImport id k).importsOf id =
      if k ∈ g'.importsOf id then g'.importsOf id else g'.importsOf id ++ [k] :=
    importsOf_addImport_self (hgrows.lt_size hid)
  refine ⟨hproper.addImport hkSize, hgrows.trans hgrows', ?_, ?_, ?_, ?_, ?_⟩
  · intro j hj hne
    rw [importsOf_addImport hne, himports j hj]
  · intro j hj hj'
    obtain ⟨p, imports, hp⟩ := hcomplete j hj (hsize ▸ hj')
    have hne : j ≠ id := Nat.ne_of_gt (Nat.lt_of_lt_of_le hid hj)
    obtain ⟨q, hq⟩ := hp.grows hgrows' (importsOf_addImport hne)
    exact ⟨q, imports, hq⟩
  · intro j hj hj'
    have himport : (g'.addImport id k).Imports id k := by
      rw [Imports, hlinked]
      split
      · assumption
      · simp
    exact Relation.ReflTransGen.head himport (hgrows'.leads (hleads j hj (hsize ▸ hj')))
  · intro s' hs'
    obtain rfl := List.mem_singleton.1 hs'
    exact hsettled.grows hgrows'
  · have hk' : c.dependency? (g'.addImport id k) s = some k := dependency?_of_grows hgrows' hk
    rw [hlinked, himports id hid, List.filterMap_cons_some hk']
    rfl

/-- **An import of a package that is there** is recorded, with its path. -/
theorem extends_again {directory : Path} (hg : c.Proper start g) (hid : id < g.size)
    (hgoal : c.goal? g.precompiled s = some directory)
    (hknown : g.byDirectory? directory = some k) :
    c.Extends start id [s] g ((g.addAlias k s).addImport id k) := by
  have hsize : (g.addAlias k s).size = g.size := size_modify
  have hk : c.dependency? g s = some k := by simp [dependency?, hgoal, hknown]
  have hgrows : g.Grows (g.addAlias k s) := grows_addAlias
  obtain ⟨p, hp⟩ := exists_package (lt_size_of_byDirectory? hknown)
  refine Extends.addImport hid ⟨isSome_of_goal? hgoal, ?_⟩ (dependency?_of_grows hgrows hk)
    (hg.addAlias hk) hgrows (fun k _ => importsOf_addAlias) ?_ ?_
  · intro directory' hgoal'
    obtain rfl : directory = directory' := Option.some.inj (hgoal.symm.trans hgoal')
    refine ⟨k, p.withAlias s, hgrows.byDirectory? hknown, ?_, ?_⟩
    · rw [PackageGraph.addAlias, package?_modify, hp]
      simp
    · exact Package.mem_importPaths_withAlias.2 (Or.inr rfl)
  · exact fun j hj hj' => absurd (hsize ▸ hj') (Nat.not_lt.2 hj)
  · exact fun j hj hj' => absurd (hsize ▸ hj') (Nat.not_lt.2 hj)

/-- A new package is complete once its imports have been followed. -/
theorem Extends.complete_self (hstems : c.Stems start g.precompiled g.size p imports)
    (h : c.Extends start g.size imports (g.extended p) g') :
    ∃ q, c.Complete start g' g.size q imports := by
  have hp : (g.extended p).package? g.size = some p := by
    rw [package?_extended, if_pos rfl]
  obtain ⟨q, hq, hpq⟩ := h.grows.package _ _ hp
  refine ⟨q, hq, ⟨p, ?_, hpq⟩, h.settled, ?_⟩
  · rwa [h.grows.precompiled]
  · rw [← importsOf_eq hq, h.linked, importsOf_eq hp, hstems.imports_eq_nil]

/-- **An import of a new package** is recorded once its own imports have been followed. -/
theorem extends_new (hid : id < g.size)
    (hstems : c.Stems start g.precompiled g.size p imports)
    (hgoal : c.goal? g.precompiled s = some p.directory) (hpath : p.importPath = s)
    (hnew : g.byDirectory? p.directory = none)
    (h : c.Extends start g.size imports (g.extended p) g') :
    c.Extends start id [s] g (g'.addImport id g.size) := by
  have hk : c.dependency? (g.extended p) s = some g.size := dependency?_extended hnew hgoal
  have hp : (g.extended p).package? g.size = some p := by
    rw [package?_extended, if_pos rfl]
  have hsettled : c.Settled (g.extended p) s := by
    refine ⟨isSome_of_goal? hgoal, ?_⟩
    intro directory hgoal'
    have hgoal' : c.goal? g.precompiled s = some directory := hgoal'
    obtain rfl : p.directory = directory := Option.some.inj (hgoal.symm.trans hgoal')
    refine ⟨g.size, p, ?_, hp, by simp [Package.importPaths, hpath]⟩
    simpa [dependency?, show (g.extended p).precompiled = g.precompiled from rfl, hgoal] using hk
  have hcases (j : PackageId) (hj : g.size ≤ j) : j = g.size ∨ (g.extended p).size ≤ j := by
    rw [size_extended]
    exact (Nat.eq_or_lt_of_le hj).imp_left Eq.symm
  refine Extends.addImport hid (hsettled.grows h.grows) (dependency?_of_grows h.grows hk) h.proper
    (grows_extended.trans h.grows) ?_ ?_ ?_
  · intro j hj
    have hne : j ≠ g.size := Nat.ne_of_lt hj
    rw [h.others j (by rw [size_extended]; exact Nat.lt_succ_of_lt hj) hne, importsOf_extended, if_neg hne]
  · intro j hj hj'
    rcases hcases j hj with rfl | hj
    · obtain ⟨q, hq⟩ := h.complete_self hstems
      exact ⟨q, imports, hq⟩
    · exact h.complete j hj hj'
  · intro j hj hj'
    rcases hcases j hj with rfl | hj
    · exact Relation.ReflTransGen.refl
    · exact h.leads j hj hj'

/-- A graph in which something is has packages. -/
theorem isEmpty_eq_false (hid : id < g.size) : g.isEmpty = false := by
  cases hempty : g.isEmpty with
  | false => rfl
  | true =>
      have hsize : g.size = 0 := by simpa [isEmpty, size] using hempty
      exact absurd hid (by simp [hsize])

/-- A number that is not the first one is not that of the root. -/
theorem size_ne_root (hid : id < g.size) : g.size ≠ PackageGraph.root :=
  Nat.ne_of_gt (Nat.zero_lt_of_lt hid)

/-- **An import of a new archive** is recorded at once. -/
theorem extends_archived {directory archive : Path} (hg : c.Proper start g) (hid : id < g.size)
    (hlocated : c.locator.locate c.tree s = some (.archived directory archive))
    (hnew : g.byDirectory? directory = none) :
    c.Extends start id [s] g
      ((g.extended (archivedPackage directory archive s)).addImport id g.size) := by
  have hgoal : c.goal? g.precompiled s = some directory := goal?_of_archived ⟨archive, hlocated⟩
  have hproper : c.Proper start (g.extended (archivedPackage directory archive s)) :=
    hg.extended hnew rfl rfl (Or.inl hgoal)
  exact extends_new hid (.archived (size_ne_root hid) hlocated) hgoal rfl hnew (.nil hproper)

/-- A graph stays proper when a directory of sources is entered. -/
theorem Proper.enter {a : Arrival} (hg : c.Proper start g) (harrives : c.Arrives g.precompiled s a)
    (hnew : g.byDirectory? a.directory = none) {isRoot : Bool}
    (hread : c.Reads a isRoot p imports) : c.Proper start (g.extended p) := by
  obtain ⟨hdirectory, hpath, himports, haliases⟩ := hread.fields
  refine hg.extended (hdirectory ▸ hnew) himports haliases (Or.inl ?_)
  rw [hpath, harrives.importPath, hdirectory]
  exact goal?_of_arrives harrives

/-- **An import of a new directory of sources** is recorded when it has been left. -/
theorem extends_entered {a : Arrival} (hid : id < g.size)
    (harrives : c.Arrives g.precompiled s a) (hnew : g.byDirectory? a.directory = none)
    (hread : c.Reads a g.isEmpty p imports)
    (hinner : c.Extends start g.size imports (g.extended p) g') :
    c.Extends start id [s] g (g'.addImport id g.size) := by
  rw [isEmpty_eq_false hid] at hread
  obtain ⟨hdirectory, hpath, -, -⟩ := hread.fields
  have hgoal : c.goal? g.precompiled s = some p.directory := by
    rw [hdirectory]
    exact goal?_of_arrives harrives
  exact extends_new hid (.source (size_ne_root hid) harrives hread) hgoal
    (hpath.trans harrives.importPath) (hdirectory ▸ hnew) hinner

/-! ### Whole runs -/

/-- **Every run extends a graph.** -/
theorem extends_of_follows {way : Way} (hrun : c.Follows way id imports g g')
    (hg : c.Proper start g) (hid : id < g.size) : c.Extends start id imports g g' := by
  induction hrun with
  | nil => exact Extends.nil hg
  | passed hpasses _ ih =>
      exact (extends_passed hg hpasses).append hid (ih hg hid)
  | again hgoal _ hknown _ ih =>
      have hstep := extends_again hg hid hgoal hknown
      exact hstep.append hid (ih hstep.proper (hstep.grows.lt_size hid))
  | archived hlocated hnew _ ih =>
      have hstep := extends_archived hg hid hlocated hnew
      exact hstep.append hid (ih hstep.proper (hstep.grows.lt_size hid))
  | entered harrives _ hnew hread _ _ ihinner ih =>
      have hinner := ihinner (hg.enter harrives hnew hread) (by simp)
      have hstep := extends_entered hid harrives hnew hread hinner
      exact hstep.append hid (ih hstep.proper (hstep.grows.lt_size hid))

/-! ### The graph that is found -/

/-- A graph without packages is proper. -/
theorem proper_nil {precompiled : Bool} : c.Proper start ⟨[], precompiled⟩ where
  indexed := isIndexed_of_isEmpty rfl
  closed := fun _ _ h => by simp [Imports, importsOf, package?] at h
  named := fun _ _ hp => by simp [package?] at hp

/-- A graph is proper when the root has been read. -/
theorem proper_root {precompiled : Bool} (hread : c.Reads start true p imports) :
    c.Proper start (PackageGraph.extended ⟨[], precompiled⟩ p) := by
  obtain ⟨-, hpath, himports, haliases⟩ := hread.fields
  exact proper_nil.extended (by simp [byDirectory?]) himports haliases (Or.inr ⟨rfl, hpath⟩)

namespace Finds

variable {precompiled : Bool}

/-- The run behind a graph, as an extension of a graph without packages. -/
theorem extends_root (h : c.Finds start precompiled g) :
    ∃ p imports, c.Stems start precompiled PackageGraph.root p imports ∧
      c.Extends start PackageGraph.root imports (PackageGraph.extended ⟨[], precompiled⟩ p) g := by
  obtain ⟨p, imports, hread, hrun⟩ := h
  exact ⟨p, imports, .root rfl hread,
    extends_of_follows hrun (proper_root hread) Nat.zero_lt_one⟩

/-- **A graph that is found** is a proper one. -/
theorem proper (h : c.Finds start precompiled g) : c.Proper start g := by
  obtain ⟨p, imports, -, hextends⟩ := h.extends_root
  exact hextends.proper

theorem precompiled_eq (h : c.Finds start precompiled g) : g.precompiled = precompiled := by
  obtain ⟨p, imports, -, hextends⟩ := h.extends_root
  exact hextends.grows.precompiled

/-- The root is there. -/
theorem root_lt_size (h : c.Finds start precompiled g) : PackageGraph.root < g.size := by
  obtain ⟨p, imports, -, hextends⟩ := h.extends_root
  exact hextends.grows.lt_size Nat.zero_lt_one

/-- **All its packages are complete.** -/
theorem complete (h : c.Finds start precompiled g) (hid : id < g.size) :
    ∃ p imports, c.Complete start g id p imports := by
  obtain ⟨p, imports, hstems, hextends⟩ := h.extends_root
  by_cases hroot : id = PackageGraph.root
  · obtain ⟨q, hq⟩ := Extends.complete_self (g := ⟨[], precompiled⟩) hstems hextends
    exact ⟨q, imports, hroot ▸ hq⟩
  · exact hextends.complete id (Nat.one_le_iff_ne_zero.2 hroot) hid

/-- **The root leads to all its packages.** -/
theorem leads (h : c.Finds start precompiled g) (hid : id < g.size) :
    g.Leads PackageGraph.root id := by
  obtain ⟨p, imports, -, hextends⟩ := h.extends_root
  by_cases hroot : id = PackageGraph.root
  · exact hroot ▸ Relation.ReflTransGen.refl
  · exact hextends.leads id (Nat.one_le_iff_ne_zero.2 hroot) hid

end Finds

end Discovery

end GoPlanner

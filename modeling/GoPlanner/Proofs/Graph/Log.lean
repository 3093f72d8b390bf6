import GoPlanner.Proofs.Distinct
import GoPlanner.Proofs.Graph.Bare
import Mathlib.Data.List.Induction
import Mathlib.Data.List.Nodup

/-!
# The Log of a Graph

A graph comes about by one change after the other: packages are registered, imports and further
paths by which packages are imported are recorded, archives are given to packages and taken away.
The log of these changes tells all about the graph. The packages are those that were registered
first for their directories, in this order. What a package imports, and the paths by which it is
imported, is what was recorded for its number, in the order in which it was recorded first.

## Main definitions

* `PackageGraph.Change`, `PackageGraph.perform`: what is done to a graph.
* `PackageGraph.Logged`: graphs with the logs of their changes.
* `PackageGraph.asLogged`: a package, with what a log says of its number.

## Main results

* `PackageGraph.package?_perform_eq_some`: what one change does to the packages.
* `PackageGraph.asLogged_concat`: what one change adds to what a log says.
* `PackageGraph.Logged.grows`: numbers keep their meaning.
* `PackageGraph.Logged.directories_eq`, `PackageGraph.Logged.exists_asLogged`: the packages and
  their order.
* `PackageGraph.Logged.isIndexed`, `PackageGraph.Logged.isClosed`: no directory has two packages,
  and every import is a package.
-/

namespace GoPlanner

namespace PackageGraph

/-! ### Changes -/

/-- **A change** of a graph. -/
inductive Change where
  /-- A package is registered. -/
  | register (p : Package)
  /-- An import is recorded. -/
  | addImport (importer dependency : PackageId)
  /-- Another import path of a package is recorded. -/
  | addAlias (id : PackageId) (importPath : String)
  /-- An archive is given to a package or taken away. -/
  | setArchive (id : PackageId) (archive : Option Path)
deriving DecidableEq

/-- The graph with one change more. -/
def perform (g : PackageGraph) : Change → PackageGraph
  | .register p => (g.register p).2
  | .addImport importer dependency => g.addImport importer dependency
  | .addAlias id importPath => g.addAlias id importPath
  | .setArchive id archive => g.setArchive id archive

namespace Change

/-- **Changes that can be made to a graph.** Packages are registered without imports and without
other import paths. All other changes are about packages of the graph. -/
def Fits (g : PackageGraph) : Change → Prop
  | register p => p.imports = [] ∧ p.aliases = []
  | addImport importer dependency => importer < g.size ∧ dependency < g.size
  | addAlias id _ => id < g.size
  | setArchive id _ => id < g.size

instance (g : PackageGraph) : (c : Change) → Decidable (c.Fits g)
  | register p => inferInstanceAs (Decidable (p.imports = [] ∧ p.aliases = []))
  | addImport importer dependency =>
    inferInstanceAs (Decidable (importer < g.size ∧ dependency < g.size))
  | addAlias id _ => inferInstanceAs (Decidable (id < g.size))
  | setArchive id _ => inferInstanceAs (Decidable (id < g.size))

/-- **What a change does to the package** of a number. -/
def apply (id : PackageId) : Change → Package → Package
  | register _, p => p
  | addImport importer dependency, p => if importer = id then p.withImport dependency else p
  | addAlias target importPath, p => if target = id then p.withAlias importPath else p
  | setArchive target archive, p => if target = id then { p with cachedArchive := archive } else p

/-- The package that is registered. -/
def registered? : Change → Option Package
  | register p => some p
  | _ => none

theorem eq_register {c : Change} {p : Package} (h : c.registered? = some p) : c = register p := by
  cases c <;> cases h
  rfl

/-- The import that is recorded for a package. -/
def imported? (id : PackageId) : Change → Option PackageId
  | addImport importer dependency => if importer = id then some dependency else none
  | _ => none

/-- The import path that is recorded for a package. -/
def alias? (id : PackageId) : Change → Option String
  | addAlias target importPath => if target = id then some importPath else none
  | _ => none

/-- The archive that a package is given, if any. -/
def archive? (id : PackageId) : Change → Option (Option Path)
  | setArchive target archive => if target = id then some archive else none
  | _ => none

end Change

variable {g g' : PackageGraph} {c : Change} {log more : List Change} {id k : PackageId}
  {p q : Package} {directory : Path} {precompiled : Bool}

/-- **What one change does to the packages:** those that are there are changed in their places, and
one whose directory is new is added. -/
theorem package?_perform_eq_some : (g.perform c).package? k = some q ↔
    (∃ p, g.package? k = some p ∧ c.apply k p = q) ∨
      c = .register q ∧ k = g.size ∧ g.byDirectory? q.directory = none := by
  cases c with
  | register p =>
      simp only [perform, Change.apply, exists_eq_right, Change.register.injEq]
      -- A known directory leaves the graph as it is, a new one gets the number behind all others.
      cases hp : g.byDirectory? p.directory with
      | some id =>
          rw [register, hp]
          refine ⟨Or.inl, ?_⟩
          rintro (hq | ⟨rfl, -, hnone⟩)
          · exact hq
          · cases hp.symm.trans hnone
      | none =>
          rw [register_of_new hp, package?_extended]
          split
          · rename_i hk
            have hsize : g.package? k = none := by
              simp [package?, hk, size]
            constructor
            · rintro ⟨⟩
              exact Or.inr ⟨rfl, hk, hp⟩
            · rintro (hq | ⟨rfl, -⟩)
              · cases hsize.symm.trans hq
              · rfl
          · rename_i hk
            refine ⟨Or.inl, ?_⟩
            rintro (hq | ⟨-, hsize, -⟩)
            · exact hq
            · exact absurd hsize hk
  | addImport importer dependency =>
      simp [perform, addImport, Change.apply]
  | addAlias target importPath =>
      simp [perform, addAlias, Change.apply]
  | setArchive target archive =>
      simp [perform, Change.apply]

/-- No package goes away. -/
theorem size_le_perform (g : PackageGraph) (c : Change) : g.size ≤ (g.perform c).size := by
  cases c with
  | register p =>
      simp only [perform, register]
      split <;> simp [size]
  | _ => simp [perform, addImport, addAlias, setArchive]

/-- **Besides its archive,** a package evolves. -/
theorem Change.evolves (c : Change) (id : PackageId) (p : Package) :
    p.bare.Evolves (c.apply id p).bare := by
  cases c with
  | register q => exact Package.Evolves.refl p.bare
  | addImport importer dependency =>
      rw [apply]
      split
      · rw [Package.bare_withImport]
        exact Package.Evolves.withImport p.bare dependency
      · exact Package.Evolves.refl p.bare
  | addAlias target importPath =>
      rw [apply]
      split
      · rw [Package.bare_withAlias]
        exact Package.Evolves.withAlias p.bare importPath
      · exact Package.Evolves.refl p.bare
  | setArchive target archive =>
      rw [apply]
      split <;> exact Package.Evolves.refl p.bare

theorem Change.directory_apply (c : Change) (id : PackageId) (p : Package) :
    (c.apply id p).directory = p.directory :=
  (c.evolves id p).directory

/-- **Besides archives,** a change lets a graph grow. -/
theorem grows_perform (g : PackageGraph) (c : Change) : g.bare.Grows (g.perform c).bare where
  precompiled := by
    cases c with
    | register p =>
        rw [perform, register]
        split <;> rfl
    | _ => rfl
  package := by
    intro id q hq
    rw [package?_bare] at hq
    obtain ⟨p, hp, rfl⟩ := Option.map_eq_some_iff.1 hq
    have hperform : (g.perform c).package? id = some (c.apply id p) :=
      package?_perform_eq_some.2 (Or.inl ⟨p, hp, rfl⟩)
    exact ⟨(c.apply id p).bare, by rw [package?_bare, hperform]; rfl, c.evolves id p⟩

/-! ### Logs -/

/-- What is picked out of a list with one more element. -/
theorem filterMap_concat {α β : Type} (f : α → Option β) (l : List α) (a : α) :
    (l ++ [a]).filterMap f = l.filterMap f ++ (f a).toList := by
  rw [List.filterMap_append]
  cases ha : f a <;> simp [ha]

/-- **Graphs with the logs of their changes,** from a graph without packages. -/
inductive Logged (precompiled : Bool) : List Change → PackageGraph → Prop
  | new : Logged precompiled [] ⟨[], precompiled⟩
  | changed {log : List Change} {g : PackageGraph} {c : Change} (h : Logged precompiled log g)
      (fits : c.Fits g) : Logged precompiled (log ++ [c]) (g.perform c)

/-- The graph before the last change. -/
theorem Logged.exists_perform (h : Logged precompiled (log ++ [c]) g) :
    ∃ g', Logged precompiled log g' ∧ c.Fits g' ∧ g'.perform c = g := by
  generalize hlog : log ++ [c] = whole at h
  cases h with
  | new => simp at hlog
  | changed h fits =>
      obtain ⟨rfl, hc⟩ := List.append_inj' hlog rfl
      obtain rfl := List.singleton_inj.1 hc
      exact ⟨_, h, fits, rfl⟩

/-- **Changes that can be made one after the other.** -/
def FitsAll (g : PackageGraph) : List Change → Prop
  | [] => True
  | c :: changes => c.Fits g ∧ FitsAll (g.perform c) changes

instance decidableFitsAll : (g : PackageGraph) → (changes : List Change) →
    Decidable (g.FitsAll changes)
  | _, [] => inferInstanceAs (Decidable True)
  | g, c :: changes =>
    have := decidableFitsAll (g.perform c) changes
    inferInstanceAs (Decidable (c.Fits g ∧ FitsAll (g.perform c) changes))

/-- **Changes that can be made** go on with the log. -/
theorem Logged.append (h : Logged precompiled log g) (hmore : g.FitsAll more) :
    Logged precompiled (log ++ more) (more.foldl perform g) := by
  induction more generalizing log g with
  | nil => rwa [List.append_nil]
  | cons c more ih =>
      rw [← List.singleton_append, ← List.append_assoc]
      exact ih (h.changed hmore.1) hmore.2

/-- **A log has one graph.** -/
theorem Logged.unique (h : Logged precompiled log g) (h' : Logged precompiled log g') : g = g' := by
  induction h generalizing g' with
  | new =>
      generalize hlog : [] = whole at h'
      cases h' with
      | new => rfl
      | changed _ _ => simp at hlog
  | changed _ _ ih =>
      obtain ⟨g'', h'', -, rfl⟩ := h'.exists_perform
      rw [ih h'']

/-- **Numbers keep their meaning:** besides archives, a graph only grows while its log goes on. -/
theorem Logged.grows (h : Logged precompiled log g) (h' : Logged precompiled (log ++ more) g') :
    g.bare.Grows g'.bare := by
  induction more using List.reverseRecOn generalizing g' with
  | nil =>
      rw [List.append_nil] at h'
      rw [h.unique h']
      exact Grows.refl _
  | append_singleton more c ih =>
      rw [← List.append_assoc] at h'
      obtain ⟨g'', h'', -, rfl⟩ := h'.exists_perform
      exact (ih h'').trans (grows_perform g'' c)

/-! ### The order of the packages -/

/-- The directories of the packages, step by step. -/
def directories (g : PackageGraph) : List (List Component) :=
  g.packages.map (·.directory.components)

theorem getElem?_directories (g : PackageGraph) (id : PackageId) :
    g.directories[id]? = (g.package? id).map (·.directory.components) := by
  rw [directories, List.getElem?_map, package?]

/-- **The package of a directory** is found by the directories alone. -/
theorem byDirectory?_eq_findIdx? (g : PackageGraph) (directory : Path) :
    g.byDirectory? directory = g.directories.findIdx? (· == directory.components) := by
  rw [directories, List.findIdx?_map]
  rfl

theorem byDirectory?_eq_none_iff_notMem :
    g.byDirectory? directory = none ↔ directory.components ∉ g.directories := by
  rw [byDirectory?_eq_findIdx?, List.findIdx?_eq_none_iff]
  simp only [beq_eq_false_iff_ne]
  exact List.forall_mem_ne'

theorem byDirectory?_extended (h : g.byDirectory? p.directory = none) :
    (g.extended p).byDirectory? directory =
      if p.directory.components == directory.components then some g.size
      else g.byDirectory? directory := by
  have hconcat : (g.extended p).directories = g.directories ++ [p.directory.components] := by
    simp [directories, extended]
  rw [byDirectory?_eq_findIdx?, hconcat, List.findIdx?_append, ← byDirectory?_eq_findIdx?,
    List.findIdx?_singleton]
  split
  · rename_i hsame
    rw [← byDirectory?_congr hsame, h]
    simp [directories, size]
  · simp

theorem directories_modify {f : Package → Package} (hf : ∀ p, (f p).directory = p.directory) :
    (g.modify id f).directories = g.directories := by
  refine List.ext_getElem? fun k => ?_
  rw [getElem?_directories, getElem?_directories, package?_modify, Option.map_map]
  refine congrFun (congrArg Option.map (funext fun p => ?_)) _
  dsimp only [Function.comp]
  split
  · rw [hf]
  · rfl

/-- Only registering changes the directories. -/
theorem directories_perform (h : c.registered? = none) :
    (g.perform c).directories = g.directories := by
  cases c with
  | register p => cases h
  | addImport importer dependency =>
      exact directories_modify fun p => (Package.Evolves.withImport p dependency).directory
  | addAlias target importPath =>
      exact directories_modify fun p => (Package.Evolves.withAlias p importPath).directory
  | setArchive target archive => exact directories_modify fun _ => rfl

theorem directories_register : (g.register p).2.directories =
    if p.directory.components ∈ g.directories then g.directories
    else g.directories ++ [p.directory.components] := by
  split
  · rename_i hmem
    obtain ⟨id, hid⟩ := Option.ne_none_iff_exists'.1
      (mt byDirectory?_eq_none_iff_notMem.1 (not_not_intro hmem))
    rw [register, hid]
  · rename_i hnew
    rw [register_of_new (byDirectory?_eq_none_iff_notMem.2 hnew)]
    simp [directories, extended]

/-- The packages that are registered in a log. -/
def registeredIn (log : List Change) : List Package :=
  log.filterMap Change.registered?

/-- **The packages are numbered** in the order in which their directories were registered first. -/
theorem Logged.directories_eq (h : Logged precompiled log g) :
    g.directories = ((registeredIn log).map (·.directory.components)).eraseDups := by
  induction h with
  | new => rfl
  | @changed log g c _ _ ih =>
      rw [registeredIn, filterMap_concat, ← registeredIn]
      cases hc : c.registered? with
      | none => rw [directories_perform hc, ih, Option.toList_none, List.append_nil]
      | some p =>
          obtain rfl := Change.eq_register hc
          rw [perform, directories_register, Option.toList_some, List.map_append,
            List.map_singleton, eraseDups_concat, ih]
          simp only [List.mem_eraseDups]

/-- There are no more packages than were registered. -/
theorem Logged.size_le (h : Logged precompiled log g) : g.size ≤ (registeredIn log).length := by
  have hlength : g.directories.length = g.size := List.length_map _
  have hsubperm := List.subperm_of_subset
    (nodup_eraseDups ((registeredIn log).map (·.directory.components)))
    fun _ hmem => List.mem_eraseDups.1 hmem
  rw [← hlength, h.directories_eq]
  exact Nat.le_trans hsubperm.length_le (Nat.le_of_eq (List.length_map _))

theorem isIndexed_of_nodup (h : g.directories.Nodup) : g.IsIndexed := by
  intro id p hp
  refine byDirectory?_eq_some.2 ⟨⟨p, hp, p.directory.same_self⟩, fun k hk q hq => ?_⟩
  refine Bool.eq_false_iff.2 fun hsame => Nat.ne_of_lt hk ?_
  have hid := getElem?_directories g id
  have hk := getElem?_directories g k
  rw [hp, Option.map_some, List.getElem?_eq_some_iff] at hid
  rw [hq, Option.map_some, Path.same_iff.1 hsame, List.getElem?_eq_some_iff] at hk
  obtain ⟨hidlt, hid⟩ := hid
  obtain ⟨hklt, hk⟩ := hk
  exact (List.Nodup.getElem_inj_iff h).1 (hk.trans hid.symm)

/-- **No directory is registered twice.** -/
theorem Logged.isIndexed (h : Logged precompiled log g) : g.IsIndexed :=
  isIndexed_of_nodup (h.directories_eq ▸ nodup_eraseDups _)

/-! ### What a log says of a package -/

/-- The imports that a log records for a package. -/
def importsIn (log : List Change) (id : PackageId) : List PackageId :=
  log.filterMap (Change.imported? id)

/-- The import paths that a log records for a package. -/
def aliasesIn (log : List Change) (id : PackageId) : List String :=
  log.filterMap (Change.alias? id)

/-- The archives that a package is given in a log. -/
def archivesIn (log : List Change) (id : PackageId) : List (Option Path) :=
  log.filterMap (Change.archive? id)

/-- **A package with what a log says of its number:** its imports and its other import paths are
those that are recorded, each where it is recorded first, and the archive is the last one that it
was given. -/
def asLogged (log : List Change) (id : PackageId) (p : Package) : Package :=
  { p with
    cachedArchive := (archivesIn log id).getLast?.getD p.cachedArchive
    imports := (importsIn log id).eraseDups
    aliases := ((aliasesIn log id).filter (fun s => s != p.importPath)).eraseDups }

theorem asLogged_concat_eq : asLogged (log ++ [c]) id p =
    { p with
      cachedArchive := (archivesIn log id ++ (c.archive? id).toList).getLast?.getD p.cachedArchive
      imports := (importsIn log id ++ (c.imported? id).toList).eraseDups
      aliases :=
        ((aliasesIn log id ++ (c.alias? id).toList).filter
          (fun s => s != p.importPath)).eraseDups } := by
  rw [asLogged, archivesIn, importsIn, aliasesIn, filterMap_concat, filterMap_concat,
    filterMap_concat]
  rfl

/-- A change that is not about a package adds nothing to what the log says of it. -/
theorem asLogged_concat_of_none (himported : c.imported? id = none) (halias : c.alias? id = none)
    (harchive : c.archive? id = none) : asLogged (log ++ [c]) id p = asLogged log id p := by
  rw [asLogged_concat_eq, himported, halias, harchive]
  simp only [Option.toList_none, List.append_nil]
  rfl

/-- **One change more** is done to the package that the log describes. -/
theorem asLogged_concat (log : List Change) (c : Change) (id : PackageId) (p : Package) :
    asLogged (log ++ [c]) id p = c.apply id (asLogged log id p) := by
  cases c with
  | register q => exact asLogged_concat_of_none rfl rfl rfl
  | addImport importer dependency =>
      rw [Change.apply]
      split
      · rename_i hid
        rw [asLogged_concat_eq, Change.imported?, if_pos hid, Package.withImport, asLogged]
        simp only [Change.archive?, Change.alias?, Option.toList_none, List.append_nil,
          Option.toList_some, eraseDups_concat, List.mem_eraseDups]
        split <;> rfl
      · rename_i hid
        exact asLogged_concat_of_none (if_neg hid) rfl rfl
  | addAlias target importPath =>
      rw [Change.apply]
      split
      · rename_i hid
        rw [asLogged_concat_eq, Change.alias?, if_pos hid, Package.withAlias, asLogged]
        simp only [Change.archive?, Change.imported?, Option.toList_none, List.append_nil,
          Option.toList_some, List.filter_append]
        -- The own import path is not recorded by the change, and filtered out of the log.
        by_cases hown : importPath = p.importPath
        · simp [hown]
        · generalize (aliasesIn log id).filter (fun s => s != p.importPath) = others
          have hnew : [importPath].filter (fun s => s != p.importPath) = [importPath] := by
            simpa using hown
          have hknown : (importPath = p.importPath || others.eraseDups.contains importPath) = true ↔
              importPath ∈ others := by
            simp [hown]
          rw [hnew, eraseDups_concat]
          simp only [hknown]
          split <;> rfl
      · rename_i hid
        exact asLogged_concat_of_none rfl (if_neg hid) rfl
  | setArchive target archive =>
      rw [Change.apply]
      split
      · rename_i hid
        rw [asLogged_concat_eq, Change.archive?, if_pos hid, asLogged]
        simp only [Change.imported?, Change.alias?, Option.toList_none, List.append_nil,
          Option.toList_some, List.getLast?_concat, Option.getD_some]
      · rename_i hid
        exact asLogged_concat_of_none rfl rfl (if_neg hid)

/-- A change is about packages of the graph only. -/
theorem Change.Fits.none_of_size_le (h : c.Fits g) (hk : g.size ≤ k) :
    c.archive? k = none ∧ c.imported? k = none ∧ c.alias? k = none := by
  have hne (id : PackageId) (hid : id < g.size) : id ≠ k := Nat.ne_of_lt (Nat.lt_of_lt_of_le hid hk)
  cases c with
  | register p => exact ⟨rfl, rfl, rfl⟩
  | addImport importer dependency => exact ⟨rfl, if_neg (hne importer h.1), rfl⟩
  | addAlias id importPath => exact ⟨rfl, rfl, if_neg (hne id h)⟩
  | setArchive id archive => exact ⟨if_neg (hne id h), rfl, rfl⟩

/-- **A log says nothing** of numbers that have no package yet. -/
theorem Logged.asLogged_of_size_le (h : Logged precompiled log g) (hk : g.size ≤ k)
    (himports : p.imports = []) (haliases : p.aliases = []) : asLogged log k p = p := by
  induction h with
  | new =>
      cases p
      obtain rfl := himports
      obtain rfl := haliases
      rfl
  | changed _ fits ih =>
      have hsize := Nat.le_trans (size_le_perform _ _) hk
      obtain ⟨harchive, himported, halias⟩ := fits.none_of_size_le hsize
      rw [asLogged_concat_of_none himported halias harchive, ih hsize]

/-- **The packages** are those that were registered first for their directories, with what the log
says of their numbers. -/
theorem Logged.exists_asLogged (h : Logged precompiled log g) (hp : g.package? id = some p) :
    ∃ first, (registeredIn log).find? (fun q => q.directory.same p.directory) = some first ∧
      p = asLogged log id first := by
  induction h generalizing id p with
  | new => simp [package?] at hp
  | @changed log g c h fits ih =>
      rw [registeredIn, filterMap_concat, ← registeredIn, List.find?_append]
      rcases package?_perform_eq_some.1 hp with ⟨p', hp', rfl⟩ | ⟨rfl, rfl, hnew⟩
      -- A package that was there has its first registration in the log before.
      · obtain ⟨first, hfirst, heq⟩ := ih hp'
        refine ⟨first, ?_, by rw [asLogged_concat, ← heq]⟩
        rw [c.directory_apply, hfirst, Option.some_or]
      -- A new one is its own first registration, and the log says nothing of its number yet.
      · have hnone : (registeredIn log).find? (fun q => q.directory.same p.directory) = none := by
          rw [List.find?_eq_none]
          intro q hq hsame
          rw [byDirectory?_eq_none_iff_notMem, h.directories_eq, List.mem_eraseDups,
            List.mem_map] at hnew
          exact hnew ⟨q, hq, Path.same_iff.1 hsame⟩
        refine ⟨p, by simp [hnone, Change.registered?], ?_⟩
        rw [asLogged_concat, Change.apply, h.asLogged_of_size_le (Nat.le_refl _) fits.1 fits.2]

/-! ### Imports of a logged graph -/

/-- **Imports** that are recorded are between packages of the graph. -/
theorem Logged.lt_size_of_mem {importer dependency : PackageId} (h : Logged precompiled log g)
    (hmem : .addImport importer dependency ∈ log) : importer < g.size ∧ dependency < g.size := by
  induction h with
  | new => simp at hmem
  | @changed _ g c _ fits ih =>
      have hsize := size_le_perform g c
      rcases List.mem_append.1 hmem with hmem | hmem
      · exact (ih hmem).imp (Nat.lt_of_lt_of_le · hsize) (Nat.lt_of_lt_of_le · hsize)
      · obtain rfl := List.mem_singleton.1 hmem
        exact fits.imp (Nat.lt_of_lt_of_le · hsize) (Nat.lt_of_lt_of_le · hsize)

theorem mem_importsIn {dependency : PackageId} :
    dependency ∈ importsIn log id ↔ .addImport id dependency ∈ log := by
  rw [importsIn, List.mem_filterMap]
  constructor
  · rintro ⟨c, hc, himported⟩
    cases c with
    | addImport importer d =>
        rw [Change.imported?] at himported
        split at himported
        · rename_i hid
          obtain rfl := Option.some.inj himported
          exact hid ▸ hc
        · cases himported
    | _ => cases himported
  · exact fun hmem => ⟨_, hmem, if_pos rfl⟩

/-- **Every import** is a package of the graph. -/
theorem Logged.isClosed (h : Logged precompiled log g) : g.IsClosed := by
  intro importer dependency himports
  obtain ⟨p, hp, hmem⟩ := himports.exists_importer
  obtain ⟨first, -, rfl⟩ := h.exists_asLogged hp
  exact (h.lt_size_of_mem (mem_importsIn.1 (List.mem_eraseDups.1 hmem))).2

end PackageGraph

end GoPlanner

import GoPlanner.Proofs.Build.Closure
import GoPlanner.Proofs.Discovery.Contents
import GoPlanner.Proofs.Distinct

/-!
# The Graph Is the Import Relation

A graph that is discovered says which packages import which, and nothing else. Its packages are
those to which import paths lead from the root, each once. The imports of a package are the
packages of the import paths that are written in it, in their order. The import paths of a
package are those that are written for it anywhere in the graph, and that of the root.

## Main definitions

* `Discovery.IsWritten`: import paths that are written in some package of a graph.
* `Discovery.Named`: graphs in which packages have written import paths.

## Main results

* `Discovery.Follows.named`: discovery gives packages written import paths.
* `Discovery.Complete.imports_eq_written`, `Sifts.hasGoFiles_and_imports_eq`: the files and the
  imports of a package, in order.
* `discover_relation`: the graph of an input.
-/

namespace GoPlanner

/-! ### First occurrences -/

/-- Recording imports keeps the first occurrences. -/
theorem recordAll_eq (known dependencies : List PackageId) :
    recordAll known dependencies =
      known ++ (dependencies.filter (fun d => !known.contains d)).eraseDups := by
  induction dependencies generalizing known with
  | nil => simp [recordAll]
  | cons d dependencies ih =>
      have hstep : recordAll known (d :: dependencies) =
          recordAll (if d ∈ known then known else known ++ [d]) dependencies := rfl
      rw [hstep, ih]
      split
      · rename_i hd
        rw [List.filter_cons_of_neg (by simpa using hd)]
      · rename_i hd
        rw [List.filter_cons_of_pos (by simpa using hd), List.eraseDups_cons, List.filter_filter,
          List.append_assoc, List.singleton_append]
        refine congrArg (fun rest => known ++ d :: rest.eraseDups) (List.filter_congr fun e _ => ?_)
        rw [List.contains_append, List.contains_cons, Bool.not_or, Bool.and_comm]
        simp

namespace Discovery

open PackageGraph Telling

variable {c : Discovery} {start : Arrival} {way : Way} {g g' found : PackageGraph}
  {id k : PackageId} {s : String} {p q : Package} {imports : List String} {precompiled : Bool}

/-- **The imports of a complete package** are the packages of its import paths, in order. -/
theorem Complete.imports_eq_written (h : c.Complete start g id p imports) :
    p.imports = ((p.written c.tree).filterMap (c.dependency? g)).eraseDups := by
  rw [h.linked, recordAll_eq, h.imports_eq, ← eraseDups_filterMap_eraseDups]
  simp

/-! ### Import paths of packages -/

/-- Import paths that are written in some package of a graph. -/
def IsWritten (c : Discovery) (g : PackageGraph) (importPath : String) : Prop :=
  ∃ id p, g.package? id = some p ∧ p.Writes c.tree importPath

/-- **Packages are named** by written import paths, each once, but for the root. -/
structure Named (written : String → Prop) (g : PackageGraph) : Prop where
  /-- No import path of a package is repeated. -/
  nodup : ∀ id p, g.package? id = some p → p.importPaths.Nodup
  /-- All are written, but for the first one of the root. -/
  written : ∀ id p, g.package? id = some p → ∀ s ∈ p.importPaths,
    written s ∨ (id = root ∧ s = p.importPath)

section Named

variable {written : String → Prop}

/-- A graph without packages is named. -/
theorem named_nil : Named written ⟨[], precompiled⟩ where
  nodup := fun _ _ hp => by simp [package?] at hp
  written := fun _ _ hp => by simp [package?] at hp

theorem Named.addImport (h : Named written g) : Named written (g.addImport id k) := by
  have hpaths (j : PackageId) (q : Package) (hq : (g.addImport id k).package? j = some q) :
      ∃ p, g.package? j = some p ∧ q.importPath = p.importPath ∧ q.importPaths = p.importPaths := by
    rw [PackageGraph.addImport, package?_modify] at hq
    obtain ⟨p, hp, rfl⟩ := Option.map_eq_some_iff.1 hq
    refine ⟨p, hp, ?_⟩
    split
    · rw [Package.withImport]
      split <;> exact ⟨rfl, rfl⟩
    · exact ⟨rfl, rfl⟩
  constructor
  · intro j q hq
    obtain ⟨p, hp, -, hpaths⟩ := hpaths j q hq
    exact hpaths ▸ h.nodup j p hp
  · intro j q hq s hs
    obtain ⟨p, hp, hpath, hpaths⟩ := hpaths j q hq
    rw [hpath]
    exact h.written j p hp s (hpaths ▸ hs)

theorem Named.addAlias (h : Named written g) (hs : written s) : Named written (g.addAlias k s) := by
  have hpackage (j : PackageId) (q : Package) (hq : (g.addAlias k s).package? j = some q) :
      ∃ p, g.package? j = some p ∧ (q = p.withAlias s ∨ q = p) := by
    rw [PackageGraph.addAlias, package?_modify] at hq
    obtain ⟨p, hp, rfl⟩ := Option.map_eq_some_iff.1 hq
    refine ⟨p, hp, ?_⟩
    split
    · exact Or.inl rfl
    · exact Or.inr rfl
  constructor
  · intro j q hq
    obtain ⟨p, hp, rfl | rfl⟩ := hpackage j q hq
    · have hnodup := h.nodup j p hp
      rw [Package.withAlias]
      split
      · exact hnodup
      · rename_i hnew
        have hnew : s ∉ p.importPaths := by simpa [Package.importPaths] using hnew
        change (p.importPaths ++ [s]).Nodup
        exact List.nodup_append.2 ⟨hnodup, by simp, by
          rintro a ha b hb rfl
          exact hnew (List.mem_singleton.1 hb ▸ ha)⟩
    · exact h.nodup j q hp
  · intro j q hq s' hs'
    obtain ⟨p, hp, rfl | rfl⟩ := hpackage j q hq
    · rw [(Package.Evolves.withAlias p s).importPath]
      rcases Package.mem_importPaths_withAlias.1 hs' with hs' | rfl
      · exact h.written j p hp s' hs'
      · exact Or.inl hs
    · exact h.written j q hp s' hs'

theorem Named.extended (h : Named written g) (haliases : p.aliases = [])
    (hpath : written p.importPath ∨ g.size = root) : Named written (g.extended p) := by
  have hpaths : p.importPaths = [p.importPath] := by rw [Package.importPaths, haliases]
  constructor
  · intro j q hq
    rw [package?_extended] at hq
    split at hq
    · obtain rfl := Option.some.inj hq
      rw [hpaths]
      exact List.nodup_singleton _
    · exact h.nodup j q hq
  · intro j q hq s hs
    rw [package?_extended] at hq
    split at hq
    · rename_i hj
      obtain rfl := Option.some.inj hq
      rw [hpaths] at hs
      obtain rfl := List.mem_singleton.1 hs
      exact hpath.imp_right fun hroot => ⟨hj.trans hroot, rfl⟩
    · exact h.written j q hq s hs

end Named

/-- What is written in a package that was read is written in the graph that comes of it. -/
theorem Reads.isWritten {a : Arrival} {isRoot : Bool} (h : c.Reads a isRoot p imports)
    (hgrows : (g.extended p).Grows g') (hs : s ∈ imports) : c.IsWritten g' s := by
  have hp : (g.extended p).package? g.size = some p := by rw [package?_extended, if_pos rfl]
  obtain ⟨q, hq, hpq⟩ := hgrows.package _ _ hp
  exact ⟨g.size, q, hq, hpq.writes.2 (h.mem_imports_iff.1 hs)⟩

/-- **Discovery gives packages written import paths,** if it follows those of a package. -/
theorem Follows.named (h : c.Follows way id imports g g') (hgrows : g'.Grows found)
    (himports : ∀ s ∈ imports, c.IsWritten found s) (hg : Named (c.IsWritten found) g) :
    Named (c.IsWritten found) g' := by
  induction h with
  | nil => exact hg
  | passed _ _ ih =>
      exact ih hgrows (fun s hs => himports s (List.mem_cons_of_mem _ hs)) hg
  | again _ _ _ _ ih =>
      exact ih hgrows (fun s hs => himports s (List.mem_cons_of_mem _ hs))
        (hg.addAlias (himports _ List.mem_cons_self)).addImport
  | archived _ _ _ ih =>
      exact ih hgrows (fun s hs => himports s (List.mem_cons_of_mem _ hs))
        (hg.extended rfl (Or.inl (himports _ List.mem_cons_self))).addImport
  | entered harrives _ _ hread hinner hrest ihinner ih =>
      obtain ⟨-, hpath, -, haliases⟩ := hread.fields
      have hpath : c.IsWritten found _ :=
        (hpath.trans harrives.importPath).symm ▸ himports _ List.mem_cons_self
      have hgrows₁ := grows_addImport.trans (hrest.grows.trans hgrows)
      have hinner' := ihinner hgrows₁
        (fun s hs => hread.isWritten (hinner.grows.trans hgrows₁) hs)
        (hg.extended haliases (Or.inl hpath))
      exact ih hgrows (fun s hs => himports s (List.mem_cons_of_mem _ hs)) hinner'.addImport

/-- **Packages of a graph that is found** are named by written import paths. -/
theorem Finds.named (h : c.Finds start precompiled g) : Named (c.IsWritten g) g := by
  obtain ⟨p, imports, hread, hrun⟩ := h
  have hgrows : (PackageGraph.extended ⟨[], precompiled⟩ p).Grows g := hrun.grows
  have hroot : Named (c.IsWritten g) (PackageGraph.extended ⟨[], precompiled⟩ p) :=
    named_nil.extended hread.fields.2.2.2 (Or.inr rfl)
  exact hrun.named (Grows.refl g) (fun s hs => hread.isWritten hgrows hs) hroot

end Discovery

open Discovery PackageGraph Telling

/-! ### The graph of an input -/

namespace Sifts

variable {c : Discovery} {start : Arrival} {precompiled : Bool} {found g : PackageGraph}
  {id k : PackageId} {p q : Package} {s : String}

/-- **No directory has two packages.** -/
theorem eq_of_same (h : Sifts c start precompiled found g) (hp : g.package? id = some p)
    (hq : g.package? k = some q) (hsame : p.directory.same q.directory = true) : id = k := by
  obtain ⟨p', hp', hpp'⟩ := h.exists_found hp
  obtain ⟨q', hq', hqq'⟩ := h.exists_found hq
  rw [hpp', hqq'] at hsame
  exact h.finds.proper.indexed.eq_of_same hp' hq' hsame

/-- **The files and the imports of a package.** -/
theorem hasGoFiles_and_imports_eq (h : Sifts c start precompiled found g)
    (hp : g.package? id = some p) :
    c.HasGoFiles start id p ∧
      p.imports = ((p.written c.tree).filterMap (c.dependency? g)).eraseDups := by
  obtain ⟨q, hq, hpq⟩ := h.exists_found hp
  obtain ⟨q', imports, hcomplete⟩ := h.finds.complete (lt_size_of_package? hq)
  obtain rfl : q = q' := Option.some.inj (hq.symm.trans hcomplete.package)
  have hdependency : c.dependency? g = c.dependency? found := funext fun s => h.dependency?_eq
  rw [hpq]
  refine ⟨hcomplete.hasGoFiles.congr rfl rfl rfl rfl, ?_⟩
  rw [hdependency]
  exact hcomplete.imports_eq_written

/-- **A written import path** has no package exactly if it passes. -/
theorem dependency?_eq_none_iff (h : Sifts c start precompiled found g)
    (hp : g.package? id = some p) (hs : s ∈ p.written c.tree) :
    c.dependency? g s = none ↔ c.Passes precompiled s := by
  constructor
  · intro hnone
    by_contra hpasses
    obtain ⟨k, q, hk, -⟩ := h.imports_of_writes hp (Package.mem_written.1 hs) hpasses
    rw [hnone] at hk
    cases hk
  · intro hpasses
    rw [dependency?, h.precompiled_eq, goal?_of_passes hpasses]
    rfl

/-- The package of a written import path has this path. -/
theorem mem_importPaths_of_written (h : Sifts c start precompiled found g)
    (hp : g.package? id = some p) (hs : s ∈ p.written c.tree) (hk : c.dependency? g s = some k) :
    ∃ q, g.package? k = some q ∧ s ∈ q.importPaths := by
  have hpasses : ¬ c.Passes precompiled s := by
    rw [← h.dependency?_eq_none_iff hp hs, hk]
    simp
  obtain ⟨k', q, hk', -, hq, hpath⟩ := h.imports_of_writes hp (Package.mem_written.1 hs) hpasses
  obtain rfl := Option.some.inj (hk.symm.trans hk')
  exact ⟨q, hq, hpath⟩

/-- **The import paths of a package** are written, but for that of the root, and none is
repeated. -/
theorem nodup_and_written (h : Sifts c start precompiled found g) (hp : g.package? id = some p) :
    p.importPaths.Nodup ∧ ∀ s ∈ p.importPaths,
      (∃ k q, g.package? k = some q ∧ s ∈ q.written c.tree ∧ c.dependency? g s = some id) ∨
        (id = root ∧ s = p.importPath) := by
  obtain ⟨p', hp', hpp'⟩ := h.exists_found hp
  have hpaths : p.importPaths = p'.importPaths := by rw [hpp']; rfl
  have hpath : p.importPath = p'.importPath := by rw [hpp']
  refine ⟨hpaths ▸ h.finds.named.nodup id p' hp', fun s hs => ?_⟩
  rcases h.finds.named.written id p' hp' s (hpaths ▸ hs) with ⟨k, q', hq', hs'⟩ | ⟨hroot, hs'⟩
  · rcases h.named hp hs with hdependency | ⟨rfl, hmain⟩
    · obtain ⟨q, hq⟩ := exists_package (h.size_eq ▸ lt_size_of_package? hq')
      obtain ⟨q'', hq'', hqq''⟩ := h.exists_found hq
      obtain rfl : q' = q'' := Option.some.inj (hq'.symm.trans hq'')
      refine Or.inl ⟨k, q, hq, Package.mem_written.2 ?_, hdependency⟩
      rw [hqq'']
      exact hs'
    · exact Or.inr ⟨rfl, hmain.trans (h.root_eq hp).1.symm⟩
  · exact Or.inr ⟨hroot, hs'.trans hpath.symm⟩

end Sifts

/-- **The graph of an input is the import relation.** No directory has two packages, and the
root leads to all. The Go files of a package are those of its directory that the target admits,
in the order of their names. The imports of a package are the packages of the import paths that
are written in these files, in the order of the files and of their headers, where each stands
first. Only import paths that pass have no package. Each other one is an import path of its
package, and aliases are no others and have no repetition. -/
theorem discover_relation {t : FileTree} {input buildDir : Path} {target : Target}
    {g : PackageGraph} (h : (discover t input buildDir target).outcome.1 = .ok g) :
    ∃ c place, IsFor c t input buildDir target ∧ t.resolve input = .ok place ∧
      (∀ id k p q, g.package? id = some p → g.package? k = some q →
        p.directory.same q.directory = true → id = k) ∧
      (∀ id < g.size, g.Leads root id) ∧
      ∀ id p, g.package? id = some p →
        c.HasGoFiles (rootOf t place) id p ∧ p.goFiles.Pairwise (· ≤ ·) ∧
        p.imports = ((p.written t).filterMap (c.dependency? g)).eraseDups ∧
        (∀ s ∈ p.written t,
          c.dependency? g s = none ↔ c.Passes (t.isDirectory target.archiveDir) s) ∧
        (∀ s ∈ p.written t, ∀ k, c.dependency? g s = some k →
          ∃ q, g.package? k = some q ∧ (s = q.importPath ∨ s ∈ q.aliases)) ∧
        p.aliases.Nodup ∧
        ∀ s, s ∈ p.aliases ↔ s ≠ p.importPath ∧
          ∃ k q, g.package? k = some q ∧ s ∈ q.written t ∧ c.dependency? g s = some id := by
  obtain ⟨place, hplace⟩ := resolve_of_discover h
  obtain ⟨c, found, hfor, hsifts⟩ := sifts_of_resolve hplace h
  obtain rfl := hfor.tree_eq
  refine ⟨c, place, hfor, hplace, fun id k p q hp hq hsame => hsifts.eq_of_same hp hq hsame,
    fun id hid => hsifts.leads hid, fun id p hp => ?_⟩
  obtain ⟨hfiles, himports⟩ := hsifts.hasGoFiles_and_imports_eq hp
  obtain ⟨hnodup, hwritten⟩ := hsifts.nodup_and_written hp
  obtain ⟨hnew, hnodup⟩ := List.nodup_cons.1 hnodup
  refine ⟨hfiles, hfiles.pairwise, himports, fun s hs => hsifts.dependency?_eq_none_iff hp hs, ?_, hnodup, ?_⟩
  · intro s hs k hk
    obtain ⟨q, hq, hpath⟩ := hsifts.mem_importPaths_of_written hp hs hk
    exact ⟨q, hq, List.mem_cons.1 hpath⟩
  · intro s
    constructor
    · intro hs
      have hne : s ≠ p.importPath := fun heq => hnew (heq ▸ hs)
      exact ⟨hne, (hwritten s (List.mem_cons_of_mem _ hs)).resolve_right fun hroot => hne hroot.2⟩
    · rintro ⟨hne, k, q, hq, hs, hid⟩
      obtain ⟨p', hp', hpath⟩ := hsifts.mem_importPaths_of_written hq hs hid
      obtain rfl : p = p' := Option.some.inj (hp.symm.trans hp')
      exact (List.mem_cons.1 hpath).resolve_left hne

/-- A file tree in which the root package imports a package under two import paths, and has
a test file and import paths that pass. -/
def relationTree : FileTree where
  entries :=
    [(["g"], ⟨.directory, 0⟩), (["g", "pkg"], ⟨.directory, 0⟩),
      (["g", "pkg", "linux_amd64"], ⟨.directory, 0⟩),
      (["g", "pkg", "linux_amd64", "fmt.a"], ⟨.file (.text "") false, 0⟩),
      (["g", "src"], ⟨.directory, 0⟩), (["g", "src", "os"], ⟨.directory, 0⟩),
      (["g", "src", "os", "os.go"], ⟨.file (.text "package os\n") false, 0⟩),
      (["app"], ⟨.directory, 0⟩),
      (["app", "a.go"],
        ⟨.file (.text "package main\nimport (\n\"lib/v2\"\n\"unsafe\"\n\"os\"\n)\n") false, 0⟩),
      (["app", "b.go"],
        ⟨.file (.text "package main\nimport (\n\"lib\"\n\"fmt\"\n)\n") false, 0⟩),
      (["app", "b_test.go"], ⟨.file (.text "package main\nimport \"testing\"\n") false, 0⟩),
      (["p"], ⟨.directory, 0⟩), (["p", "lib"], ⟨.directory, 0⟩),
      (["p", "lib", "lib.go"], ⟨.file (.text "package lib\nimport \"fmt\"\n") false, 0⟩)]

/-- A target with a Go distribution in this tree. -/
def relationTarget : Target :=
  { goroot := ⟨"/g"⟩, searchPath := [⟨"/p"⟩] }

/-- The discovery of this tree. -/
def relationDiscovery : Discovery where
  tree := relationTree
  target := relationTarget
  locator := ⟨relationTarget, ⟨"/app"⟩, none⟩
  layout := ⟨⟨"/b"⟩⟩

theorem eq_relationDiscovery {c : Discovery}
    (h : IsFor c relationTree ⟨"/app"⟩ ⟨"/b"⟩ relationTarget) : c = relationDiscovery := by
  obtain ⟨place, module?, hplace, hmodule, rfl⟩ := h
  obtain rfl : ["app"] = place := Except.ok.inj hplace
  have hload : relationTree.loadModule (rootOf relationTree ["app"]).directory = .ok none := by
    decide +kernel
  rw [moduleOf, hload, ends_pure] at hmodule
  obtain rfl := Except.ok.inj hmodule
  rfl

/-- The two import paths of one package are one import, and the import paths that pass are
none. -/
theorem discover_relation_relationTree :
    ∃ g p, (discover relationTree ⟨"/app"⟩ ⟨"/b"⟩ relationTarget).outcome.1 = .ok g ∧
      g.package? root = some p ∧ p.goFiles = ["a.go", "b.go"] ∧
      p.written relationTree = ["lib/v2", "unsafe", "os", "lib", "fmt"] ∧
      p.imports = [1, 2] ∧ g.packages.map (·.aliases) = [[], ["lib"], []] ∧
      relationDiscovery.Passes true "unsafe" ∧ relationDiscovery.Passes true "os" := by
  have htest : (discover relationTree ⟨"/app"⟩ ⟨"/b"⟩ relationTarget).outcome.1.toOption.any
      (fun g => decide (g.packages.map (·.aliases) = [[], ["lib"], []] ∧
        relationDiscovery.dependency? g "unsafe" = none ∧
        relationDiscovery.dependency? g "os" = none ∧
        ∃ p ∈ g.package? root, p.goFiles = ["a.go", "b.go"] ∧
          p.written relationTree = ["lib/v2", "unsafe", "os", "lib", "fmt"] ∧
          (p.written relationTree).filterMap (relationDiscovery.dependency? g) = [1, 1, 2])) =
      true := by
    decide +kernel
  obtain ⟨g, told, hgraph, hfacts⟩ := exists_ok_of_any htest
  obtain ⟨haliases, hunsafe, hos, p, hp, hfiles, hwritten, hdependencies⟩ := of_decide_eq_true hfacts
  replace hgraph := congrArg Prod.fst hgraph
  obtain ⟨c, place, hfor, -, -, -, hrelation⟩ := discover_relation hgraph
  obtain rfl := eq_relationDiscovery hfor
  obtain ⟨-, -, himports, hpasses, -⟩ := hrelation root p hp
  refine ⟨g, p, hgraph, hp, hfiles, hwritten, ?_, haliases, ?_, ?_⟩
  · rw [himports, hdependencies]
    rfl
  · exact (hpasses "unsafe" (by simp [hwritten])).1 hunsafe
  · exact (hpasses "os" (by simp [hwritten])).1 hos

end GoPlanner

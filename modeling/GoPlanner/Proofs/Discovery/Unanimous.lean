import GoPlanner.Proofs.Discovery.Circles
import GoPlanner.Proofs.Discovery.Relation
import GoPlanner.Proofs.Discovery.Reordered
import GoPlanner.Proofs.FileTree.Descend

/-!
# The Order of Imports

A directory that several import paths lead to has one package, which is read for the path that is
met first. So the order of imports matters only where a directory holds different packages for
different import paths. Where every import path of a package offers the same package, a discovery
that meets the import paths in another order finds the same packages in the same directories.

## Main definitions

* `Discovery.Offers`: the package that is found when an import path is met first.
* `Discovery.IsUnanimous`: graphs whose packages do not depend on what is met first.

## Main results

* `Discovery.Offers.exists_step`: one import path is followed.
* `Discovery.proceeds`: with import specs in another order a run goes on to its end.
* `Discovery.Twins.agrees`: two graphs that are found agree.
* `discover_reordered`: the graphs of an input.
-/

namespace GoPlanner

open PackageGraph Relation Telling

/-! ### What an import path offers -/

/-- **The package that an import path offers:** the one that is found when it is met first. -/
inductive Discovery.Offers (c : Discovery) (precompiled : Bool) (s : String) : Package → Prop
  | source {a : Arrival} {p : Package} {imports : List String}
      (harrives : c.Arrives precompiled s a) (hread : c.Reads a false p imports) : Offers c precompiled s p
  | archived {directory archive : Path}
      (hlocated : c.locator.locate c.tree s = some (.archived directory archive)) :
      Offers c precompiled s (archivedPackage directory archive s)

/-- **The import paths of a graph are unanimous** when every import path of a package, but for
the root, offers the same package. -/
def Discovery.IsUnanimous (c : Discovery) (g : PackageGraph) : Prop :=
  ∀ id p, id ≠ root → g.package? id = some p → ∀ s ∈ p.importPaths,
    ∃ q, c.Offers g.precompiled s q ∧ p.Resembles q

namespace Discovery

variable {c : Discovery} {t' : FileTree} {start : Arrival} {precompiled : Bool}
  {found found' g g' : PackageGraph} {id j k k' : PackageId} {p p' q : Package} {s : String}
  {way : Way} {directory : Path}

/-- **An import path offers the same package** with import specs in another order. -/
theorem Offers.reordered (hoffers : c.Offers precompiled s p) (h : c.tree.Reordered t')
    (ht : c.tree.IsWellFormed) (ht' : t'.IsWellFormed) :
    ∃ q, (c.inTree t').Offers precompiled s q ∧ p.Resembles q := by
  cases hoffers with
  | source harrives hread =>
      obtain ⟨q, imports', hread', hresembles⟩ := h.exists_reads ht ht' hread
      exact ⟨q, .source (h.looksUpAlike.arrives_iff.2 harrives) hread', hresembles⟩
  | archived hlocated =>
      exact ⟨_, .archived ((h.looksUpAlike.locate s).trans hlocated),
        (Package.Evolves.refl _).resembles⟩

/-! ### Runs -/

/-- **A run can go on** with imports of a package, and all packages that it finds are known. -/
def Proceeds (c : Discovery) (found : PackageGraph) (way : Way) (p : Package) : Prop :=
  ∀ id imports g, (∀ s ∈ imports, p.Writes c.tree s) → g.Mirrors found → id < g.size →
    ∃ g', c.Follows way id imports g g' ∧ g'.Mirrors found

/-- **A package that is offered** and is not known yet is found when its import path is followed. -/
theorem Offers.exists_step {r : Package} (hoffers : c.Offers g.precompiled s r)
    (hgoal : c.goal? g.precompiled s = some directory) (hoff : way.passes directory = false)
    (hnew : g.byDirectory? directory = none) (hq : found.package? k = some q)
    (hsame : q.directory.same directory = true) (hresembles : q.Resembles r)
    (hinner : ∀ a : Arrival, q.directory.same a.directory = true →
      c.Proceeds found (way ++ [(a.directory, s)]) q)
    (hg : g.Mirrors found) (hid : id < g.size) :
    ∃ g₁, g₁.Mirrors found ∧ id < g₁.size ∧ ∀ rest g',
      c.Follows way id rest g₁ g' → c.Follows way id (s :: rest) g g' := by
  cases hoffers with
  | @source a _ imports harrives hread =>
      obtain rfl : directory = a.directory :=
        Option.some.inj (hgoal.symm.trans (goal?_of_arrives harrives))
      have hg₁ : (g.extended r).Mirrors found := hg.extended hq (by rwa [hread.fields.1]) hresembles
      obtain ⟨g₁, hrun, hg₁⟩ := hinner a hsame g.size imports (g.extended r)
        (fun s' hs' => hresembles.symm.writes_iff.2 (hread.mem_imports_iff.1 hs')) hg₁ (by simp)
      have hgrows : g.Grows (g₁.addImport id g.size) :=
        (grows_extended.trans hrun.grows).trans grows_addImport
      rw [← isEmpty_eq_false hid] at hread
      exact ⟨_, hg₁.modify fun p => Package.Evolves.withImport p g.size, hgrows.lt_size hid,
        fun rest g' hrest => .entered harrives hoff hnew hread hrun hrest⟩
  | @archived directory' archive hlocated =>
      obtain rfl : directory = directory' :=
        Option.some.inj (hgoal.symm.trans (goal?_of_archived ⟨archive, hlocated⟩))
      have hg₁ : (g.extended (archivedPackage directory archive s)).Mirrors found :=
        hg.extended hq hsame hresembles
      have hgrows : g.Grows
          ((g.extended (archivedPackage directory archive s)).addImport id g.size) :=
        grows_extended.trans grows_addImport
      exact ⟨_, hg₁.modify fun p => Package.Evolves.withImport p g.size, hgrows.lt_size hid,
        fun rest g' hrest => .archived hlocated hnew hrest⟩

/-- **One import** is followed in another tree: the package that it stands for is there already,
or it is one that the import path offers. -/
theorem exists_step (h : c.tree.Reordered t') (ht : c.tree.IsWellFormed) (ht' : t'.IsWellFormed)
    (hfinds : c.Finds start precompiled found) (hunanimous : c.IsUnanimous found)
    (hp : found.package? k = some p) (hs : p.Writes c.tree s)
    (hroot : ∀ j, found.Imports k j → j ≠ root)
    (hway : ∀ j q, found.Imports k j → found.package? j = some q → way.passes q.directory = false)
    (hinner : ∀ (j : PackageId) (q : Package), found.Imports k j → found.package? j = some q →
      ∀ a : Arrival, q.directory.same a.directory = true →
        (c.inTree t').Proceeds found (way ++ [(a.directory, s)]) q)
    (hg : g.Mirrors found) (hid : id < g.size) :
    ∃ g₁, g₁.Mirrors found ∧ id < g₁.size ∧ ∀ rest g',
      (c.inTree t').Follows way id rest g₁ g' → (c.inTree t').Follows way id (s :: rest) g g' := by
  have halike := h.looksUpAlike
  have hprecompiled : g.precompiled = precompiled := hg.precompiled.trans hfinds.precompiled_eq
  by_cases hpasses : c.Passes precompiled s
  · refine ⟨g, hg, hid, fun rest g' hrest => .passed ?_ hrest⟩
    rw [hprecompiled]
    exact halike.passes_iff.2 hpasses
  · obtain ⟨directory, hgoal⟩ := hfinds.exists_goal hp hs hpasses
    obtain ⟨j, q, himports, hj, hq, hpath⟩ := hfinds.imports_of_writes hp hs hgoal
    have hsame : q.directory.same directory = true := by
      obtain ⟨⟨r, hr, hsame⟩, -⟩ := byDirectory?_eq_some.1 hj
      obtain rfl := Option.some.inj (hq.symm.trans hr)
      exact hsame
    have hoff : way.passes directory = false :=
      (passes_congr hsame).symm.trans (hway j q himports hq)
    have hgoal' : (c.inTree t').goal? g.precompiled s = some directory := by
      rw [hprecompiled, halike.goal?_eq, hgoal]
    cases hknown : g.byDirectory? directory with
    | some i =>
        have hg₁ : ((g.addAlias i s).addImport id i).Mirrors found :=
          (hg.modify fun p => Package.Evolves.withAlias p s).modify
            fun p => Package.Evolves.withImport p i
        have hgrows : g.Grows ((g.addAlias i s).addImport id i) :=
          grows_addAlias.trans grows_addImport
        exact ⟨_, hg₁, hgrows.lt_size hid,
          fun rest g' hrest => .again hgoal' (Or.inl hoff) hknown hrest⟩
    | none =>
        obtain ⟨r, hoffers, hresembles⟩ := hunanimous j q (hroot j himports) hq s hpath
        obtain ⟨r', hoffers', hresembles'⟩ := hoffers.reordered h ht ht'
        rw [← hg.precompiled] at hoffers'
        exact hoffers'.exists_step hgoal' hoff hknown hq hsame (hresembles.trans hresembles')
          (hinner j q himports hq) hg hid

/-- **A run can go on** in another tree as long as no package to come is on the way. -/
theorem proceeds (h : c.tree.Reordered t') (ht : c.tree.IsWellFormed) (ht' : t'.IsWellFormed)
    (hfinds : c.Finds start precompiled found) (hunanimous : c.IsUnanimous found)
    (hgrounded : found.Grounded root) (hleads : found.Leads root k)
    (hp : found.package? k = some p)
    (hway : ∀ j q, TransGen found.Imports k j → found.package? j = some q →
      way.passes q.directory = false) : (c.inTree t').Proceeds found way p := by
  -- The induction is along the imports that were found, where every way ends.
  have hk : found.Grounded k := hgrounded.of_leads hleads
  induction hk generalizing p way with
  | intro k _ ih =>
      have hroot : ∀ j, found.Imports k j → j ≠ root := by
        rintro j himports rfl
        exact hgrounded.not_onCircle (TransGen.tail' hleads himports)
      have hinner : ∀ (s : String) (j : PackageId) (q : Package), found.Imports k j →
          found.package? j = some q → ∀ a : Arrival, q.directory.same a.directory = true →
            (c.inTree t').Proceeds found (way ++ [(a.directory, s)]) q := by
        intro s j q himports hq a hsame
        have hleads' := hleads.tail himports
        refine ih j himports hleads' hq fun i r hlater hr => ?_
        rw [passes_append, hway i r (TransGen.head himports hlater) hr, Bool.false_or]
        by_contra hpasses
        rw [Bool.not_eq_false] at hpasses
        obtain rfl := hfinds.proper.indexed.eq_of_same hq hr (Path.same_trans hsame hpasses)
        exact not_onCircle_of_grounded hgrounded hleads' hlater
      intro id imports g himports hg hid
      induction imports generalizing g with
      | nil => exact ⟨g, .nil _ _ _, hg⟩
      | cons s rest ihrest =>
          have hs : p.Writes c.tree s := h.writes_iff.1 (himports s List.mem_cons_self)
          obtain ⟨g₁, hg₁, hid₁, hstep⟩ := exists_step h ht ht' hfinds hunanimous hp hs hroot
            (fun j q himports hq => hway j q (TransGen.single himports) hq) (hinner s) hg hid
          obtain ⟨g', hrest, hg'⟩ :=
            ihrest g₁ (fun s hs => himports s (List.mem_cons_of_mem _ hs)) hg₁ hid₁
          exact ⟨g', hstep rest g' hrest, hg'⟩

/-! ### The graphs that are found -/

/-- **Two graphs that are found** in trees that differ in the order of import specs, the second of
which mirrors the first. -/
structure Twins (c : Discovery) (t' : FileTree) (start : Arrival) (precompiled : Bool)
    (found found' : PackageGraph) : Prop where
  /-- The trees differ in the order of import specs. -/
  reordered : c.tree.Reordered t'
  /-- The first graph is found. -/
  finds : c.Finds start precompiled found
  /-- So is the second one. -/
  finds' : (c.inTree t').Finds start precompiled found'
  /-- It mirrors the first one. -/
  mirrors : found'.Mirrors found

/-- The root lies in the directory that discovery starts in. -/
theorem Finds.directory_root (hfinds : c.Finds start precompiled found)
    (hp : found.package? root = some p) : p.directory = start.directory := by
  obtain ⟨q, imports, hread, hrun⟩ := hfinds
  obtain ⟨r, hr, hevolves⟩ := hrun.grows.package root q rfl
  obtain rfl := Option.some.inj (hp.symm.trans hr)
  rw [hevolves.directory, hread.fields.1]

/-- **A graph is found** with import specs in another order. -/
theorem Finds.exists_twins (hfinds : c.Finds start precompiled found) (h : c.tree.Reordered t')
    (ht : c.tree.IsWellFormed) (ht' : t'.IsWellFormed) (hunanimous : c.IsUnanimous found)
    (hgrounded : found.Grounded root) : ∃ found', c.Twins t' start precompiled found found' := by
  obtain ⟨p, imports, hread, hrun⟩ := id hfinds
  obtain ⟨q, hq, hevolves⟩ := hrun.grows.package root p rfl
  obtain ⟨p', imports', hread', hresembles⟩ := h.exists_reads ht ht' hread
  have hsame : q.directory = p'.directory := by
    rw [hevolves.directory, hread.fields.1, hread'.fields.1]
  have hqp : q.Resembles p' := hevolves.resembles.symm.trans hresembles
  have hempty : Mirrors ⟨[], precompiled⟩ found :=
    ⟨hfinds.precompiled_eq.symm, fun _ _ hp => by simp [package?] at hp⟩
  have hproceeds : (c.inTree t').Proceeds found [(start.directory, start.importPath)] q :=
    proceeds h ht ht' hfinds hunanimous hgrounded ReflTransGen.refl hq fun j r hlater hr => by
      rw [← Bool.not_eq_true, Way.passes]
      intro hpasses
      have hsame' : q.directory.same r.directory = true := by
        rw [hevolves.directory, hread.fields.1]
        simpa using hpasses
      obtain rfl := hfinds.proper.indexed.eq_of_same hq hr hsame'
      exact hgrounded.not_onCircle hlater
  obtain ⟨found', hrun', hmirrors⟩ := hproceeds root imports'
    (PackageGraph.extended ⟨[], precompiled⟩ p')
    (fun s hs => hqp.writes_iff.1 (hread'.mem_imports_iff.1 hs))
    (hempty.extended hq (hsame ▸ Path.same_self _) hqp) Nat.zero_lt_one
  exact ⟨found', h, hfinds, ⟨p', imports', hread', hrun'⟩, hmirrors⟩

namespace Twins

theorem precompiled_eq (h : c.Twins t' start precompiled found found') :
    found'.precompiled = found.precompiled :=
  h.mirrors.precompiled

/-- **Packages in one directory** of both graphs resemble each other. -/
theorem resembles (h : c.Twins t' start precompiled found found') (hp : found.package? k = some p)
    (hp' : found'.package? k' = some p') (hsame : p.directory.same p'.directory = true) :
    p.Resembles p' :=
  h.mirrors.resembles h.finds.proper.indexed hp hp' hsame

/-- **Imports are the same** for packages in one directory. -/
theorem exists_import (h : c.Twins t' start precompiled found found')
    (hp : found.package? k = some p) (hp' : found'.package? k' = some p')
    (hsame : p.directory.same p'.directory = true) (himports : found.Imports k j)
    (hq : found.package? j = some q) :
    ∃ j' q', found'.Imports k' j' ∧ found'.package? j' = some q' ∧
      q.directory.same q'.directory = true := by
  obtain ⟨s, hs, hj⟩ := h.finds.exists_writes hp himports
  rw [dependency?, h.finds.precompiled_eq] at hj
  obtain ⟨directory, hgoal, hj⟩ := Option.bind_eq_some_iff.1 hj
  have hs' : p'.Writes t' s :=
    h.reordered.writes_iff.2 ((h.resembles hp hp' hsame).writes_iff.2 hs)
  obtain ⟨j', q', himports', hj', hq', -⟩ := h.finds'.imports_of_writes hp' hs'
    (h.reordered.looksUpAlike.goal?_eq.trans hgoal)
  exact ⟨j', q', himports', hq', same_of_byDirectory? hj hq hj' hq'⟩

/-- **Every package has a twin** in its directory. -/
theorem exists_package (h : c.Twins t' start precompiled found found')
    (hp : found.package? k = some p) :
    ∃ k' p', found'.package? k' = some p' ∧ p.directory.same p'.directory = true := by
  have hleads := h.finds.leads (lt_size_of_package? hp)
  induction hleads generalizing p with
  | refl =>
      obtain ⟨p', hp'⟩ := PackageGraph.exists_package h.finds'.root_lt_size
      refine ⟨root, p', hp', ?_⟩
      rw [h.finds.directory_root hp, h.finds'.directory_root hp']
      exact Path.same_self _
  | tail _ himports ih =>
      obtain ⟨q, hq⟩ := PackageGraph.exists_package himports.importer_lt
      obtain ⟨i, q', hq', hsame⟩ := ih hq
      obtain ⟨j', p', -, hp', hsame'⟩ := h.exists_import hq hq' hsame himports hp
      exact ⟨j', p', hp', hsame'⟩

/-- **The relation is symmetric.** -/
theorem symm (h : c.Twins t' start precompiled found found') :
    (c.inTree t').Twins c.tree start precompiled found' found where
  reordered := h.reordered.symm
  finds := h.finds'
  finds' := h.finds
  mirrors := by
    refine ⟨h.precompiled_eq.symm, fun k p hp => ?_⟩
    obtain ⟨k', p', hp', hsame⟩ := h.exists_package hp
    exact ⟨k', p', hp', by rwa [Path.same_comm], (h.resembles hp hp' hsame).symm⟩

/-- **Where imports end** in one graph, they end in the other one. -/
theorem grounded (h : c.Twins t' start precompiled found found') (hk : found.Grounded k)
    (hp : found.package? k = some p) (hp' : found'.package? k' = some p')
    (hsame : p.directory.same p'.directory = true) : found'.Grounded k' := by
  induction hk generalizing k' p p' with
  | intro k _ ih =>
      refine Acc.intro k' fun j' himports' => ?_
      obtain ⟨q', hq'⟩ :=
        PackageGraph.exists_package (h.finds'.proper.closed k' j' himports')
      rw [Path.same_comm] at hsame
      obtain ⟨j, q, himports, hq, hsame'⟩ := h.symm.exists_import hp' hp hsame himports' hq'
      exact ih j himports hq hq' (by rwa [Path.same_comm])

theorem rootGrounded (h : c.Twins t' start precompiled found found')
    (hgrounded : found.Grounded root) : found'.Grounded root := by
  obtain ⟨p, hp⟩ := PackageGraph.exists_package h.finds.root_lt_size
  obtain ⟨p', hp'⟩ := PackageGraph.exists_package h.finds'.root_lt_size
  refine h.grounded hgrounded hp hp' ?_
  rw [h.finds.directory_root hp, h.finds'.directory_root hp']
  exact Path.same_self _

/-- **The import paths of a package** are those of its twin, but for the root. -/
theorem mem_importPaths (h : c.Twins t' start precompiled found found') (hroot : k' ≠ root)
    (hp : found.package? k = some p) (hp' : found'.package? k' = some p')
    (hsame : p.directory.same p'.directory = true) (hs : s ∈ p'.importPaths) :
    s ∈ p.importPaths := by
  have hdependency := (h.finds'.proper.named k' p' hp' s hs).resolve_right fun hk' => hroot hk'.1
  obtain ⟨i', r', hr', hwrites⟩ :=
    (h.finds'.named.written k' p' hp' s hs).resolve_right fun hk' => hroot hk'.1
  obtain ⟨i, r, hr, hsame'⟩ := h.symm.exists_package hr'
  rw [Path.same_comm] at hsame'
  have hwrites : r.Writes c.tree s :=
    (h.resembles hr hr' hsame').writes_iff.1 (h.reordered.writes_iff.1 hwrites)
  rw [dependency?, h.finds'.precompiled_eq, h.reordered.looksUpAlike.goal?_eq] at hdependency
  obtain ⟨directory, hgoal, hk'⟩ := Option.bind_eq_some_iff.1 hdependency
  obtain ⟨j, q, -, hj, hq, hpath⟩ := h.finds.imports_of_writes hr hwrites hgoal
  rw [Path.same_comm] at hsame
  obtain rfl := h.finds.proper.indexed.eq_of_same hq hp
    (Path.same_trans (same_of_byDirectory? hj hq hk' hp') hsame)
  obtain rfl := Option.some.inj (hp.symm.trans hq)
  exact hpath

/-- **The import paths of the second graph are unanimous** as well. -/
theorem isUnanimous (h : c.Twins t' start precompiled found found') (ht : c.tree.IsWellFormed)
    (ht' : t'.IsWellFormed) (hunanimous : c.IsUnanimous found) :
    (c.inTree t').IsUnanimous found' := by
  intro k' p' hroot hp' s hs
  obtain ⟨k, p, hp, hsame⟩ := h.symm.exists_package hp'
  rw [Path.same_comm] at hsame
  have hne : k ≠ root := by
    rintro rfl
    obtain ⟨r', hr'⟩ := PackageGraph.exists_package h.finds'.root_lt_size
    rw [h.finds.directory_root hp, ← h.finds'.directory_root hr'] at hsame
    exact hroot (h.finds'.proper.indexed.eq_of_same hr' hp' hsame).symm
  obtain ⟨q, hoffers, hresembles⟩ := hunanimous k p hne hp s (h.mem_importPaths hroot hp hp' hsame hs)
  obtain ⟨q', hoffers', hresembles'⟩ := hoffers.reordered h.reordered ht ht'
  rw [h.precompiled_eq]
  exact ⟨q', hoffers', (h.resembles hp hp' hsame).symm.trans (hresembles.trans hresembles')⟩

/-- The packages of a directory in both graphs. -/
theorem exists_byDirectory? (h : c.Twins t' start precompiled found found')
    (hk : found.byDirectory? directory = some k) :
    ∃ p k' p', found.package? k = some p ∧ found'.byDirectory? directory = some k' ∧
      found'.package? k' = some p' ∧ p.directory.same p'.directory = true := by
  obtain ⟨⟨p, hp, hsame⟩, -⟩ := byDirectory?_eq_some.1 hk
  obtain ⟨k', p', hp', hsame'⟩ := h.exists_package hp
  refine ⟨p, k', p', hp, h.finds'.proper.indexed.byDirectory? hp' ?_, hp', hsame'⟩
  rw [Path.same_comm] at hsame'
  exact Path.same_trans hsame' hsame

theorem importsAcross (h : c.Twins t' start precompiled found found') {other : Path}
    (himports : found.ImportsAcross directory other) : found'.ImportsAcross directory other := by
  obtain ⟨k, j, hk, hj, himports⟩ := himports
  obtain ⟨p, k', p', hp, hk', hp', hsame⟩ := h.exists_byDirectory? hk
  obtain ⟨⟨q, hq, hqsame⟩, -⟩ := byDirectory?_eq_some.1 hj
  obtain ⟨j', q', himports', hq', hsame'⟩ := h.exists_import hp hp' hsame himports hq
  rw [Path.same_comm] at hsame'
  exact ⟨k', j', hk', h.finds'.proper.indexed.byDirectory? hq' (Path.same_trans hsame' hqsame),
    himports'⟩

/-- **The graphs agree.** -/
theorem agrees (h : c.Twins t' start precompiled found found') : found.Agrees found' where
  packages := by
    intro directory
    rw [packageIn?, packageIn?]
    cases hk : found.byDirectory? directory with
    | some k =>
        obtain ⟨p, k', p', hp, hk', hp', hsame⟩ := h.exists_byDirectory? hk
        have hresembles := h.resembles hp hp' hsame
        simp [hk', hp, hp', Package.files, hresembles.name, hresembles.goFiles, hresembles.asmFiles]
    | none =>
        cases hk' : found'.byDirectory? directory with
        | none => rfl
        | some k' =>
            obtain ⟨-, k, -, -, hk₁, -⟩ := h.symm.exists_byDirectory? hk'
            cases hk.symm.trans hk₁
  imports := fun _ _ => ⟨h.symm.importsAcross, h.importsAcross⟩

end Twins

/-- **Without aliases** the import paths of a graph are unanimous. -/
theorem Finds.isUnanimous (hfinds : c.Finds start precompiled found)
    (h : ∀ id p, found.package? id = some p → p.aliases = []) : c.IsUnanimous found := by
  intro id p hid hp s hs
  obtain ⟨p', imports, hcomplete⟩ := hfinds.complete (lt_size_of_package? hp)
  obtain rfl := Option.some.inj (hp.symm.trans hcomplete.package)
  obtain rfl : s = p.importPath := by simpa [Package.importPaths, h id p hp] using hs
  obtain ⟨q, hstems, hevolves⟩ := hcomplete.stems
  refine ⟨q, ?_, hevolves.resembles.symm⟩
  rw [hevolves.importPath]
  cases hstems with
  | root hroot => exact absurd hroot hid
  | source _ harrives hread =>
      rw [hread.fields.2.1, harrives.importPath]
      exact .source harrives hread
  | archived _ hlocated => exact .archived hlocated

/-- Archives do not matter for what the import paths of a package offer. -/
theorem IsUnanimous.congr {g g' : PackageGraph} (h : c.IsUnanimous g) (hbare : g'.bare = g.bare) :
    c.IsUnanimous g' := by
  intro id p hid hp s hs
  obtain ⟨archive?, hq⟩ := exists_package_of_bare hbare.symm hp
  obtain ⟨q, hoffers, hresembles⟩ := h id _ hid hq s hs
  rw [precompiled_eq_of_bare hbare]
  exact ⟨q, hoffers, hresembles.name, hresembles.goFiles, hresembles.asmFiles, hresembles.goPaths⟩

end Discovery

open Discovery

/-! ### The graphs of an input -/

variable {c : Discovery} {t t' : FileTree} {input buildDir : Path} {target : Target}
  {g g' : PackageGraph}

/-- The discovery of an input with import specs in another order. -/
theorem FileTree.Reordered.isFor (h : t.Reordered t') (hfor : IsFor c t input buildDir target) :
    IsFor (c.inTree t') t' input buildDir target := by
  obtain ⟨place, -, hplace, -⟩ := id hfor
  exact hfor.inTree hplace (h.resolve_iff.2 hplace) (h.rootOf_eq place) (h.loadModule_eq _)

/-- **A graph is discovered** with import specs in another order, and it agrees. -/
theorem exists_discover_reordered (h : t.Reordered t') (ht : t.IsWellFormed) (ht' : t'.IsWellFormed)
    (hfor : IsFor c t input buildDir target)
    (hg : (discover t input buildDir target).outcome.1 = .ok g) (hunanimous : c.IsUnanimous g) :
    ∃ g', (discover t' input buildDir target).outcome.1 = .ok g' ∧
      (c.inTree t').IsUnanimous g' ∧ g.Agrees g' := by
  obtain ⟨place, hplace⟩ := resolve_of_discover hg
  obtain ⟨c', found, hfor', hsifts⟩ := sifts_of_resolve hplace hg
  obtain rfl := hfor.unique hfor'
  obtain rfl := hfor.tree_eq
  have hunanimous' := hunanimous.congr hsifts.bare_eq.symm
  obtain ⟨found', htwins⟩ := hsifts.finds.exists_twins h ht ht' hunanimous' hsifts.rootGrounded
  obtain ⟨g', hg', hbare'⟩ := exists_discover_of_finds (h.isFor hfor) hplace (h.resolve_iff.2 hplace)
    h.isDirectoryAt_eq h.isDirectory_eq hg htwins.finds' (htwins.rootGrounded hsifts.rootGrounded)
  refine ⟨g', hg', (htwins.isUnanimous ht ht' hunanimous').congr hbare', ?_⟩
  exact (agrees_of_bare hsifts.bare_eq.symm).trans (htwins.agrees.trans (agrees_of_bare hbare'))

/-- **The order of import specs does not matter** where every import path of a package, but for
the root, offers the same package. For trees that differ in nothing else such a graph is
discovered in one exactly if it is discovered in the other. The graphs then have packages in the
same directories, with the same names and files, and imports between the same directories. -/
theorem discover_reordered (h : t.Reordered t') (ht : t.IsWellFormed) (ht' : t'.IsWellFormed)
    (hfor : IsFor c t input buildDir target) :
    IsFor (c.inTree t') t' input buildDir target ∧
      ((∃ g, (discover t input buildDir target).outcome.1 = .ok g ∧ c.IsUnanimous g) ↔
        ∃ g', (discover t' input buildDir target).outcome.1 = .ok g' ∧
          (c.inTree t').IsUnanimous g') ∧
      ∀ g g', (discover t input buildDir target).outcome.1 = .ok g → c.IsUnanimous g →
        (discover t' input buildDir target).outcome.1 = .ok g' → g.Agrees g' := by
  refine ⟨h.isFor hfor, ⟨?_, ?_⟩, ?_⟩
  · rintro ⟨g, hg, hunanimous⟩
    obtain ⟨g', hg', hunanimous', -⟩ := exists_discover_reordered h ht ht' hfor hg hunanimous
    exact ⟨g', hg', hunanimous'⟩
  · rintro ⟨g', hg', hunanimous'⟩
    obtain ⟨g, hg, hunanimous, -⟩ :=
      exists_discover_reordered h.symm ht' ht (h.isFor hfor) hg' hunanimous'
    obtain rfl := hfor.tree_eq
    exact ⟨g, hg, hunanimous⟩
  · intro g g' hg hunanimous hg'
    obtain ⟨g₁, hg₁, -, hagrees⟩ := exists_discover_reordered h ht ht' hfor hg hunanimous
    obtain rfl := Except.ok.inj (hg'.symm.trans hg₁)
    exact hagrees

/-! ### One directory under two import paths -/

/-- A file tree in which the root package has a given text, and the directory of a library has
another file with a given text. -/
def specsTree (src other : String) : FileTree where
  entries :=
    [(["app", "main.go"], ⟨.file (.text src) false, 0⟩), (["app"], ⟨.directory, 0⟩),
      (["p"], ⟨.directory, 0⟩), (["p", "lib"], ⟨.directory, 0⟩),
      (["p", "lib", "lib.go"], ⟨.file (.text "package lib\n") false, 0⟩),
      (["p", "lib", "other.go"], ⟨.file (.text other) false, 0⟩)]

/-- A target whose search path holds the library. -/
def specsTarget : Target :=
  { goroot := ⟨"/g"⟩, searchPath := [⟨"/p"⟩] }

/-- The discovery of such a tree. -/
def specsDiscovery (t : FileTree) : Discovery where
  tree := t
  target := specsTarget
  locator := ⟨specsTarget, ⟨"/app"⟩, none⟩
  layout := ⟨⟨"/b"⟩⟩

/-- A text that imports the library under its own name first. -/
def ownNameFirst : String :=
  "package main\nimport (\n\"lib\"\n\"lib/v2\"\n)\n"

/-- The same text with the import specs in another order. -/
def versionFirst : String :=
  "package main\nimport (\n\"lib/v2\"\n\"lib\"\n)\n"

theorem reordersImports_versionFirst : ReordersImports ownNameFirst versionFirst := by
  have hheader : (scanHeader ownNameFirst).toOption =
      some ⟨"main", [⟨none, "lib", 3⟩, ⟨none, "lib/v2", 4⟩]⟩ := by decide +kernel
  have hheader' : (scanHeader versionFirst).toOption =
      some ⟨"main", [⟨none, "lib/v2", 3⟩, ⟨none, "lib", 4⟩]⟩ := by decide +kernel
  have hnone : (scanConstraints ownNameFirst).toOption = some ⟨none, []⟩ := by decide +kernel
  have hnone' : (scanConstraints versionFirst).toOption = some ⟨none, []⟩ := by decide +kernel
  refine ⟨(ok_of_toOption hnone').trans (ok_of_toOption hnone).symm, ?_⟩
  rw [hheader, hheader']
  exact .some ⟨rfl, .swap _ _ _⟩

theorem reordered_specsTree {src src' : String} (h : ReordersImports src src') (other : String) :
    (specsTree src other).Reordered (specsTree src' other) := by
  have hnode (place : Place) (hplace : place ≠ ["app", "main.go"]) :
      (specsTree src' other).node? place = (specsTree src other).node? place := by
    simp only [specsTree, FileTree.node?, FileTree.entry?, List.lookup_cons, beq_false_of_ne hplace]
  refine ⟨rfl, fun place => ?_, fun directory place hplace => hnode place ?_⟩
  · by_cases hplace : place = ["app", "main.go"]
    · subst hplace
      exact Or.inr ⟨_, _, _, _, rfl, rfl, h⟩
    · exact Or.inl (hnode place hplace)
  · obtain ⟨above, rfl⟩ := FileTree.exists_eq_append_of_resolve
      (isPlain_of_mem (c := 'g') (by decide) (by decide) (by decide))
      (FileTree.node?_ne_link rfl) hplace
    intro heq
    have hlast := congrArg List.getLast? heq
    simp [moduleFileName] at hlast

theorem isWellFormed_specsTree (src other : String) : (specsTree src other).IsWellFormed where
  nodup := by simp [specsTree]
  slash := by simp [specsTree]

/-- **The order of import specs matters** where a directory holds two packages: it has the one
that is named like the import path that is met first, and there may be none. -/
theorem exists_reordered_ambiguous :
    (specsTree ownNameFirst "package other\n").IsWellFormed ∧
      (specsTree versionFirst "package other\n").IsWellFormed ∧
      (specsTree ownNameFirst "package other\n").Reordered
        (specsTree versionFirst "package other\n") ∧
      (∃ g, (discover (specsTree ownNameFirst "package other\n") ⟨"/app"⟩ ⟨"/b"⟩
        specsTarget).outcome.1 = .ok g) ∧
      (discover (specsTree versionFirst "package other\n") ⟨"/app"⟩ ⟨"/b"⟩
        specsTarget).outcome.1 = .error (.ambiguousPackage "lib/v2" ⟨"/p/lib"⟩ ["lib", "other"]) := by
  refine ⟨isWellFormed_specsTree _ _, isWellFormed_specsTree _ _,
    reordered_specsTree reordersImports_versionFirst _, ?_, by decide +kernel⟩
  have htest : (discover (specsTree ownNameFirst "package other\n") ⟨"/app"⟩ ⟨"/b"⟩
      specsTarget).outcome.1.toOption.any (fun _ => true) = true := by decide +kernel
  obtain ⟨g, told, hg, -⟩ := exists_ok_of_any htest
  exact ⟨g, congrArg Prod.fst hg⟩

/-- The package of the library, with its import paths. -/
def specsLibrary (importPath other : String) : Package where
  directory := ⟨"/p/lib"⟩
  importPath := importPath
  name := "lib"
  goFiles := ["lib.go", "other.go"]
  aliases := [other]

/-- The graph of such a tree, by the import paths of the library. -/
def specsGraph (importPath other : String) : PackageGraph where
  packages :=
    [{ directory := ⟨"/app"⟩, importPath := "main", name := "main", goFiles := ["main.go"],
       imports := [1] }, specsLibrary importPath other]

/-- Both import paths of the library offer the same package if it has no other one. -/
theorem isUnanimous_specsGraph :
    (specsDiscovery (specsTree ownNameFirst "package lib\n")).IsUnanimous
      (specsGraph "lib" "lib/v2") := by
  have hoffers (s : String) (hs : s ∈ ["lib", "lib/v2"]) :
      ∃ q, (specsDiscovery (specsTree ownNameFirst "package lib\n")).Offers false s q ∧
        (specsLibrary "lib" "lib/v2").Resembles q := by
    have hlocate : ∀ s ∈ ["lib", "lib/v2"],
        (specsDiscovery (specsTree ownNameFirst "package lib\n")).locator.locate
          (specsTree ownNameFirst "package lib\n") s = some (.source ⟨"/p/lib"⟩ false) := by
      decide +kernel
    have hread : ∀ s ∈ ["lib", "lib/v2"],
        (((⟨["p", "lib"], s, false, none⟩ : Arrival).toRead false).read
          (specsTree ownNameFirst "package lib\n") specsTarget).outcome.1 =
            .ok ⟨"lib", ["lib.go", "other.go"], [], []⟩ := by
      decide +kernel
    have hplace : (specsTree ownNameFirst "package lib\n").resolve ⟨"/p/lib"⟩ =
        .ok ["p", "lib"] := by decide +kernel
    exact ⟨_, .source (a := ⟨["p", "lib"], s, false, none⟩) ⟨⟨_, hlocate s hs, hplace⟩, rfl, rfl, rfl⟩
      ⟨_, ends_of_outcome (hread s hs), rfl, rfl⟩, ⟨rfl, rfl, rfl, rfl⟩⟩
  intro id p hid hp s hs
  rcases id with _ | _ | id
  · exact absurd rfl hid
  · obtain rfl : specsLibrary "lib" "lib/v2" = p := Option.some.inj hp
    exact hoffers s hs
  · cases hp

/-- The library has another primary import path when the import specs are in another order. -/
theorem discover_reordered_specsTree :
    ∃ g g', (discover (specsTree ownNameFirst "package lib\n") ⟨"/app"⟩ ⟨"/b"⟩
        specsTarget).outcome.1 = .ok g ∧
      (discover (specsTree versionFirst "package lib\n") ⟨"/app"⟩ ⟨"/b"⟩
        specsTarget).outcome.1 = .ok g' ∧
      g.Agrees g' ∧ g.packages.map (·.importPath) = ["main", "lib"] ∧
      g'.packages.map (·.importPath) = ["main", "lib/v2"] := by
  have hfor : IsFor (specsDiscovery (specsTree ownNameFirst "package lib\n"))
      (specsTree ownNameFirst "package lib\n") ⟨"/app"⟩ ⟨"/b"⟩ specsTarget :=
    ⟨["app"], none, by decide +kernel, ends_of_outcome (by decide +kernel), rfl⟩
  have hg : (discover (specsTree ownNameFirst "package lib\n") ⟨"/app"⟩ ⟨"/b"⟩
      specsTarget).outcome.1 = .ok (specsGraph "lib" "lib/v2") := by decide +kernel
  obtain ⟨-, hiff, hagrees⟩ := discover_reordered
    (reordered_specsTree reordersImports_versionFirst "package lib\n")
    (isWellFormed_specsTree _ _) (isWellFormed_specsTree _ _) hfor
  obtain ⟨g', hg', -⟩ := hiff.1 ⟨_, hg, isUnanimous_specsGraph⟩
  have hpaths : (discover (specsTree versionFirst "package lib\n") ⟨"/app"⟩ ⟨"/b"⟩
      specsTarget).outcome.1 = .ok (specsGraph "lib/v2" "lib") := by decide +kernel
  obtain rfl := Except.ok.inj (hg'.symm.trans hpaths)
  exact ⟨_, _, hg, hg', hagrees _ _ hg isUnanimous_specsGraph hg', rfl, rfl⟩

end GoPlanner

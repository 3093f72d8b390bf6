import GoPlanner.Proofs.Discovery.Written
import GoPlanner.Proofs.Graph.Stale

/-!
# Circles That Discovery Leaves

Entering a directory that is being entered already is refused, so imports of directories of
sources close no circle. An import path that stands for an archive is not entered: it can
lead to a package that is being entered, and only such imports close circles.

## Main definitions

* `Discovery.Shortcut`: an import through an archive.
* `Discovery.Straight`: any other import.
* `Discovery.Straightened`: what holds of the packages that have been left.

## Main results

* `Discovery.Finds.acc_straight`: there is no endless way along straight imports.
* `Discovery.Finds.onCircle_iff`: where the circles of a graph come from.
* `discoverAll_circle_iff`: the circles that discovery leaves, and what they do to the walk
  for stale archives.
-/

namespace GoPlanner

namespace Discovery

open PackageGraph Relation

variable {c : Discovery} {start : Arrival} {way : Way} {g g' : PackageGraph} {id k : PackageId}
  {s : String} {p : Package} {imports : List String} {precompiled : Bool}

/-- **An import through an archive:** a package writes an import path that stands for an
archive, and the directory of the archive has a package. -/
def Shortcut (c : Discovery) (g : PackageGraph) (importer dependency : PackageId) : Prop :=
  ∃ p s directory, g.package? importer = some p ∧ p.Writes c.tree s ∧
    c.IsArchived s directory ∧ g.byDirectory? directory = some dependency

/-- **A straight import** is none through an archive. -/
def Straight (c : Discovery) (g : PackageGraph) (importer dependency : PackageId) : Prop :=
  g.Imports importer dependency ∧ ¬ c.Shortcut g importer dependency

theorem Shortcut.grows (h : c.Shortcut g id k) (hgrows : g.Grows g') : c.Shortcut g' id k := by
  obtain ⟨p, s, directory, hp, hs, harchived, hk⟩ := h
  obtain ⟨q, hq, hpq⟩ := hgrows.package id p hp
  exact ⟨q, s, directory, hq, hpq.writes.2 hs, harchived, hgrows.byDirectory? hk⟩

/-- A straight import in a graph that has grown was straight before. -/
theorem Straight.of_grows (h : c.Straight g' id k) (hgrows : g.Grows g')
    (himports : g'.importsOf id = g.importsOf id) : c.Straight g id k :=
  ⟨by rw [Imports, ← himports]; exact h.1, fun hshort => h.2 (hshort.grows hgrows)⟩

/-! ### Packages that have been left -/

/-- A package is off a way when its directory is. -/
def Off (way : Way) (g : PackageGraph) (id : PackageId) : Prop :=
  ∃ p, g.package? id = some p ∧ way.passes p.directory = false

theorem Off.grows (h : Off way g id) (hgrows : g.Grows g') : Off way g' id := by
  obtain ⟨p, hp, hoff⟩ := h
  obtain ⟨q, hq, hpq⟩ := hgrows.package id p hp
  exact ⟨q, hq, by rwa [hpq.directory]⟩

/-- A package that was there is off a way if it was. -/
theorem Off.of_grows (h : Off way g' id) (hgrows : g.Grows g') (hid : id < g.size) :
    Off way g id := by
  obtain ⟨q, hq, hoff⟩ := h
  obtain ⟨p, hp⟩ := exists_package hid
  obtain ⟨q', hq', hpq⟩ := hgrows.package id p hp
  obtain rfl : q' = q := Option.some.inj (hq'.symm.trans hq)
  exact ⟨p, hp, by rwa [← hpq.directory]⟩

/-- The straight imports of a package are off the way. -/
def AllOff (c : Discovery) (way : Way) (g : PackageGraph) (id : PackageId) : Prop :=
  ∀ k, c.Straight g id k → Off way g k

theorem AllOff.grows (h : c.AllOff way g id) (hgrows : g.Grows g')
    (himports : g'.importsOf id = g.importsOf id) : c.AllOff way g' id :=
  fun k hk => (h k (hk.of_grows hgrows himports)).grows hgrows

/-- A package without imports has none on the way. -/
theorem allOff_of_importsOf (h : g.importsOf id = []) : c.AllOff way g id := by
  rintro k ⟨himports, -⟩
  simp [Imports, h] at himports

/-- One more import that is off the way, or goes through an archive. -/
theorem AllOff.addImport (h : c.AllOff way g id) (hid : id < g.size)
    (hk : Off way g k ∨ c.Shortcut g id k) : c.AllOff way (g.addImport id k) id := by
  have hgrows : g.Grows (g.addImport id k) := grows_addImport
  rintro j ⟨himports, hstraight⟩
  rw [Imports, importsOf_addImport_self hid] at himports
  have hold : j ∈ g.importsOf id → Off way (g.addImport id k) j := fun hj =>
    (h j ⟨hj, fun hshort => hstraight (hshort.grows hgrows)⟩).grows hgrows
  split at himports
  · exact hold himports
  · rcases List.mem_append.1 himports with hj | hj
    · exact hold hj
    · obtain rfl := List.mem_singleton.1 hj
      exact (hk.resolve_right fun hshort => hstraight (hshort.grows hgrows)).grows hgrows

/-- **Packages that have been left** have no endless way along straight imports, and none
that leads to a package on the way. -/
structure Straightened (c : Discovery) (way : Way) (g : PackageGraph) : Prop where
  /-- Every way along straight imports ends. -/
  acc : ∀ k, Off way g k → Acc (fun b a => c.Straight g a b) k
  /-- Straight imports have been left as well. -/
  allOff : ∀ k, Off way g k → c.AllOff way g k

/-- The packages stay as they are when a graph grows, as long as only the imports of
packages on the way change, and new packages have no imports. -/
theorem Straightened.grows (h : c.Straightened way g) (hclosed : g.IsClosed) (hgrows : g.Grows g')
    (hold : ∀ k < g.size, Off way g k → g'.importsOf k = g.importsOf k)
    (hnew : ∀ k, g.size ≤ k → g'.importsOf k = []) : c.Straightened way g' := by
  have hacc : ∀ k, k < g.size → Off way g k → Acc (fun b a => c.Straight g' a b) k := by
    intro k hk hoff
    have := h.acc k hoff
    induction this with
    | intro k _ ih =>
        refine Acc.intro k fun j hj => ?_
        have hj := hj.of_grows hgrows (hold k hk hoff)
        exact ih j hj (hclosed k j hj.1) (h.allOff k hoff j hj)
  constructor
  · intro k hoff
    by_cases hk : k < g.size
    · exact hacc k hk (hoff.of_grows hgrows hk)
    · refine Acc.intro k fun j hj => ?_
      have himports := hj.1
      simp [Imports, hnew k (Nat.not_lt.1 hk)] at himports
  · intro k hoff
    by_cases hk : k < g.size
    · have hoff := hoff.of_grows hgrows hk
      exact (h.allOff k hoff).grows hgrows (hold k hk hoff)
    · exact allOff_of_importsOf (hnew k (Nat.not_lt.1 hk))

/-! ### Runs -/

theorem importsOf_of_le (h : g.size ≤ id) : g.importsOf id = [] := by
  cases hp : g.package? id with
  | none => simp [importsOf, hp]
  | some p => exact absurd (lt_size_of_package? hp) (Nat.not_lt.2 h)

/-- A package whose directory is on the way is not off it. -/
theorem Off.ne (h : Off way g k) (hp : g.package? id = some p)
    (hon : way.passes p.directory = true) : k ≠ id := by
  rintro rfl
  obtain ⟨q, hq, hoff⟩ := h
  obtain rfl : p = q := Option.some.inj (hp.symm.trans hq)
  simp [hon] at hoff

/-- One step of a run for a package on the way. -/
theorem Straightened.extends (h : c.Straightened way g) (hg : c.Proper start g)
    (hextends : c.Extends start id imports g g') (hp : g.package? id = some p)
    (hon : way.passes p.directory = true) (hnew : ∀ k, g.size ≤ k → g'.importsOf k = []) :
    c.Straightened way g' :=
  h.grows hg.closed hextends.grows (fun k hk hoff => hextends.others k hk (hoff.ne hp hon)) hnew

theorem passes_append {directory other : Path} :
    Way.passes (way ++ [(directory, s)]) other = (way.passes other || directory.same other) := by
  simp [Way.passes]

/-- Only the steps of a directory matter. -/
theorem passes_congr {directory other : Path} (h : directory.same other = true) :
    way.passes directory = way.passes other := by
  simp only [Way.passes, Path.same, Path.same_iff.1 h]

/-- Off a longer way is off the way, and not in the last directory. -/
theorem off_append {directory : Path} :
    Off (way ++ [(directory, s)]) g k ↔
      ∃ p, g.package? k = some p ∧ way.passes p.directory = false ∧
        directory.same p.directory = false := by
  simp [Off, passes_append]

theorem Off.of_append {directory : Path} (h : Off (way ++ [(directory, s)]) g k) :
    Off way g k := by
  obtain ⟨p, hp, hway, -⟩ := off_append.1 h
  exact ⟨p, hp, hway⟩

/-- The package of a directory that the way does not pass is off it. -/
theorem off_of_byDirectory? {directory : Path} (hway : way.passes directory = false)
    (hk : g.byDirectory? directory = some k) : Off way g k := by
  obtain ⟨⟨p, hp, hsame⟩, -⟩ := byDirectory?_eq_some.1 hk
  exact ⟨p, hp, (passes_congr hsame).trans hway⟩

/-- **Entering a directory:** a new package is on the longer way. -/
theorem Straightened.enter {directory : Path} (h : c.Straightened way g) (hg : c.Proper start g)
    (hnew : g.byDirectory? directory = none) (himports : p.imports = []) :
    c.Straightened (way ++ [(directory, s)]) (g.extended p) := by
  have hbelow : ∀ k < g.size, (g.extended p).importsOf k = g.importsOf k := fun k hk => by
    rw [importsOf_extended, if_neg (Nat.ne_of_lt hk)]
  have habove : ∀ k, g.size ≤ k → (g.extended p).importsOf k = [] := by
    intro k hk
    rw [importsOf_extended]
    split
    · exact himports
    · exact importsOf_of_le hk
  have hwhole := h.grows hg.closed grows_extended (fun k hk _ => hbelow k hk) habove
  refine ⟨fun k hoff => hwhole.acc k hoff.of_append, ?_⟩
  intro k hoff j hj
  obtain ⟨q, hq, hway⟩ := hwhole.allOff k hoff.of_append j hj
  have hk : k < g.size := by
    by_contra hk
    have hmem := hj.1
    simp [Imports, habove k (Nat.not_lt.1 hk)] at hmem
  have hjSize : j < g.size := by
    have hmem := hj.1
    rw [Imports, hbelow k hk] at hmem
    exact hg.closed k j hmem
  refine off_append.2 ⟨q, hq, hway, ?_⟩
  rw [package?_extended, if_neg (Nat.ne_of_lt hjSize)] at hq
  have hother := byDirectory?_eq_none.1 hnew j q hq
  rwa [Path.same_comm]

/-- **Leaving a directory:** its package is off the shorter way, and so are its straight
imports. -/
theorem Straightened.leave {directory : Path} (h : c.Straightened (way ++ [(directory, s)]) g)
    (hg : g.IsIndexed) (hid : g.byDirectory? directory = some id)
    (hself : c.AllOff (way ++ [(directory, s)]) g id) : c.Straightened way g := by
  have hcases : ∀ k, Off way g k → k = id ∨ Off (way ++ [(directory, s)]) g k := by
    rintro k ⟨q, hq, hway⟩
    cases hsame : directory.same q.directory with
    | false => exact Or.inr (off_append.2 ⟨q, hq, hway, hsame⟩)
    | true =>
        have hk : g.byDirectory? directory = some k := by
          rw [byDirectory?_congr hsame]
          exact hg k q hq
        exact Or.inl (Option.some.inj (hk.symm.trans hid))
  constructor
  · intro k hoff
    rcases hcases k hoff with rfl | hoff
    · exact Acc.intro k fun j hj => h.acc j (hself j hj)
    · exact h.acc k hoff
  · intro k hoff j hj
    rcases hcases k hoff with rfl | hoff
    · exact (hself j hj).of_append
    · exact (h.allOff k hoff j hj).of_append

/-- **A run keeps the packages straight** that have been left, and the straight imports of the
package that it is for. -/
theorem straightened_of_follows (hrun : c.Follows way id imports g g') (hg : c.Proper start g)
    (hp : g.package? id = some p) (hon : way.passes p.directory = true)
    (hwrites : ∀ s ∈ imports, p.Writes c.tree s) (h : c.Straightened way g)
    (hself : c.AllOff way g id) : c.Straightened way g' ∧ c.AllOff way g' id := by
  induction hrun generalizing p with
  | nil => exact ⟨h, hself⟩
  | passed _ _ ih =>
      exact ih hg hp hon (fun s hs => hwrites s (List.mem_cons_of_mem _ hs)) h hself
  | @again way id k s rest g g' directory hgoal hway hknown _ ih =>
      have hid := lt_size_of_package? hp
      have hstep := extends_again hg hid hgoal hknown
      obtain ⟨q, hq, hpq⟩ := hstep.grows.package id p hp
      have hsize : ((g.addAlias k s).addImport id k).size = g.size :=
        size_modify.trans size_modify
      have hnext := h.extends hg hstep hp hon fun j hj => importsOf_of_le (hsize ▸ hj)
      refine ih hstep.proper hq (by rwa [hpq.directory]) ?_ hnext ?_
      · exact fun s hs => hpq.writes.2 (hwrites s (List.mem_cons_of_mem _ hs))
      · have halias : g.Grows (g.addAlias k s) := grows_addAlias
        refine (hself.grows halias importsOf_addAlias).addImport (halias.lt_size hid) ?_
        refine hway.imp (fun hoff => (off_of_byDirectory? hoff hknown).grows halias) ?_
        exact fun harchived => Shortcut.grows
          ⟨p, s, directory, hp, hwrites s List.mem_cons_self, harchived, hknown⟩ halias
  | @archived way id s rest g g' directory archive hlocated hnew _ ih =>
      have hid := lt_size_of_package? hp
      have hstep := extends_archived hg hid hlocated hnew
      obtain ⟨q, hq, hpq⟩ := hstep.grows.package id p hp
      have hextended : g.Grows (g.extended (archivedPackage directory archive s)) := grows_extended
      have hnone : ∀ j, g.size ≤ j →
          (g.extended (archivedPackage directory archive s)).importsOf j = [] := by
        intro j hj
        rw [importsOf_extended]
        split
        · rfl
        · exact importsOf_of_le hj
      have hnext := h.extends hg hstep hp hon fun j hj => by
        rw [importsOf_addImport (Nat.ne_of_gt (Nat.lt_of_lt_of_le hid hj)), hnone j hj]
      refine ih hstep.proper hq (by rwa [hpq.directory]) ?_ hnext ?_
      · exact fun s hs => hpq.writes.2 (hwrites s (List.mem_cons_of_mem _ hs))
      · have hsame : (g.extended (archivedPackage directory archive s)).importsOf id =
            g.importsOf id := by
          rw [importsOf_extended, if_neg (Nat.ne_of_lt hid)]
        refine (hself.grows hextended hsame).addImport (hextended.lt_size hid) (Or.inr ?_)
        obtain ⟨r, hr, hpr⟩ := hextended.package id p hp
        refine ⟨r, s, directory, hr, hpr.writes.2 (hwrites s List.mem_cons_self),
          ⟨archive, hlocated⟩, ?_⟩
        simpa [dependency?, goal?_of_archived ⟨archive, hlocated⟩] using
          dependency?_extended (c := c) (s := s) (p := archivedPackage directory archive s) hnew
            (goal?_of_archived ⟨archive, hlocated⟩)
  | @entered way id s rest g g₁ g' a r imports harrives hway hnew hread hinner _ ihinner ih =>
      have hid := lt_size_of_package? hp
      obtain ⟨hdirectory, hpath, himports, haliases⟩ := hread.fields
      have hproper := hg.enter harrives hnew hread
      have hextends := extends_of_follows hinner hproper (by simp)
      have hstep := extends_entered hid harrives hnew hread hextends
      obtain ⟨q, hq, hpq⟩ := hstep.grows.package id p hp
      have hr : (g.extended r).package? g.size = some r := by rw [package?_extended, if_pos rfl]
      -- The run inside has straightened the packages off the longer way.
      obtain ⟨hlonger, hself'⟩ := ihinner hproper hr (by simp [passes_append, hdirectory])
        (fun s hs => hread.mem_imports_iff.1 hs) (h.enter hg hnew himports)
        (allOff_of_importsOf (by rw [importsOf_eq hr, himports]))
      have hfound : g₁.byDirectory? a.directory = some g.size := by
        refine hextends.grows.byDirectory? (hproper.indexed.byDirectory? hr ?_)
        rw [hdirectory, Path.same_self]
      have hinside := hlonger.leave hextends.proper.indexed hfound hself'
      have hgrows : g.Grows g₁ := grows_extended.trans hextends.grows
      obtain ⟨q₁, hq₁, hpq₁⟩ := hgrows.package id p hp
      have hon₁ : way.passes q₁.directory = true := by rwa [hpq₁.directory]
      have hnext : c.Straightened way (g₁.addImport id g.size) := by
        refine hinside.grows hextends.proper.closed grows_addImport ?_ ?_
        · exact fun k _ hoff => importsOf_addImport (hoff.ne hq₁ hon₁)
        · exact fun k hk => importsOf_of_le (Nat.le_trans (Nat.le_of_eq size_modify) hk)
      have hsame : g₁.importsOf id = g.importsOf id := by
        have hne : id ≠ g.size := Nat.ne_of_lt hid
        rw [hextends.others id (grows_extended.lt_size hid) hne, importsOf_extended, if_neg hne]
      refine ih hstep.proper hq (by rwa [hpq.directory]) ?_ hnext ?_
      · exact fun s hs => hpq.writes.2 (hwrites s (List.mem_cons_of_mem _ hs))
      · exact (hself.grows hgrows hsame).addImport (hgrows.lt_size hid)
          (Or.inl (off_of_byDirectory? hway hfound))

/-! ### Circles -/

/-- A relation has no circle where every way ends. -/
theorem not_transGen_of_acc {r : PackageId → PackageId → Prop} {id : PackageId}
    (h : Acc (fun b a => r a b) id) : ¬ TransGen r id id := by
  induction h with
  | intro id _ ih =>
      intro hcircle
      obtain ⟨k, hk, hback⟩ := TransGen.head'_iff.1 hcircle
      exact ih k hk (TransGen.tail' hback hk)

/-- **There is no endless way along straight imports** in a graph that is found. -/
theorem Finds.acc_straight (h : c.Finds start precompiled g) (hid : id < g.size) :
    Acc (fun b a => c.Straight g a b) id := by
  have hindexed := h.proper.indexed
  obtain ⟨p, imports, hread, hrun⟩ := h
  obtain ⟨hdirectory, -, himports, -⟩ := hread.fields
  have hproper : c.Proper start (PackageGraph.extended ⟨[], precompiled⟩ p) := proper_root hread
  have hp : (PackageGraph.extended ⟨[], precompiled⟩ p).package? PackageGraph.root = some p := rfl
  have hextends := extends_of_follows hrun hproper Nat.zero_lt_one
  have hfound : g.byDirectory? start.directory = some PackageGraph.root := by
    refine hextends.grows.byDirectory? (hproper.indexed.byDirectory? hp ?_)
    rw [hdirectory, Path.same_self]
  have hnothing : c.Straightened [] ⟨[], precompiled⟩ := by
    constructor <;> rintro k ⟨q, hq, -⟩ <;> simp [package?] at hq
  have hempty : c.Proper start ⟨[], precompiled⟩ := proper_nil
  have hfirst : c.Straightened [(start.directory, start.importPath)]
      (PackageGraph.extended ⟨[], precompiled⟩ p) :=
    hnothing.enter hempty rfl himports
  obtain ⟨hstraight, hself⟩ := straightened_of_follows hrun hproper hp
    (by simp [Way.passes, hdirectory]) (fun s hs => hread.mem_imports_iff.1 hs) hfirst
    (allOff_of_importsOf ((importsOf_eq hp).trans himports))
  have hleft : c.Straightened [] g := Straightened.leave hstraight hindexed hfound hself
  obtain ⟨q, hq⟩ := exists_package hid
  exact hleft.acc id ⟨q, hq, rfl⟩

/-- A way that leads back uses straight imports only, if no shortcut leads back. -/
theorem transGen_straight (hshort : ∀ i k, c.Shortcut g i k → ¬ g.Leads k i) {i k : PackageId}
    (h : TransGen g.Imports i k) (hback : g.Leads k i) : TransGen (c.Straight g) i k := by
  induction h with
  | single himports => exact TransGen.single ⟨himports, fun hs => hshort _ _ hs hback⟩
  | tail hfirst himports ih =>
      refine TransGen.tail (ih (ReflTransGen.head himports hback)) ⟨himports, fun hs => ?_⟩
      exact hshort _ _ hs (hback.trans hfirst.to_reflTransGen)

/-- **Where circles come from:** a graph has one exactly if the package of an import through
an archive leads back to its importer. -/
theorem Finds.onCircle_iff (h : c.Finds start precompiled g) :
    (∃ id, g.OnCircle id) ↔ ∃ i k, c.Shortcut g i k ∧ g.Leads k i := by
  constructor
  · rintro ⟨id, hcircle⟩
    by_contra hnone
    have hshort : ∀ i k, c.Shortcut g i k → ¬ g.Leads k i := fun i k hs hback =>
      hnone ⟨i, k, hs, hback⟩
    have hid : id < g.size := by
      obtain ⟨k, hk, -⟩ := TransGen.head'_iff.1 hcircle
      exact hk.importer_lt
    exact not_transGen_of_acc (h.acc_straight hid)
      (transGen_straight hshort hcircle ReflTransGen.refl)
  · rintro ⟨i, k, ⟨p, s, directory, hp, hs, harchived, hk⟩, hback⟩
    obtain ⟨k', q, himports, hk', -, -⟩ := h.imports_of_writes hp hs (goal?_of_archived harchived)
    obtain rfl : k = k' := Option.some.inj (hk.symm.trans hk')
    exact ⟨i, onCircle_of_imports himports hback⟩

end Discovery

/-! ### The circles of an input -/

open Discovery PackageGraph Relation Telling

/-- **The circles that discovery leaves.** A graph that is discovered has a circle exactly if
a package writes an import path that stands for an archive of the standard library, and the
directory of that archive has a package that leads to the first one. The walk for stale
archives ends exactly if there is no circle. -/
theorem discoverAll_circle_iff {t : FileTree} {input buildDir : Path} {target : Target}
    {g : PackageGraph} (h : (discoverAll t input buildDir target).outcome.1 = .ok g) :
    ∃ c, IsFor c t input buildDir target ∧
      ((∃ id, g.OnCircle id) ↔ ∃ i k, c.Shortcut g i k ∧ g.Leads k i) ∧
      (g.SiftEnds ↔ ¬ ∃ id, g.OnCircle id) := by
  obtain ⟨c, place, hfor, hfinds⟩ := finds_of_discoverAll (ends_of_outcome h)
  refine ⟨c, hfor, hfinds.onCircle_iff, ?_⟩
  rw [siftEnds_iff hfinds.proper.closed, not_exists]
  constructor
  · intro hnone id hcircle
    obtain ⟨k, hk, -⟩ := TransGen.head'_iff.1 hcircle
    exact hnone id (hfinds.leads hk.importer_lt) hcircle
  · exact fun hnone id _ => hnone id

/-- A file tree in which the root package imports the archive of its own directory. -/
def selfImportTree : FileTree where
  entries :=
    [(["g"], ⟨.directory, 0⟩), (["g", "src"], ⟨.directory, 0⟩),
      (["g", "src", "foo"], ⟨.directory, 0⟩),
      (["g", "src", "foo", "main.go"], ⟨.file (.text "package main\nimport \"foo\"\n") false, 0⟩),
      (["g", "pkg"], ⟨.directory, 0⟩), (["g", "pkg", "linux_amd64"], ⟨.directory, 0⟩),
      (["g", "pkg", "linux_amd64", "foo.a"], ⟨.file (.text "") false, 0⟩)]

/-- The graph of this tree. -/
def selfImportGraph : PackageGraph where
  packages :=
    [{ directory := ⟨"/g/src/foo"⟩, importPath := "main", name := "main",
        goFiles := ["main.go"], imports := [0], aliases := ["foo"] }]
  precompiled := true

theorem discoverAll_selfImportTree :
    (discoverAll selfImportTree ⟨"/g/src/foo"⟩ ⟨"/b"⟩ { goroot := ⟨"/g"⟩ }).outcome.1 =
      .ok selfImportGraph :=
  ok_of_toOption (by decide +kernel)

/-- The circle of this tree goes through the archive. -/
theorem circle_iff_selfImportTree :
    ∃ c, IsFor c selfImportTree ⟨"/g/src/foo"⟩ ⟨"/b"⟩ { goroot := ⟨"/g"⟩ } ∧
      ((∃ id, selfImportGraph.OnCircle id) ↔
        ∃ i k, c.Shortcut selfImportGraph i k ∧ selfImportGraph.Leads k i) := by
  obtain ⟨c, hfor, hcircle, -⟩ := discoverAll_circle_iff discoverAll_selfImportTree
  exact ⟨c, hfor, hcircle⟩

/-- **A circle gets past discovery,** and the walk for stale archives does not end on it. -/
theorem exists_circle_past_discovery :
    ∃ t input buildDir target g, (discoverAll t input buildDir target).outcome.1 = .ok g ∧
      (∃ id, g.OnCircle id) ∧ ¬ g.SiftEnds := by
  have himports : selfImportGraph.Imports root root := by decide
  have hcircle : selfImportGraph.OnCircle root := TransGen.single himports
  have hclosed : selfImportGraph.IsClosed := by
    intro importer dependency h
    obtain ⟨p, hp, hmem⟩ := h.exists_importer
    obtain rfl : importer = 0 := Nat.lt_one_iff.1 (lt_size_of_package? hp)
    obtain rfl : selfImportGraph.packages.head (by decide) = p := Option.some.inj hp
    obtain rfl : dependency = 0 := by simpa [selfImportGraph] using hmem
    decide
  refine ⟨selfImportTree, ⟨"/g/src/foo"⟩, ⟨"/b"⟩, { goroot := ⟨"/g"⟩ }, selfImportGraph,
    discoverAll_selfImportTree, ⟨root, hcircle⟩, ?_⟩
  rw [siftEnds_iff hclosed]
  exact fun hnone => hnone root ReflTransGen.refl hcircle

end GoPlanner

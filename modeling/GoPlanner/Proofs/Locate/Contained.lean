import GoPlanner.Proofs.Locate.Order
import GoPlanner.Proofs.Path.Position

/-!
# Imports That Leave Their Directory

Every place for an import path is put together from a directory and from the segments that are
followed from there. Two dots are a segment like all others. So a package can be found outside of
the directory in which it is looked for, and even outside of the module that it seems to belong to.
It lies in the directory exactly if the segments lead back to it.

## Main definitions

* `Location.paths`: the directory of a location, and its archive.
* `Locator.StartsIn`: the directories from which import paths are followed, by rank.

## Main results

* `Locator.Offers.paths_eq`: where the paths of a place start.
* `Locator.liesIn_iff_of_found`: when a location lies in the directory where it is looked for.
* `Locator.exists_outside_module`: a package of the module outside of the module.
-/

namespace GoPlanner

/-- The paths of a location: its directory, and the archive if it has one. -/
def Location.paths : Location → List Path
  | .source directory _ => [directory]
  | .archived directory archive => [directory, archive]
  | .builtin => []

namespace Locator

variable {l : Locator} {t : FileTree} {q : String} {location : Location} {rank : Nat} {p : Path}

/-- **The directories from which an import path is followed,** by rank, each with what is followed
from there. A directory that replaces an import path has no such directory. -/
inductive StartsIn (l : Locator) (q : String) : Nat → Path → String → Prop
  /-- The directory of the module. -/
  | module {m : Module} {s rest : String} (hlooks : l.LooksUp q s) (hmodule : l.module? = some m)
      (hbelow : IsBelow s m.modulePath rest) : StartsIn l q 1 m.root rest
  /-- The directory of vendored packages. -/
  | vendored {s : String} (hlooks : l.LooksUp q s) : StartsIn l q 2 (l.vendorBase.child "vendor") s
  /-- An entry of the search path. -/
  | searched {s : String} {i : Nat} {base : Path} (hlooks : l.LooksUp q s)
      (hbase : l.target.searchPath[i]? = some base) : StartsIn l q (3 + i) base s
  /-- The archives of the standard library. -/
  | archives {s : String} (hlooks : l.LooksUp q s) :
      StartsIn l q (3 + l.target.searchPath.length) l.target.archiveDir (s ++ ".a")
  /-- The sources of the archives. -/
  | archivedSources {s : String} (hlooks : l.LooksUp q s) :
      StartsIn l q (3 + l.target.searchPath.length) l.target.sourceDir s
  /-- The packages that are vendored in the Go distribution. -/
  | vendoredInternally {s : String} (hlooks : l.LooksUp q s) :
      StartsIn l q (4 + l.target.searchPath.length) (l.target.sourceDir.child "vendor") s
  /-- The sources of the Go distribution. -/
  | internal {s : String} (hlooks : l.LooksUp q s) :
      StartsIn l q (5 + l.target.searchPath.length) l.target.sourceDir s

/-- **Where the paths of a place start,** unless the place replaces the import path. -/
theorem Offers.paths_eq (h : l.Offers q rank location) (hrank : rank ≠ 0)
    (hp : p ∈ location.paths) :
    ∃ base rest, l.StartsIn q rank base rest ∧ p = base.descend rest := by
  cases h with
  | replaced => exact absurd rfl hrank
  | inModule hlooks hmodule hbelow =>
      obtain rfl := List.mem_singleton.1 hp
      exact ⟨_, _, .module hlooks hmodule hbelow, rfl⟩
  | vendored hlooks =>
      obtain rfl := List.mem_singleton.1 hp
      exact ⟨_, _, .vendored hlooks, rfl⟩
  | searched hlooks hbase =>
      obtain rfl := List.mem_singleton.1 hp
      exact ⟨_, _, .searched hlooks hbase, rfl⟩
  | archived hlooks =>
      rcases List.mem_pair.1 hp with rfl | rfl
      · exact ⟨_, _, .archivedSources hlooks, rfl⟩
      · exact ⟨_, _, .archives hlooks, rfl⟩
  | vendoredInternally hlooks =>
      obtain rfl := List.mem_singleton.1 hp
      exact ⟨_, _, .vendoredInternally hlooks, rfl⟩
  | internal hlooks =>
      obtain rfl := List.mem_singleton.1 hp
      exact ⟨_, _, .internal hlooks, rfl⟩

/-- **A location lies in the directory where it is looked for** exactly if the import path leads
back to this directory. The directory is that of the first place that is there, and only a directory
that replaces the import path has none. -/
theorem liesIn_iff_of_found (h : (l.candidates q).find? (Location.isThere t) = some location) :
    ∃ rank, l.Offers q rank location ∧ location.isThere t = true ∧
      (∀ lower < rank, ∀ other, l.Offers q lower other → other.isThere t = false) ∧
      (rank ≠ 0 → ∀ p ∈ location.paths, ∃ base rest, l.StartsIn q rank base rest ∧
        p = base.descend rest ∧ (p.LiesIn base ↔ base.LeadsBack rest)) := by
  rw [candidates_eq, find?_filterMap_id_iff] at h
  simp only [← offers_iff] at h
  obtain ⟨rank, hoffers, hthere, hfirst⟩ := h
  refine ⟨rank, hoffers, hthere, hfirst, fun hrank p hp => ?_⟩
  obtain ⟨base, rest, hstarts, rfl⟩ := hoffers.paths_eq hrank hp
  exact ⟨base, rest, hstarts, rfl, Path.liesIn_descend_iff base rest⟩

/-! ### A directory beside a module -/

def besideModule : Module :=
  ⟨⟨"/w/app"⟩, "example.com/app", []⟩

/-- A module with a package in it, and a directory beside the module. -/
def besideTree : FileTree where
  entries := [(["w"], ⟨.directory, 0⟩), (["w", "app"], ⟨.directory, 0⟩),
    (["w", "app", "util"], ⟨.directory, 0⟩), (["w", "lib"], ⟨.directory, 0⟩)]

def besideLocator : Locator :=
  ⟨{ goroot := ⟨"/g"⟩ }, ⟨"/w/app"⟩, some besideModule⟩

theorem liesIn_besideTree :
    (besideLocator.candidates "example.com/app/util").find? (Location.isThere besideTree) =
      some (.source ⟨"/w/app/util"⟩ false) ∧
    ∃ rank, besideLocator.Offers "example.com/app/util" rank (.source ⟨"/w/app/util"⟩ false) ∧
      Location.isThere besideTree (.source ⟨"/w/app/util"⟩ false) = true ∧
      (∀ lower < rank, ∀ other, besideLocator.Offers "example.com/app/util" lower other →
        other.isThere besideTree = false) ∧
      (rank ≠ 0 → ∀ p ∈ Location.paths (.source ⟨"/w/app/util"⟩ false), ∃ base rest,
        besideLocator.StartsIn "example.com/app/util" rank base rest ∧
          p = base.descend rest ∧ (p.LiesIn base ↔ base.LeadsBack rest)) :=
  ⟨by decide +kernel, liesIn_iff_of_found (by decide +kernel)⟩

/-- **A package of the module outside of the module.** -/
theorem exists_outside_module : ∃ (l : Locator) (t : FileTree) (m : Module) (q : String)
    (directory : Path), l.module? = some m ∧ m.replacements = [] ∧
      m.localDirectory q = some directory ∧
      l.locateExactly t q = some (.source directory false) ∧
      l.locate t q = some (.source directory false) ∧ ¬ directory.LiesIn m.root := by
  refine ⟨besideLocator, besideTree, besideModule, "example.com/app/../lib", ⟨"/w/app/../lib"⟩, rfl,
    rfl, by decide +kernel, by decide +kernel, ?_, ?_⟩
  · rw [locate_eq_or, show besideLocator.locateExactly besideTree "example.com/app/../lib" =
      some (.source ⟨"/w/app/../lib"⟩ false) by decide +kernel]
    rfl
  · rintro ⟨names, hnames⟩
    have hbeside : Path.position ⟨"/w/app/../lib"⟩ = [.root, .name "w", .name "lib"] := by
      decide +kernel
    have hroot : Path.position ⟨"/w/app"⟩ = [.root, .name "w", .name "app"] := by decide +kernel
    rw [hbeside, besideModule, hroot] at hnames
    simp at hnames

end Locator

end GoPlanner

import GoPlanner.Proofs.Locate
import GoPlanner.Proofs.ModuleFile.Replaced
import Mathlib.Data.List.TakeWhile

/-!
# The Order in Which Places Are Tried

An import path is tried as it is written, then without the version at its end, then without the
next one, and so on. For each of these paths the places where it may lie have ranks, and the place
of the lowest rank that is there decides. What replaces the path in the module takes part twice: a
directory is a place of its own, and another import path is looked up in all places behind it.

## Main definitions

* `DropsVersion`, `VersionChain`: the import paths that are tried.
* `Locator.LooksUp`: the import path that is looked up in the stead of another one.
* `Locator.Offers`: the places for an import path, by rank.
* `Locator.Finds`: what is found for an import path without leaving out a version.

## Main results

* `VersionChain.unique`, `exists_versionChain`: the import paths that are tried.
* `Locator.finds_iff`: the first place that is there.
* `Locator.locate_versionChain`: the first import path for which something is found decides.
-/

namespace GoPlanner

/-! ### Versions -/

/-- **A version is left out** from the end of an import path: a slash, the letter `v` and digits,
with or without one more slash. -/
def DropsVersion (importPath shorter : String) : Prop :=
  ∃ digits : List Char, digits ≠ [] ∧ (∀ c ∈ digits, c.isDigit = true) ∧
    (importPath = shorter ++ "/v" ++ String.ofList digits ∨
      importPath = shorter ++ "/v" ++ String.ofList digits ++ "/")

/-- **The import paths that are tried:** one after the other without the version at the end, as long
as there is one. -/
inductive VersionChain : String → List String → Prop
  | last {importPath : String} (h : ∀ shorter, ¬ DropsVersion importPath shorter) :
      VersionChain importPath [importPath]
  | drop {importPath shorter : String} {chain : List String} (h : DropsVersion importPath shorter)
      (rest : VersionChain shorter chain) : VersionChain importPath (importPath :: chain)

variable {importPath shorter : String} {chain chain' : List String}

theorem behindSlash_cons_of_ne {c : Char} {cs : List Char} (h : c ≠ '/') :
    behindSlash (c :: cs) = c :: cs := by
  unfold behindSlash
  split
  · rename_i heq
    exact absurd (List.cons.inj heq).1 h
  · rfl

theorem eq_or_eq_cons_behindSlash (cs : List Char) :
    cs = behindSlash cs ∨ cs = '/' :: behindSlash cs := by
  unfold behindSlash
  split
  · exact Or.inr rfl
  · exact Or.inl rfl

/-- A version is a slash, the letter `v` and digits, read backward. -/
theorem withoutVersion?_of_backward {digits before : List Char} (hne : digits ≠ [])
    (hdigits : ∀ c ∈ digits, c.isDigit = true)
    (hbackward : behindSlash importPath.toList.reverse = digits ++ 'v' :: '/' :: before) :
    withoutVersion? importPath = some (String.ofList before.reverse) := by
  obtain ⟨c, digits, rfl⟩ := List.exists_cons_of_ne_nil hne
  have htake : (c :: digits ++ 'v' :: '/' :: before).takeWhile Char.isDigit = c :: digits := by
    rw [List.takeWhile_append_of_pos hdigits, List.takeWhile_cons_of_neg (by decide),
      List.append_nil]
  have hdrop : (c :: digits ++ 'v' :: '/' :: before).dropWhile Char.isDigit =
      'v' :: '/' :: before := by
    rw [List.dropWhile_append_of_pos hdigits, List.dropWhile_cons_of_neg (by decide)]
  rw [withoutVersion?, hbackward, htake, hdrop]
  rfl

theorem withoutVersion?_eq_some_iff :
    withoutVersion? importPath = some shorter ↔ DropsVersion importPath shorter := by
  constructor
  · intro h
    rw [withoutVersion?] at h
    split at h
    · rename_i c digits before htake hdrop
      have hsplit := List.takeWhile_append_dropWhile (p := Char.isDigit)
        (l := behindSlash importPath.toList.reverse)
      rw [htake, hdrop] at hsplit
      have hdigits : ∀ d ∈ c :: digits, d.isDigit = true :=
        fun d hd => List.mem_takeWhile_imp (htake ▸ hd)
      obtain rfl := Option.some.inj h
      refine ⟨(c :: digits).reverse, by simp, fun d hd => hdigits d (List.mem_reverse.1 hd), ?_⟩
      rcases eq_or_eq_cons_behindSlash importPath.toList.reverse with heq | heq
      · refine Or.inl (String.toList_injective (List.reverse_injective ?_))
        rw [heq, ← hsplit]
        simp
      · refine Or.inr (String.toList_injective (List.reverse_injective ?_))
        rw [heq, ← hsplit]
        simp
    · cases h
  · rintro ⟨digits, hne, hdigits, hpath⟩
    have hreverse : ∀ c ∈ digits.reverse, c.isDigit = true :=
      fun c hc => hdigits c (List.mem_reverse.1 hc)
    have hshorter : withoutVersion? importPath =
        some (String.ofList shorter.toList.reverse.reverse) := by
      refine withoutVersion?_of_backward (by simpa using hne) hreverse ?_
      rcases hpath with rfl | rfl
      · -- The last character is a digit, so there is no slash to be left out.
        obtain ⟨c, back, hback⟩ := List.exists_cons_of_ne_nil (List.reverse_ne_nil_iff.2 hne)
        have hslash : c ≠ '/' := by
          rintro rfl
          have hdigit := hreverse '/' (by simp [hback])
          exact absurd hdigit (by decide)
        simp [hback, behindSlash_cons_of_ne hslash]
      · simp [behindSlash]
    rw [hshorter]
    simp

/-- The import paths that are tried are determined. -/
theorem VersionChain.unique (h : VersionChain importPath chain)
    (h' : VersionChain importPath chain') : chain = chain' := by
  induction h generalizing chain' with
  | last hlast =>
      cases h' with
      | last _ => rfl
      | drop hdrop _ => exact absurd hdrop (hlast _)
  | @drop importPath shorter chain hdrop _ ih =>
      cases h' with
      | last hlast => exact absurd hdrop (hlast _)
      | @drop _ shorter' chain' hdrop' rest =>
          have hsame := (withoutVersion?_eq_some_iff.2 hdrop).symm.trans
            (withoutVersion?_eq_some_iff.2 hdrop')
          obtain rfl := Option.some.inj hsame
          rw [ih rest]

/-- **There are only so many versions** to be left out. -/
theorem exists_versionChain (importPath : String) : ∃ chain, VersionChain importPath chain := by
  cases hshorter : withoutVersion? importPath with
  | none =>
      refine ⟨_, .last fun shorter hdrop => ?_⟩
      cases hshorter.symm.trans (withoutVersion?_eq_some_iff.2 hdrop)
  | some shorter =>
      obtain ⟨chain, hchain⟩ := exists_versionChain shorter
      exact ⟨_, .drop (withoutVersion?_eq_some_iff.1 hshorter) hchain⟩
termination_by importPath.toList.length
decreasing_by exact withoutVersion?_length hshorter

namespace Locator

variable {l : Locator} {t : FileTree} {q s : String} {location : Location} {rank : Nat}

/-! ### Places by rank -/

/-- **The import path that is looked up** for another one: the one that the module makes of it, if a
rule with another module is applied to it, and else the same. -/
inductive LooksUp (l : Locator) (q : String) : String → Prop
  | rewritten {m : Module} {rule : Replacement} {rest path version : String}
      (hmodule : l.module? = some m) (happlies : m.Applies q rule rest)
      (htarget : rule.target = .module path version) :
      LooksUp l q (if rest = "" then path else path ++ "/" ++ rest)
  | itself (h : ∀ m rule rest path version, l.module? = some m → m.Applies q rule rest →
      rule.target ≠ .module path version) : LooksUp l q q

/-- **The places for an import path,** by rank. -/
inductive Offers (l : Locator) (q : String) : Nat → Location → Prop
  /-- The directory that replaces it. -/
  | replaced {m : Module} {rule : Replacement} {rest : String} {path : Path}
      (hmodule : l.module? = some m) (happlies : m.Applies q rule rest)
      (htarget : rule.target = .directory path) :
      Offers l q 0 (.source ((m.root.join path).descend rest) false)
  /-- The directory of the module itself. -/
  | inModule {m : Module} {s rest : String} (hlooks : l.LooksUp q s) (hmodule : l.module? = some m)
      (hbelow : IsBelow s m.modulePath rest) : Offers l q 1 (.source (m.root.descend rest) false)
  /-- The directory of vendored packages. -/
  | vendored {s : String} (hlooks : l.LooksUp q s) :
      Offers l q 2 (.source ((l.vendorBase.child "vendor").descend s) false)
  /-- The search path, in order. -/
  | searched {s : String} {i : Nat} {base : Path} (hlooks : l.LooksUp q s)
      (hbase : l.target.searchPath[i]? = some base) :
      Offers l q (3 + i) (.source (base.descend s) false)
  /-- The archives of the standard library. -/
  | archived {s : String} (hlooks : l.LooksUp q s) :
      Offers l q (3 + l.target.searchPath.length)
        (.archived (l.target.sourceDir.descend s) (l.target.archiveDir.descend (s ++ ".a")))
  /-- The packages that are vendored in the Go distribution. -/
  | vendoredInternally {s : String} (hlooks : l.LooksUp q s) :
      Offers l q (4 + l.target.searchPath.length)
        (.source ((l.target.sourceDir.child "vendor").descend s) true)
  /-- The sources of the Go distribution. -/
  | internal {s : String} (hlooks : l.LooksUp q s) :
      Offers l q (5 + l.target.searchPath.length) (.source (l.target.sourceDir.descend s) true)

/-- **What is found for an import path as it is:** only the compiler knows it, or of all places that
are there the one of the lowest rank. -/
inductive Finds (l : Locator) (t : FileTree) (q : String) : Location → Prop
  | builtin (hbuiltin : q = "unsafe" ∨ q = "C") : Finds l t q .builtin
  | offered {rank : Nat} {location : Location} (hbuiltin : q ≠ "unsafe" ∧ q ≠ "C")
      (hoffers : l.Offers q rank location) (hthere : location.isThere t = true)
      (hfirst : ∀ lower < rank, ∀ other, l.Offers q lower other → other.isThere t = false) :
      Finds l t q location

theorem substitute?_eq_importPath_iff : l.substitute? q = some (.importPath s) ↔
    ∃ m rule rest path version, l.module? = some m ∧ m.Applies q rule rest ∧
      rule.target = .module path version ∧ s = if rest = "" then path else path ++ "/" ++ rest := by
  rw [substitute?, Option.bind_eq_some_iff]
  constructor
  · rintro ⟨m, hmodule, hs⟩
    obtain ⟨rule, rest, happlies, heffect⟩ := Module.substitute?_eq_some_iff.1 hs
    rw [Module.applied] at heffect
    split at heffect
    · cases heffect
    · rename_i path version htarget
      exact ⟨m, rule, rest, path, version, hmodule, happlies, htarget,
        (Substitute.importPath.inj heffect).symm⟩
  · rintro ⟨m, rule, rest, path, version, hmodule, happlies, htarget, rfl⟩
    refine ⟨m, hmodule, Module.substitute?_eq_some_iff.2 ⟨rule, rest, happlies, ?_⟩⟩
    rw [Module.applied, htarget]

theorem substitute?_eq_directory_iff {directory : Path} :
    l.substitute? q = some (.directory directory) ↔
      ∃ m rule rest path, l.module? = some m ∧ m.Applies q rule rest ∧
        rule.target = .directory path ∧ directory = (m.root.join path).descend rest := by
  rw [substitute?, Option.bind_eq_some_iff]
  constructor
  · rintro ⟨m, hmodule, hs⟩
    obtain ⟨rule, rest, happlies, heffect⟩ := Module.substitute?_eq_some_iff.1 hs
    rw [Module.applied] at heffect
    split at heffect
    · rename_i path htarget
      exact ⟨m, rule, rest, path, hmodule, happlies, htarget,
        (Substitute.directory.inj heffect).symm⟩
    · cases heffect
  · rintro ⟨m, rule, rest, path, hmodule, happlies, htarget, rfl⟩
    refine ⟨m, hmodule, Module.substitute?_eq_some_iff.2 ⟨rule, rest, happlies, ?_⟩⟩
    rw [Module.applied, htarget]

theorem looksUp_iff : l.LooksUp q s ↔ s = l.lookedUp q := by
  rw [lookedUp]
  split
  · rename_i path hsubstitute
    obtain ⟨m, rule, rest, path', version, hmodule, happlies, htarget, hpath⟩ :=
      substitute?_eq_importPath_iff.1 hsubstitute
    constructor
    · rintro (⟨hmodule', happlies', htarget'⟩ | h)
      · have hsame := substitute?_eq_importPath_iff.2
          ⟨_, _, _, _, _, hmodule', happlies', htarget', rfl⟩
        exact Substitute.importPath.inj (Option.some.inj (hsame.symm.trans hsubstitute))
      · exact absurd htarget (h m rule rest path' version hmodule happlies)
    · rintro rfl
      rw [hpath]
      exact .rewritten hmodule happlies htarget
  · rename_i hnone
    have hno : ∀ m rule rest path version, l.module? = some m → m.Applies q rule rest →
        rule.target ≠ .module path version := by
      intro m rule rest path version hmodule happlies htarget
      exact hnone _ (substitute?_eq_importPath_iff.2
        ⟨m, rule, rest, path, version, hmodule, happlies, htarget, rfl⟩)
    constructor
    · rintro (⟨hmodule, happlies, htarget⟩ | _)
      · exact absurd htarget (hno _ _ _ _ _ hmodule happlies)
      · rfl
    · rintro rfl
      exact .itself hno

/-- The places of the Go distribution. -/
def internalSlots (l : Locator) (q : String) : List (Option Location) :=
  [some (.archived (l.target.sourceDir.descend (l.lookedUp q))
      (l.target.archiveDir.descend (l.lookedUp q ++ ".a"))),
    some (.source ((l.target.sourceDir.child "vendor").descend (l.lookedUp q)) true),
    some (.source (l.target.sourceDir.descend (l.lookedUp q)) true)]

/-- The places for an import path, each at its rank, with a gap where a rank has none. -/
def slots (l : Locator) (q : String) : List (Option Location) :=
  (l.replacing q).head? ::
    (l.module?.bind (fun m => m.localDirectory (l.lookedUp q))).map (Location.source · false) ::
    some (.source ((l.vendorBase.child "vendor").descend (l.lookedUp q)) false) ::
    (l.target.searchPath.map (fun base => some (.source (base.descend (l.lookedUp q)) false)) ++
      l.internalSlots q)

theorem slots_searched {i : Nat} (hi : i < l.target.searchPath.length) :
    (l.slots q)[3 + i]? = (l.target.searchPath[i]?).map
      (fun base => some (.source (base.descend (l.lookedUp q)) false)) := by
  rw [Nat.add_comm]
  refine (List.getElem?_append_left ?_).trans List.getElem?_map
  simpa using hi

theorem slots_internal {i : Nat} :
    (l.slots q)[3 + (l.target.searchPath.length + i)]? = (l.internalSlots q)[i]? := by
  rw [Nat.add_comm]
  refine (List.getElem?_append_right ?_).trans ?_
  · simp
  · simp

/-- The candidates are the places without the gaps. -/
theorem candidates_eq : l.candidates q = (l.slots q).filterMap id := by
  have hreplacing : (l.replacing q).head?.toList = l.replacing q := by
    rw [replacing]
    split <;> rfl
  have hfirst (slot : Option Location) (slots : List (Option Location)) :
      (slot :: slots).filterMap id = slot.toList ++ slots.filterMap id := by
    cases slot <;> rfl
  rw [slots, hfirst, hfirst, hreplacing, candidates, ordinary]
  simp [internalSlots, Function.comp_def]

theorem head?_replacing_iff : (l.replacing q).head? = some location ↔
    ∃ m rule rest path, l.module? = some m ∧ m.Applies q rule rest ∧
      rule.target = .directory path ∧ location = .source ((m.root.join path).descend rest) false := by
  rw [replacing]
  split
  · rename_i directory hdirectory
    rw [List.head?_cons, Option.some.injEq]
    constructor
    · rintro rfl
      obtain ⟨m, rule, rest, path, hmodule, happlies, htarget, rfl⟩ :=
        substitute?_eq_directory_iff.1 hdirectory
      exact ⟨m, rule, rest, path, hmodule, happlies, htarget, rfl⟩
    · rintro ⟨m, rule, rest, path, hmodule, happlies, htarget, rfl⟩
      have hsame := substitute?_eq_directory_iff.2
        ⟨m, rule, rest, path, hmodule, happlies, htarget, rfl⟩
      rw [Substitute.directory.inj (Option.some.inj (hdirectory.symm.trans hsame))]
  · rename_i hnone
    constructor
    · intro h
      cases h
    · rintro ⟨m, rule, rest, path, hmodule, happlies, htarget, rfl⟩
      exact absurd (substitute?_eq_directory_iff.2
        ⟨m, rule, rest, path, hmodule, happlies, htarget, rfl⟩) (hnone _)

theorem inModule_iff : (l.module?.bind (fun m => m.localDirectory (l.lookedUp q))).map
      (Location.source · false) = some location ↔
    ∃ m rest, l.module? = some m ∧ IsBelow (l.lookedUp q) m.modulePath rest ∧
      location = .source (m.root.descend rest) false := by
  simp only [Module.localDirectory, Option.map_eq_some_iff, Option.bind_eq_some_iff,
    belowPath?_eq_some_iff]
  constructor
  · rintro ⟨_, ⟨m, hmodule, rest, hbelow, rfl⟩, rfl⟩
    exact ⟨m, rest, hmodule, hbelow, rfl⟩
  · rintro ⟨m, rest, hmodule, hbelow, rfl⟩
    exact ⟨_, ⟨m, hmodule, rest, hbelow, rfl⟩, rfl⟩

/-- **The places of an import path** stand at their ranks. -/
theorem offers_iff : l.Offers q rank location ↔ (l.slots q)[rank]? = some (some location) := by
  have hself : l.LooksUp q (l.lookedUp q) := looksUp_iff.2 rfl
  constructor
  · intro h
    cases h with
    | replaced hmodule happlies htarget =>
        exact congrArg some (head?_replacing_iff.2 ⟨_, _, _, _, hmodule, happlies, htarget, rfl⟩)
    | inModule hlooks hmodule hbelow =>
        obtain rfl := looksUp_iff.1 hlooks
        exact congrArg some (inModule_iff.2 ⟨_, _, hmodule, hbelow, rfl⟩)
    | vendored hlooks =>
        obtain rfl := looksUp_iff.1 hlooks
        rfl
    | searched hlooks hbase =>
        obtain rfl := looksUp_iff.1 hlooks
        obtain ⟨hi, -⟩ := List.getElem?_eq_some_iff.1 hbase
        rw [slots_searched hi, hbase]
        rfl
    | archived hlooks =>
        obtain rfl := looksUp_iff.1 hlooks
        exact slots_internal (i := 0)
    | vendoredInternally hlooks =>
        obtain rfl := looksUp_iff.1 hlooks
        rw [show 4 + l.target.searchPath.length = 3 + (l.target.searchPath.length + 1) by omega]
        exact slots_internal (i := 1)
    | internal hlooks =>
        obtain rfl := looksUp_iff.1 hlooks
        rw [show 5 + l.target.searchPath.length = 3 + (l.target.searchPath.length + 2) by omega]
        exact slots_internal (i := 2)
  · intro h
    rcases rank with _ | _ | _ | k
    · obtain ⟨m, rule, rest, path, hmodule, happlies, htarget, rfl⟩ :=
        head?_replacing_iff.1 (Option.some.inj h)
      exact .replaced hmodule happlies htarget
    · obtain ⟨m, rest, hmodule, hbelow, rfl⟩ := inModule_iff.1 (Option.some.inj h)
      exact .inModule hself hmodule hbelow
    · obtain rfl := Option.some.inj (Option.some.inj h)
      exact .vendored hself
    · rw [show k + 1 + 1 + 1 = 3 + k by omega] at h ⊢
      by_cases hk : k < l.target.searchPath.length
      · rw [slots_searched hk] at h
        obtain ⟨base, hbase, hlocation⟩ := Option.map_eq_some_iff.1 h
        obtain rfl := Option.some.inj hlocation
        exact .searched hself hbase
      · obtain ⟨i, rfl⟩ := Nat.exists_eq_add_of_le (Nat.le_of_not_lt hk)
        rw [slots_internal] at h
        rcases i with _ | _ | _ | i
        · obtain rfl := Option.some.inj (Option.some.inj h)
          exact .archived hself
        · obtain rfl := Option.some.inj (Option.some.inj h)
          rw [show 3 + (l.target.searchPath.length + (0 + 1)) = 4 + l.target.searchPath.length by omega]
          exact .vendoredInternally hself
        · obtain rfl := Option.some.inj (Option.some.inj h)
          rw [show 3 + (l.target.searchPath.length + (0 + 1 + 1)) = 5 + l.target.searchPath.length by
            omega]
          exact .internal hself
        · cases h

/-- The first value of a list with gaps that passes a test. -/
theorem find?_filterMap_id_iff {α : Type} {test : α → Bool} {slots : List (Option α)} {x : α} :
    (slots.filterMap id).find? test = some x ↔
      ∃ i : Nat, slots[i]? = some (some x) ∧ test x = true ∧
        ∀ j < i, ∀ y, slots[j]? = some (some y) → test y = false := by
  induction slots with
  | nil => simp
  | cons slot slots ih =>
      by_cases hslot : ∃ y, slot = some y ∧ test y = true
      · obtain ⟨y, rfl, hy⟩ := hslot
        change (y :: slots.filterMap id).find? test = some x ↔ _
        rw [List.find?_cons_of_pos hy, Option.some.injEq]
        constructor
        · rintro rfl
          exact ⟨0, rfl, hy, by simp⟩
        · rintro ⟨i, hi, -, hfirst⟩
          cases i with
          | zero => exact Option.some.inj (Option.some.inj hi)
          | succ i =>
              have hfalse := hfirst 0 (Nat.succ_pos i) y rfl
              rw [hy] at hfalse
              cases hfalse
      · -- A gap and a value that does not pass are both passed over.
        have hpassed :
            ((slot :: slots).filterMap id).find? test = (slots.filterMap id).find? test := by
          cases slot with
          | none => rfl
          | some y =>
              exact List.find?_cons_of_neg fun hy => hslot ⟨y, rfl, hy⟩
        rw [hpassed, ih]
        constructor
        · rintro ⟨i, hi, hx, hfirst⟩
          refine ⟨i + 1, hi, hx, fun j hj y hy => ?_⟩
          cases j with
          | zero =>
              obtain rfl := Option.some.inj hy
              exact Bool.eq_false_iff.2 fun htest => hslot ⟨y, rfl, htest⟩
          | succ j => exact hfirst j (Nat.lt_of_succ_lt_succ hj) y hy
        · rintro ⟨i, hi, hx, hfirst⟩
          cases i with
          | zero =>
              obtain rfl := Option.some.inj hi
              exact absurd ⟨x, rfl, hx⟩ hslot
          | succ i =>
              exact ⟨i, hi, hx, fun j hj y hy => hfirst (j + 1) (Nat.succ_lt_succ hj) y hy⟩

/-- **The first place that is there** is found, unless only the compiler knows the import path. -/
theorem finds_iff : l.Finds t q location ↔ l.locateExactly t q = some location := by
  have hbuiltin : builtinPackages.contains q = true ↔ q = "unsafe" ∨ q = "C" := by
    simp [builtinPackages]
  rw [locateExactly]
  split
  · rename_i hq
    rw [hbuiltin] at hq
    constructor
    · rintro (_ | ⟨hnot, -, -, -⟩)
      · rfl
      · exact absurd hq (not_or.2 hnot)
    · intro h
      obtain rfl := Option.some.inj h
      exact .builtin hq
  · rename_i hq
    rw [hbuiltin] at hq
    rw [candidates_eq, find?_filterMap_id_iff]
    simp only [← offers_iff]
    constructor
    · rintro (hq' | ⟨-, hoffers, hthere, hfirst⟩)
      · exact absurd hq' hq
      · exact ⟨_, hoffers, hthere, hfirst⟩
    · rintro ⟨rank, hoffers, hthere, hfirst⟩
      exact .offered (not_or.1 hq) hoffers hthere hfirst

/-! ### The import path that decides -/

/-- What is located for an import path, given the path without its version. -/
theorem locate_eq_or (l : Locator) (t : FileTree) (q : String) :
    l.locate t q = (l.locateExactly t q).or ((withoutVersion? q).bind (l.locate t)) := by
  rw [locate]
  cases l.locateExactly t q with
  | some location => rfl
  | none =>
      dsimp only
      split
      · rename_i hshorter
        rw [hshorter]
        rfl
      · rename_i hlast
        rw [hlast]
        rfl

theorem locate_eq_findSome? (h : VersionChain q chain) :
    l.locate t q = chain.findSome? (l.locateExactly t) := by
  induction h with
  | @last importPath hlast =>
      have hnone : withoutVersion? importPath = none :=
        Option.eq_none_iff_forall_ne_some.2 fun shorter hshorter =>
          hlast shorter (withoutVersion?_eq_some_iff.1 hshorter)
      rw [locate_eq_or, hnone, List.findSome?_cons]
      cases l.locateExactly t importPath <;> rfl
  | @drop importPath shorter chain hdrop _ ih =>
      rw [locate_eq_or, withoutVersion?_eq_some_iff.2 hdrop, Option.bind_some, ih,
        List.findSome?_cons]
      cases l.locateExactly t importPath <;> rfl

/-- **The first import path for which something is found decides.** What is found is there. -/
theorem locate_versionChain (l : Locator) (t : FileTree) (importPath : String) :
    ∃ chain, VersionChain importPath chain ∧
      (∀ location, l.locate t importPath = some location ↔ ∃ before q after,
        chain = before ++ q :: after ∧ (∀ q' ∈ before, ∀ other, ¬ l.Finds t q' other) ∧
          l.Finds t q location) ∧
      (l.locate t importPath = none ↔ ∀ q ∈ chain, ∀ location, ¬ l.Finds t q location) ∧
      (∀ directory isInternal, l.locate t importPath = some (.source directory isInternal) →
        t.isDirectory directory = true) ∧
      ∀ directory archive, l.locate t importPath = some (.archived directory archive) →
        t.isFile archive = true := by
  obtain ⟨chain, hchain⟩ := exists_versionChain importPath
  have hnone (q : String) : l.locateExactly t q = none ↔ ∀ location, ¬ l.Finds t q location := by
    rw [Option.eq_none_iff_forall_ne_some]
    exact forall_congr' fun location => not_congr finds_iff.symm
  refine ⟨chain, hchain, fun location => ?_, ?_, fun _ _ h => isThere_of_locate h,
    fun _ _ h => isThere_of_locate h⟩
  · rw [locate_eq_findSome? hchain, List.findSome?_eq_some_iff]
    refine exists_congr fun before => exists_congr fun q => exists_congr fun after => ?_
    refine and_congr_right fun _ => ?_
    rw [finds_iff, and_comm]
    exact and_congr_left fun _ => forall₂_congr fun q' _ => hnone q'
  · rw [locate_eq_findSome? hchain, List.findSome?_eq_none_iff]
    exact forall₂_congr fun q _ => hnone q

end Locator

end GoPlanner

import GoPlanner.ModuleFile.Module
import GoPlanner.Proofs.Path
import Mathlib.Data.List.Basic
import Mathlib.Data.List.Induction

/-!
# Which Replacement Is Applied

A rule matches an import path that is its own path, or lies below it by whole segments. The rule
that is applied is the one with the longest path, and of several such rules the last.

## Main definitions

* `IsBelow`: an import path below another one.
* `Module.Applies`: the rule that is applied to an import path.
* `Replacement.Yields`: what a rule makes of an import path.

## Main results

* `belowPath?_eq_some_iff`: what an import path adds to another one.
* `Module.substitute?_eq_some_iff`: the effect of the replacements is that of the rule that is
  applied.
* `Module.substitute?_localDirectory`: what a module makes of import paths, at all.
-/

namespace GoPlanner

/-- **An import path lies below another one** if it is that path, or adds segments after a slash. -/
def IsBelow (importPath base rest : String) : Prop :=
  base ≠ "" ∧ (importPath = base ∧ rest = "" ∨ importPath = base ++ "/" ++ rest)

theorem belowPath?_eq_some_iff {importPath base rest : String} :
    belowPath? importPath base = some rest ↔ IsBelow importPath base rest := by
  rw [belowPath?, IsBelow]
  by_cases hbase : base = ""
  · simp [hbase]
  rw [if_neg hbase, and_iff_right hbase]
  constructor
  · intro h
    split at h
    · rename_i hsame
      have hpath := List.isPrefixOf?_eq_some_iff_append_eq.1 hsame
      rw [List.append_nil] at hpath
      exact Or.inl ⟨(String.toList_injective hpath).symm, (Option.some.inj h).symm⟩
    · rename_i cs hunder
      obtain rfl := Option.some.inj h
      refine Or.inr (String.toList_injective ?_)
      simpa using (List.isPrefixOf?_eq_some_iff_append_eq.1 hunder).symm
    · cases h
  · rintro (⟨rfl, rfl⟩ | rfl)
    · have hsame : importPath.toList.isPrefixOf? importPath.toList = some [] :=
        List.isPrefixOf?_eq_some_iff_append_eq.2 (List.append_nil _)
      rw [hsame]
    · have hunder : base.toList.isPrefixOf? (base ++ "/" ++ rest).toList =
          some ('/' :: rest.toList) :=
        List.isPrefixOf?_eq_some_iff_append_eq.2 (by simp)
      rw [hunder]
      simp

namespace Module

variable {m : Module} {importPath rest : String} {rule : Replacement} {s : Substitute}

/-- **The rule that is applied** to an import path: no matching rule has a longer path, and no later
one has a path that is as long. -/
def Applies (m : Module) (importPath : String) (rule : Replacement) (rest : String) : Prop :=
  ∃ before after, m.replacements = before ++ rule :: after ∧ IsBelow importPath rule.oldPath rest ∧
    (∀ other ∈ before, ∀ rest', IsBelow importPath other.oldPath rest' →
      other.oldPath.utf8ByteSize ≤ rule.oldPath.utf8ByteSize) ∧
    ∀ other ∈ after, ∀ rest', IsBelow importPath other.oldPath rest' →
      other.oldPath.utf8ByteSize < rule.oldPath.utf8ByteSize

/-- How long the path of a rule is. -/
def reach (rule : Replacement × String) : Nat :=
  rule.1.oldPath.utf8ByteSize

/-- **The last of the rules with the longest path.** -/
def IsPreferred (rules : List (Replacement × String)) (rule : Replacement × String) : Prop :=
  ∃ before after, rules = before ++ rule :: after ∧ (∀ r ∈ before, reach r ≤ reach rule) ∧
    ∀ r ∈ after, reach r < reach rule

theorem IsPreferred.reach_le {rules : List (Replacement × String)} {rule r : Replacement × String}
    (h : IsPreferred rules rule) (hr : r ∈ rules) : reach r ≤ reach rule := by
  obtain ⟨before, after, rfl, hbefore, hafter⟩ := h
  rcases List.mem_append.1 hr with hr | hr
  · exact hbefore r hr
  · rcases List.mem_cons.1 hr with rfl | hr
    · exact Nat.le_refl _
    · exact Nat.le_of_lt (hafter r hr)

/-- There is one preferred rule at most. -/
theorem IsPreferred.unique {rules : List (Replacement × String)} {rule rule' : Replacement × String}
    (h : IsPreferred rules rule) (h' : IsPreferred rules rule') : rule = rule' := by
  obtain ⟨before, after, heq, hbefore, hafter⟩ := h
  obtain ⟨before', after', heq', hbefore', hafter'⟩ := h'
  -- Of two different rules one stands before the other, and then the two cannot both be longest.
  rcases List.append_eq_append_iff.1 (heq.symm.trans heq') with
    ⟨between, hb, hcons⟩ | ⟨between, hb, hcons⟩
  · cases between with
    | nil => exact (List.cons.inj hcons).1
    | cons r between =>
        obtain ⟨rfl, rfl⟩ := List.cons.inj hcons
        have hlt := hafter rule' (by simp)
        have hle := hbefore' rule (by simp [hb])
        omega
  · cases between with
    | nil => exact (List.cons.inj hcons).1.symm
    | cons r between =>
        obtain ⟨rfl, rfl⟩ := List.cons.inj hcons
        have hlt := hafter' rule (by simp)
        have hle := hbefore rule' (by simp [hb])
        omega

/-- A rule that is as long as the preferred one takes its place; a shorter one does not. -/
theorem IsPreferred.concat {rules : List (Replacement × String)} {best last : Replacement × String}
    (h : IsPreferred rules best) :
    IsPreferred (rules ++ [last]) (if reach best ≤ reach last then last else best) := by
  split
  · rename_i hle
    exact ⟨rules, [], rfl, fun r hr => Nat.le_trans (h.reach_le hr) hle, by simp⟩
  · rename_i hle
    obtain ⟨before, after, rfl, hbefore, hafter⟩ := h
    refine ⟨before, after ++ [last], by simp, hbefore, fun r hr => ?_⟩
    rcases List.mem_append.1 hr with hr | hr
    · exact hafter r hr
    · rw [List.mem_singleton.1 hr]
      exact Nat.lt_of_not_le hle

/-- Of several rules one is preferred. -/
theorem exists_isPreferred {rules : List (Replacement × String)} (h : rules ≠ []) :
    ∃ best, rules.foldl preferred none = some best ∧ IsPreferred rules best := by
  induction rules using List.reverseRecOn with
  | nil => exact absurd rfl h
  | append_singleton rules last ih =>
      rw [List.foldl_concat]
      by_cases hrules : rules = []
      · subst hrules
        exact ⟨last, rfl, [], [], rfl, by simp, by simp⟩
      · obtain ⟨best, hbest, hpreferred⟩ := ih hrules
        refine ⟨_, ?_, hpreferred.concat⟩
        rw [hbest, preferred]
        exact (apply_ite some _ _ _).symm

theorem foldl_preferred_eq_some_iff {rules : List (Replacement × String)}
    {rule : Replacement × String} :
    rules.foldl preferred none = some rule ↔ IsPreferred rules rule := by
  constructor
  · intro h
    have hne : rules ≠ [] := by
      rintro rfl
      cases h
    obtain ⟨best, hbest, hpreferred⟩ := exists_isPreferred hne
    obtain rfl := Option.some.inj (hbest.symm.trans h)
    exact hpreferred
  · intro h
    have hne : rules ≠ [] := by
      rintro rfl
      obtain ⟨before, after, heq, -⟩ := h
      simp at heq
    obtain ⟨best, hbest, hpreferred⟩ := exists_isPreferred hne
    rw [hbest, hpreferred.unique h]

/-- A rule that matches an import path, with what the import path adds to it. -/
def matched? (importPath : String) (rule : Replacement) : Option (Replacement × String) :=
  (belowPath? importPath rule.oldPath).map (fun rest => (rule, rest))

theorem matching_eq : m.matching importPath = m.replacements.filterMap (matched? importPath) :=
  rfl

theorem matched?_eq_some_iff {r : Replacement × String} :
    matched? importPath rule = some r ↔ r.1 = rule ∧ IsBelow importPath rule.oldPath r.2 := by
  obtain ⟨rule', rest⟩ := r
  rw [matched?]
  simp only [Option.map_eq_some_iff, Prod.mk.injEq, belowPath?_eq_some_iff]
  constructor
  · rintro ⟨_, hbelow, rfl, rfl⟩
    exact ⟨rfl, hbelow⟩
  · rintro ⟨rfl, hbelow⟩
    exact ⟨rest, hbelow, rfl, rfl⟩

theorem mem_matched_iff {rules : List Replacement} {r : Replacement × String} :
    r ∈ rules.filterMap (matched? importPath) ↔
      r.1 ∈ rules ∧ IsBelow importPath r.1.oldPath r.2 := by
  rw [List.mem_filterMap]
  constructor
  · rintro ⟨rule, hmem, hrule⟩
    obtain ⟨rfl, hbelow⟩ := matched?_eq_some_iff.1 hrule
    exact ⟨hmem, hbelow⟩
  · rintro ⟨hmem, hbelow⟩
    exact ⟨r.1, hmem, matched?_eq_some_iff.2 ⟨rfl, hbelow⟩⟩

/-- The preferred one of the matching rules is the rule that is applied. -/
theorem isPreferred_matching_iff :
    IsPreferred (m.matching importPath) (rule, rest) ↔ m.Applies importPath rule rest := by
  rw [IsPreferred, matching_eq, Applies]
  constructor
  · rintro ⟨before, after, heq, hbefore, hafter⟩
    obtain ⟨front, back, hsplit, rfl, hback⟩ := List.filterMap_eq_append_iff.1 heq
    obtain ⟨skipped, rule', behind, rfl, hskipped, hrule, rfl⟩ := List.filterMap_eq_cons_iff.1 hback
    obtain ⟨rfl, hbelow⟩ := matched?_eq_some_iff.1 hrule
    refine ⟨front ++ skipped, behind, by rw [hsplit, List.append_assoc], hbelow,
      fun other hother s hs => ?_, fun other hother s hs => ?_⟩
    · rcases List.mem_append.1 hother with hother | hother
      · exact hbefore (other, s) (mem_matched_iff.2 ⟨hother, hs⟩)
      · have hmatched := matched?_eq_some_iff (r := (other, s)).2 ⟨rfl, hs⟩
        rw [hskipped other hother] at hmatched
        cases hmatched
    · exact hafter (other, s) (mem_matched_iff.2 ⟨hother, hs⟩)
  · rintro ⟨before, after, hsplit, hbelow, hbefore, hafter⟩
    refine ⟨before.filterMap (matched? importPath), after.filterMap (matched? importPath), ?_,
      fun r hr => ?_, fun r hr => ?_⟩
    · have hrule : matched? importPath rule = some (rule, rest) :=
        matched?_eq_some_iff.2 ⟨rfl, hbelow⟩
      rw [hsplit, List.filterMap_append, List.filterMap_cons_some hrule]
    · obtain ⟨hmem, hr⟩ := mem_matched_iff.1 hr
      exact hbefore r.1 hmem r.2 hr
    · obtain ⟨hmem, hr⟩ := mem_matched_iff.1 hr
      exact hafter r.1 hmem r.2 hr

/-- **The effect of the replacements** is that of the rule that is applied. -/
theorem substitute?_eq_some_iff : m.substitute? importPath = some s ↔
    ∃ rule rest, m.Applies importPath rule rest ∧ m.applied rule rest = s := by
  rw [substitute?, Option.map_eq_some_iff]
  constructor
  · rintro ⟨⟨rule, rest⟩, hrule, rfl⟩
    exact ⟨rule, rest, isPreferred_matching_iff.1 (foldl_preferred_eq_some_iff.1 hrule), rfl⟩
  · rintro ⟨rule, rest, happlies, rfl⟩
    exact ⟨(rule, rest), foldl_preferred_eq_some_iff.2 (isPreferred_matching_iff.2 happlies), rfl⟩

/-- **Some rule is applied** as soon as one matches. -/
theorem substitute?_eq_none_iff : m.substitute? importPath = none ↔
    ∀ rule ∈ m.replacements, ∀ rest, ¬ IsBelow importPath rule.oldPath rest := by
  have hfold : m.substitute? importPath = none ↔ m.matching importPath = [] := by
    rw [substitute?, Option.map_eq_none_iff]
    constructor
    · intro hnone
      by_contra hne
      obtain ⟨best, hbest, -⟩ := exists_isPreferred hne
      cases hbest.symm.trans hnone
    · intro hnil
      rw [hnil, List.foldl_nil]
  rw [hfold, matching_eq, List.eq_nil_iff_forall_not_mem]
  simp only [mem_matched_iff, Prod.forall, not_and]
  exact ⟨fun h rule hrule rest => h rule rest hrule, fun h rule rest hrule => h rule hrule rest⟩

end Module

/-! ### What a rule makes of an import path -/

/-- **What a rule makes of an import path** that adds `rest` to the path of the rule. The path of a
directory is read from the root of the module. -/
inductive Replacement.Yields (root : Path) (rule : Replacement) (rest : String) : Substitute → Prop
  /-- The segments below a directory. -/
  | directory {path : Path} (htarget : rule.target = .directory path) :
      Yields root rule rest (.directory ((segments rest).foldl Path.child
        (if path.isAbsolute = true then path else root.join path)))
  /-- Another module. -/
  | itself {path version : String} (htarget : rule.target = .module path version)
      (hrest : rest = "") : Yields root rule rest (.importPath path)
  /-- What lies below another module. -/
  | below {path version : String} (htarget : rule.target = .module path version)
      (hrest : rest ≠ "") : Yields root rule rest (.importPath (path ++ "/" ++ rest))

namespace Module

variable {m : Module} {importPath rest : String} {rule : Replacement} {s : Substitute}

theorem yields_iff : rule.Yields m.root rest s ↔ m.applied rule rest = s := by
  have hroot (path : Path) :
      (if path.isAbsolute = true then path else m.root.join path) = m.root.join path := by
    rw [Path.join]
    split <;> simp_all
  constructor
  · rintro (htarget | ⟨htarget, hrest⟩ | ⟨htarget, hrest⟩)
    · rw [applied, htarget, hroot]
      rfl
    · rw [applied, htarget]
      exact congrArg Substitute.importPath (if_pos hrest)
    · rw [applied, htarget]
      exact congrArg Substitute.importPath (if_neg hrest)
  · rintro rfl
    rw [applied]
    split
    · rename_i path htarget
      rw [← hroot]
      exact .directory htarget
    · rename_i path version htarget
      split
      · exact .itself htarget ‹_›
      · exact .below htarget ‹_›

/-- **What a module makes of import paths.** A replacement matches an import path that is its path,
or lies below it by whole segments. If there is one, the last one with the longest path is applied,
and no other. The module's own import paths stand for the directories below its root. -/
theorem substitute?_localDirectory (m : Module) (importPath : String) :
    (m.substitute? importPath = none ↔
      ∀ rule ∈ m.replacements, ∀ rest, ¬ IsBelow importPath rule.oldPath rest) ∧
    (∀ s, m.substitute? importPath = some s ↔
      ∃ rule rest, m.Applies importPath rule rest ∧ rule.Yields m.root rest s) ∧
    ∀ directory, m.localDirectory importPath = some directory ↔
      ∃ rest, IsBelow importPath m.modulePath rest ∧
        directory = (segments rest).foldl Path.child m.root := by
  refine ⟨substitute?_eq_none_iff, fun s => ?_, fun directory => ?_⟩
  · simp only [substitute?_eq_some_iff, yields_iff]
  · simp only [localDirectory, Option.map_eq_some_iff, belowPath?_eq_some_iff]
    exact exists_congr fun rest => and_congr_right fun _ => eq_comm

/-- Of two rules the one with the longer path decides. What a rule makes is not replaced again. -/
example :
    let m : Module := ⟨⟨"/w"⟩, "app",
      [⟨"a/b", none, .directory ⟨"../b"⟩⟩, ⟨"a", none, .module "a/b" "v1"⟩]⟩
    m.substitute? "a/b/c" = some (.directory ⟨"/w/../b/c"⟩) ∧
      m.substitute? "a/c" = some (.importPath "a/b/c") := by
  decide +kernel

end Module

end GoPlanner

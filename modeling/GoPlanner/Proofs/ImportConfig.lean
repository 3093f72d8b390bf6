import GoPlanner.ImportConfig
import GoPlanner.Proofs.Distinct
import Mathlib.Data.List.Induction
import Mathlib.Data.List.Nodup

/-!
# Registered Archives

Whatever is registered, and however often, an import configuration lists every import path
once, in the order of the first registrations, with the archive that was registered for it last.

## Main definitions

* `ImportConfig.keys`: the import paths of an import configuration.
* `ImportConfig.registerEach`: registers several import paths with an archive each.
* `ImportConfig.IsLast`: the last registration of an import path.

## Main results

* `ImportConfig.nodup_keys`: no import path is listed twice.
* `ImportConfig.archive?_eq_some_iff`: the index leads to the entries.
* `ImportConfig.keys_registerEach`: new import paths come last, in order.
* `ImportConfig.archive?_registerEach`: the last archive counts.
-/

namespace GoPlanner

/-- Where no key is listed twice, the other entries have other keys. -/
theorem ne_of_nodup_keys {α β : Type} {before after : List (α × β)} {e : α × β}
    (h : ((before ++ e :: after).map (·.1)).Nodup) : ∀ other ∈ before ++ after, other.1 ≠ e.1 := by
  rw [List.map_append, List.map_cons, List.nodup_middle, ← List.map_append, List.nodup_cons] at h
  exact fun other hother heq => h.1 (List.mem_map.2 ⟨other, hother, heq⟩)

namespace ImportConfig

variable {c : ImportConfig} {importPath other : String} {archive : Path}
  {entries more : List (String × Path)}

/-- **The import paths** of an import configuration, in order. -/
def keys (c : ImportConfig) : List String :=
  c.entries.map (·.1)

/-- **Registers** several import paths with an archive each. -/
def registerEach (c : ImportConfig) (entries : List (String × Path)) : ImportConfig :=
  entries.foldl (fun c e => c.register e.1 e.2) c

@[simp] theorem registerEach_nil : c.registerEach [] = c :=
  rfl

@[simp] theorem registerEach_cons {e : String × Path} :
    c.registerEach (e :: entries) = (c.register e.1 e.2).registerEach entries :=
  rfl

theorem registerEach_append :
    c.registerEach (entries ++ more) = (c.registerEach entries).registerEach more :=
  List.foldl_append

/-- One archive for several import paths is registered for each of them. -/
theorem registerAll_eq {importPaths : List String} :
    c.registerAll importPaths archive =
      c.registerEach (importPaths.map (fun importPath => (importPath, archive))) := by
  rw [registerAll, registerEach, List.foldl_map]

/-! ### Entries and their index -/

/-- **No import path is listed twice,** as the index has one position for each. -/
theorem nodup_keys (c : ImportConfig) : c.keys.Nodup := by
  refine List.pairwise_iff_getElem.2 fun i j hi hj hlt heq => ?_
  have hfirst := c.indexed.found i c.keys[i] (List.getElem?_eq_getElem hi)
  have hsecond := c.indexed.found j c.keys[i] (by rw [heq]; exact List.getElem?_eq_getElem hj)
  exact Nat.ne_of_lt hlt (Option.some.inj (hfirst.symm.trans hsecond))

theorem lookup_index_eq_some_iff {position : ℕ} :
    c.index.lookup importPath = some position ↔
      ∃ archive, c.entries[position]? = some (importPath, archive) := by
  rw [c.indexed.lookup_eq_some_iff, List.getElem?_map]
  cases c.entries[position]? with
  | none => simp
  | some e => simp [Prod.ext_iff, eq_comm]

theorem lookup_index_eq_none_iff : c.index.lookup importPath = none ↔ importPath ∉ c.keys := by
  rw [Option.eq_none_iff_forall_ne_some, keys, List.mem_iff_getElem?]
  push Not
  exact forall_congr' fun position => not_congr c.indexed.lookup_eq_some_iff

/-- **The archive of an import path** is that of its entry. -/
theorem archive?_eq_some_iff :
    c.archive? importPath = some archive ↔ (importPath, archive) ∈ c.entries := by
  rw [List.mem_iff_getElem?, archive?]
  split
  · rename_i position hfound
    obtain ⟨other, hentry⟩ := lookup_index_eq_some_iff.1 hfound
    obtain ⟨hlt, hget⟩ := List.getElem?_eq_some_iff.1 hentry
    rw [List.get_eq_getElem, hget]
    constructor
    · intro h
      obtain rfl := Option.some.inj h
      exact ⟨position, hentry⟩
    · rintro ⟨position', hentry'⟩
      have hfound' := lookup_index_eq_some_iff.2 ⟨archive, hentry'⟩
      obtain rfl := Option.some.inj (hfound.symm.trans hfound')
      rw [hentry] at hentry'
      simpa using hentry'
  · rename_i hnone
    refine iff_of_false (by simp) ?_
    rintro ⟨position, hentry⟩
    rw [lookup_index_eq_some_iff.2 ⟨archive, hentry⟩] at hnone
    cases hnone

/-- The import paths that are listed have an archive. -/
theorem mem_keys_iff : importPath ∈ c.keys ↔ ∃ archive, c.archive? importPath = some archive := by
  simp [keys, archive?_eq_some_iff]

theorem archive?_eq_none_iff : c.archive? importPath = none ↔ importPath ∉ c.keys := by
  rw [mem_keys_iff, Option.eq_none_iff_forall_ne_some, not_exists]

/-! ### One registration -/

theorem path_register : (c.register importPath archive).path = c.path := by
  rw [register]
  split <;> rfl

/-- **What a registration does:** the archive of an entry is replaced, or an entry of a new import
path is added at the end. -/
theorem register_cases (c : ImportConfig) (importPath : String) (archive : Path) :
    (∃ before old after, c.entries = before ++ (importPath, old) :: after ∧
        (∀ e ∈ before ++ after, e.1 ≠ importPath) ∧
        (c.register importPath archive).entries = before ++ (importPath, archive) :: after) ∨
      importPath ∉ c.keys ∧
        (c.register importPath archive).entries = c.entries ++ [(importPath, archive)] := by
  rw [register]
  split
  · rename_i position hfound
    obtain ⟨old, hentry⟩ := lookup_index_eq_some_iff.1 hfound
    obtain ⟨hlt, hget⟩ := List.getElem?_eq_some_iff.1 hentry
    have hsplit : c.entries =
        c.entries.take position ++ (importPath, old) :: c.entries.drop (position + 1) := by
      rw [← hget, List.getElem_cons_drop, List.take_append_drop]
    have hnodup := c.nodup_keys
    rw [keys, hsplit] at hnodup
    exact Or.inl ⟨_, old, _, hsplit, ne_of_nodup_keys hnodup,
      (List.modify_eq_take_cons_drop hlt).trans (by rw [hget])⟩
  · rename_i hnone
    exact Or.inr ⟨lookup_index_eq_none_iff.1 hnone, rfl⟩

/-- **An import path keeps its position,** and a new one comes last. -/
theorem keys_register : (c.register importPath archive).keys =
    if importPath ∈ c.keys then c.keys else c.keys ++ [importPath] := by
  rcases c.register_cases importPath archive with ⟨before, old, after, hsplit, -, hentries⟩ |
    ⟨hnew, hentries⟩
  · simp [keys, hsplit, hentries]
  · rw [if_neg hnew, keys, hentries, List.map_append]
    rfl

/-- **The entries** are the new one and those of other import paths. -/
theorem mem_entries_register {e : String × Path} : e ∈ (c.register importPath archive).entries ↔
    e = (importPath, archive) ∨ e ∈ c.entries ∧ e.1 ≠ importPath := by
  rcases c.register_cases importPath archive with ⟨before, old, after, hsplit, hothers, hentries⟩ |
    ⟨hnew, hentries⟩
  · simp only [hsplit, hentries, List.mem_append, List.mem_cons]
    constructor
    · rintro (he | he | he)
      · exact Or.inr ⟨Or.inl he, hothers e (by simp [he])⟩
      · exact Or.inl he
      · exact Or.inr ⟨Or.inr (Or.inr he), hothers e (by simp [he])⟩
    · rintro (he | ⟨he | rfl | he, hne⟩)
      · exact Or.inr (Or.inl he)
      · exact Or.inl he
      · exact absurd rfl hne
      · exact Or.inr (Or.inr he)
  · have hother (he : e ∈ c.entries) : e.1 ≠ importPath := by
      rintro rfl
      exact hnew (List.mem_map_of_mem he)
    rw [hentries, List.mem_append, List.mem_singleton, or_comm, and_iff_left_of_imp hother]

/-- **Registering** an archive sets the entry of its import path. -/
theorem archive?_register :
    (c.register importPath archive).archive? other =
      if other = importPath then some archive else c.archive? other := by
  refine Option.ext fun archive' => ?_
  rw [archive?_eq_some_iff, mem_entries_register]
  by_cases hother : other = importPath
  · simp [hother, eq_comm]
  · simp [hother, archive?_eq_some_iff]

/-! ### Several registrations -/

theorem path_registerEach : (c.registerEach entries).path = c.path := by
  induction entries generalizing c with
  | nil => rfl
  | cons e entries ih => rw [registerEach_cons, ih, path_register]

/-- **New import paths come last,** in the order of their first registrations. -/
theorem keys_registerEach : (c.registerEach entries).keys =
    c.keys ++ ((entries.map (·.1)).removeAll c.keys).eraseDups := by
  induction entries using List.reverseRecOn with
  | nil => simp
  | append_singleton entries e ih =>
      have hremove : ((entries ++ [e]).map (·.1)).removeAll c.keys =
          (entries.map (·.1)).removeAll c.keys ++ [e.1].removeAll c.keys := by
        rw [List.map_append]
        exact List.filter_append _ _
      rw [registerEach_append, registerEach_cons, registerEach_nil, keys_register, ih, hremove,
        List.eraseDups_append, ← List.append_assoc]
      by_cases hold : e.1 ∈ c.keys
      · simp [hold, List.removeAll]
      · by_cases hnew : e.1 ∈ entries.map (·.1)
        · simp [List.removeAll, hold, hnew]
        · simp [List.removeAll, List.eraseDups_cons, hold, hnew]

/-- **All entries** were there, or have been registered. -/
theorem mem_entries_registerEach {e : String × Path} (h : e ∈ (c.registerEach entries).entries) :
    e ∈ c.entries ∨ e ∈ entries := by
  induction entries generalizing c with
  | nil => exact Or.inl h
  | cons first entries ih =>
      rcases ih h with h | h
      · rcases mem_entries_register.1 h with rfl | h
        · exact Or.inr List.mem_cons_self
        · exact Or.inl h.1
      · exact Or.inr (List.mem_cons_of_mem first h)

/-- **The archive that was registered last** counts. -/
theorem archive?_registerEach :
    (c.registerEach entries).archive? importPath =
      (entries.reverse.lookup importPath).or (c.archive? importPath) := by
  induction entries using List.reverseRecOn with
  | nil => rfl
  | append_singleton entries e ih =>
      rw [registerEach_append, registerEach_cons, registerEach_nil, archive?_register, ih,
        List.reverse_append, List.reverse_singleton, List.singleton_append, List.lookup_cons]
      by_cases he : importPath = e.1
      · simp [he]
      · rw [if_neg he, beq_false_of_ne he]

/-! ### Entries as a table -/

/-- An import path has no entry exactly if all entries are those of others. -/
theorem lookup_eq_none_iff :
    entries.lookup importPath = none ↔ ∀ e ∈ entries, e.1 ≠ importPath := by
  rw [List.lookup_eq_none_iff]
  exact forall₂_congr fun e _ => by rw [bne_iff_ne, ne_comm]

theorem mem_of_lookup (h : entries.lookup importPath = some archive) :
    (importPath, archive) ∈ entries := by
  obtain ⟨before, after, hsplit, -⟩ := List.lookup_eq_some_iff.1 h
  simp [hsplit]

/-! ### The last registration -/

/-- **The last registration** of an import path: none of those behind it are of this path. -/
def IsLast (entries : List (String × Path)) (importPath : String) (archive : Path) : Prop :=
  ∃ before after, entries = before ++ (importPath, archive) :: after ∧
    ∀ e ∈ after, e.1 ≠ importPath

theorem lookup_reverse_eq_some_iff :
    entries.reverse.lookup importPath = some archive ↔
      IsLast entries importPath archive := by
  rw [List.lookup_eq_some_iff]
  constructor
  · rintro ⟨after, before, hsplit, hafter⟩
    refine ⟨before.reverse, after.reverse, ?_, ?_⟩
    · rw [← List.reverse_reverse entries, hsplit]
      simp
    · exact fun e he => (bne_iff_ne.1 (hafter e (List.mem_reverse.1 he))).symm
  · rintro ⟨before, after, rfl, hafter⟩
    refine ⟨after.reverse, before.reverse, by simp, ?_⟩
    exact fun e he => bne_iff_ne.2 (hafter e (List.mem_reverse.1 he)).symm

/-- **The archive** of an import path that has been registered once. -/
theorem archive?_registerEach_of_mem (hnodup : (entries.map (·.1)).Nodup)
    (h : (importPath, archive) ∈ entries) :
    (c.registerEach entries).archive? importPath = some archive := by
  obtain ⟨before, after, rfl⟩ := List.append_of_mem h
  have hlast : IsLast (before ++ (importPath, archive) :: after) importPath archive :=
    ⟨before, after, rfl, fun e he => ne_of_nodup_keys hnodup e (List.mem_append_right _ he)⟩
  rw [archive?_registerEach, lookup_reverse_eq_some_iff.2 hlast, Option.some_or]

/-- Other import paths keep their archives. -/
theorem archive?_registerEach_of_ne (h : ∀ e ∈ entries, e.1 ≠ importPath) :
    (c.registerEach entries).archive? importPath = c.archive? importPath := by
  rw [archive?_registerEach, lookup_eq_none_iff.2 fun e he => h e (List.mem_reverse.1 he),
    Option.none_or]

/-- **New import paths come last** in their own order. -/
theorem keys_registerEach_of_nodup (hnodup : (entries.map (·.1)).Nodup) :
    (c.registerEach entries).keys =
      c.keys ++ (entries.map (·.1)).filter (fun importPath => importPath ∉ c.keys) := by
  rw [keys_registerEach, List.removeAll, eraseDups_of_nodup (hnodup.filter _)]
  congr 1
  exact List.filter_congr fun importPath _ => by simp

end ImportConfig

end GoPlanner

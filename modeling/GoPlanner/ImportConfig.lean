import GoPlanner.Path

/-!
# Import Configurations

An import configuration says which archive stands for which import path. It is written
to a file that the compiler and the linker read. An import path keeps its position when
its archive is registered anew. An index leads from import paths to their positions.

## Main definitions

* `ImportConfig`: the entries, in the order of their first registration, with their index.
* `ImportConfig.register`: registers an archive.
* `ImportConfig.archive?`: the archive of an import path.
* `ImportConfig.render`: the text of the file.

## Main results

* `ImportConfig.Indexes.modify`, `ImportConfig.Indexes.append`: the index stays one when an
  archive is registered.
-/

namespace GoPlanner

namespace ImportConfig

/-- **An index of entries** has each import path with the position of its entry. As it finds
one position, no import path has two entries. -/
structure Indexes (index : List (String × Nat)) (entries : List (String × Path)) : Prop where
  /-- What the index has is the position of an entry. -/
  entry : ∀ e ∈ index, (entries.map (·.1))[e.2]? = some e.1
  /-- The position of an entry is found. -/
  found : ∀ position importPath, (entries.map (·.1))[position]? = some importPath →
    index.lookup importPath = some position

end ImportConfig

/-- **An import configuration.** -/
structure ImportConfig where
  /-- The file that it is written to. -/
  path : Path
  /-- The import paths with their archives. -/
  entries : List (String × Path)
  /-- The import paths with the positions of their entries. -/
  index : List (String × Nat)
  /-- The index is that of the entries. -/
  indexed : ImportConfig.Indexes index entries
deriving DecidableEq

namespace ImportConfig

/-- The import configuration without entries. -/
def empty (path : Path) : ImportConfig :=
  ⟨path, [], [], by simp, by simp⟩

instance : Inhabited ImportConfig :=
  ⟨empty default⟩

variable {index : List (String × Nat)} {entries : List (String × Path)} {importPath : String}
  {position : Nat}

/-- **What an index finds** is the position of an entry. -/
theorem Indexes.lookup_eq_some_iff (h : Indexes index entries) :
    index.lookup importPath = some position ↔
      (entries.map (·.1))[position]? = some importPath := by
  refine ⟨fun hfound => ?_, h.found position importPath⟩
  obtain ⟨before, after, hindex, -⟩ := List.lookup_eq_some_iff.1 hfound
  exact h.entry (importPath, position) (by simp [hindex])

/-- An index leads to entries that are there. -/
theorem Indexes.lt_length (h : Indexes index entries)
    (hposition : index.lookup importPath = some position) : position < entries.length := by
  obtain ⟨hlt, -⟩ := List.getElem?_eq_some_iff.1 (h.lookup_eq_some_iff.1 hposition)
  rwa [List.length_map] at hlt

/-- **An archive can be replaced** without a change of the index. -/
theorem Indexes.modify (h : Indexes index entries) (position : Nat) (archive : Path) :
    Indexes index (entries.modify position fun e => (e.1, archive)) := by
  have hkeys : (entries.modify position fun e => (e.1, archive)).map (·.1) =
      entries.map (·.1) := by
    refine List.ext_getElem? fun other => ?_
    rw [List.getElem?_map, List.getElem?_map, List.getElem?_modify]
    cases entries[other]? with
    | none => rfl
    | some e => by_cases hposition : position = other <;> simp [hposition]
  exact ⟨hkeys ▸ h.entry, hkeys ▸ h.found⟩

/-- **An index is extended** when an import path is registered that it does not have. -/
theorem Indexes.append (h : Indexes index entries) (hnew : index.lookup importPath = none)
    (archive : Path) :
    Indexes ((importPath, entries.length) :: index) (entries ++ [(importPath, archive)]) where
  entry := by
    intro e he
    rw [List.map_append]
    rcases List.mem_cons.1 he with rfl | he
    · simp
    · have hold := h.entry e he
      rwa [List.getElem?_append_left (List.getElem?_eq_some_iff.1 hold).1]
  found := by
    intro position other hposition
    rw [List.map_append] at hposition
    rw [List.lookup_cons]
    rcases Nat.lt_or_ge position (entries.map (·.1)).length with hlt | hge
    · rw [List.getElem?_append_left hlt] at hposition
      have hfound := h.found position other hposition
      have hne : other ≠ importPath := by
        rintro rfl
        rw [hnew] at hfound
        cases hfound
      rw [beq_false_of_ne hne]
      exact hfound
    · rw [List.getElem?_append_right hge, List.map_singleton, List.getElem?_singleton] at hposition
      split at hposition
      · rename_i hzero
        obtain rfl := Option.some.inj hposition
        rw [List.length_map] at hge hzero
        simp
        omega
      · cases hposition

/-- **Registers** an archive for an import path: in its place if it is there, else at the
end. -/
def register (c : ImportConfig) (importPath : String) (archive : Path) : ImportConfig :=
  match h : c.index.lookup importPath with
  | some position =>
    { c with
      entries := c.entries.modify position fun e => (e.1, archive)
      indexed := c.indexed.modify position archive }
  | none =>
    { c with
      entries := c.entries ++ [(importPath, archive)]
      index := (importPath, c.entries.length) :: c.index
      indexed := c.indexed.append h archive }

/-- Registers one archive for several import paths. -/
def registerAll (c : ImportConfig) (importPaths : List String) (archive : Path) :
    ImportConfig :=
  importPaths.foldl (fun c p => c.register p archive) c

/-- **The archive** of an import path. -/
def archive? (c : ImportConfig) (importPath : String) : Option Path :=
  match h : c.index.lookup importPath with
  | some position => some (c.entries.get ⟨position, c.indexed.lt_length h⟩).2
  | none => none

/-- How many import paths are registered. -/
def size (c : ImportConfig) : Nat :=
  c.entries.length

/-- The line of an entry. -/
def line (entry : String × Path) : String :=
  "packagefile " ++ entry.1 ++ "=" ++ entry.2.text ++ "\n"

/-- **The text of the file.** -/
def render (c : ImportConfig) : String :=
  String.join (c.entries.map line)

end ImportConfig

end GoPlanner

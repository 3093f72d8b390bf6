import GoPlanner.Proofs.FileTree.Freshness

/-!
# What Paths Lead To

Every question about a file is answered at the place that its path leads to. So two file trees
answer a question alike if the path leads to the same place in both, and the same stands there.

## Main results

* `FileTree.find_eq_ok_iff`: what a path leads to.
* `FileTree.isDirectory_iff_resolve`, `FileTree.isFile_iff_resolve`: tests.
* `FileTree.content_eq_ok_iff`, `FileTree.list_eq_ok_iff`: contents and names.
* `FileTree.Spares.resolve_iff`, `FileTree.Spares.isDirectory_eq`: trees that differ in files only.
-/

namespace GoPlanner

theorem Node.isFile_iff {node : Node} : node.isFile = true ↔ ∃ c x, node = .file c x := by
  cases node <;> simp [Node.isFile]

namespace FileTree

variable {t : FileTree} {place : Place} {node : Node} {p : Path} {names : List String} {c : Content}

/-- **What a path leads to** stands at the place that it is resolved to. -/
theorem find_eq_ok_iff :
    t.find p = .ok (place, node) ↔ t.resolve p = .ok place ∧ t.node? place = some node := by
  rw [find]
  cases hresolve : t.resolve p with
  | error fault => simp
  | ok other =>
      dsimp only
      cases hnode : t.node? other with
      | none =>
          simp only [Except.ok.injEq, reduceCtorEq, false_iff, not_and]
          rintro rfl
          simp [hnode]
      | some node' =>
          simp only [Except.ok.injEq, Prod.mk.injEq]
          refine and_congr_right ?_
          rintro rfl
          simp [hnode]

theorem isDirectory_iff_resolve :
    t.isDirectory p = true ↔ ∃ place, t.resolve p = .ok place ∧ t.node? place = some .directory := by
  rw [isDirectory_iff]
  exact exists_congr fun place => find_eq_ok_iff

theorem isFile_iff_resolve : t.isFile p = true ↔
    ∃ place node, t.resolve p = .ok place ∧ t.node? place = some node ∧ node.isFile = true := by
  rw [isFile]
  constructor
  · intro h
    split at h
    · rename_i hfind
      obtain ⟨hplace, hnode⟩ := find_eq_ok_iff.1 hfind
      exact ⟨_, _, hplace, hnode, rfl⟩
    · cases h
  · rintro ⟨place, node, hplace, hnode, hfile⟩
    obtain ⟨c, x, rfl⟩ := Node.isFile_iff.1 hfile
    rw [find_eq_ok_iff.2 ⟨hplace, hnode⟩]

theorem content_eq_ok_iff :
    t.content p = .ok c ↔ ∃ place x, t.resolve p = .ok place ∧ t.node? place = some (.file c x) := by
  rw [content]
  constructor
  · intro h
    split at h
    · cases h
    · rename_i hfind
      obtain ⟨hplace, hnode⟩ := find_eq_ok_iff.1 hfind
      obtain rfl := Except.ok.inj h
      exact ⟨_, _, hplace, hnode⟩
    · cases h
  · rintro ⟨place, x, hplace, hnode⟩
    rw [find_eq_ok_iff.2 ⟨hplace, hnode⟩]

theorem list_eq_ok_iff : t.list p = .ok (place, names) ↔
    t.resolve p = .ok place ∧ t.node? place = some .directory ∧ names = t.names place := by
  constructor
  · intro h
    obtain ⟨hplace, hnode⟩ := find_eq_ok_iff.1 (find_of_list h)
    exact ⟨hplace, hnode, names_of_list h⟩
  · rintro ⟨hplace, hnode, rfl⟩
    rw [list]
    rw [find_eq_ok_iff.2 ⟨hplace, hnode⟩]

/-- The source text of a file is its content, read leniently. -/
theorem readSource_eq_ok_iff {src : String} :
    t.readSource p = .ok src ↔ ∃ c, t.content p = .ok c ∧ c.readable = src := by
  rw [readSource]
  cases t.content p <;> simp [Except.map]

/-- Every file has a source text. -/
theorem exists_readSource_of_isFile (h : t.isFile p = true) : ∃ src, t.readSource p = .ok src := by
  obtain ⟨place, node, hplace, hnode, hfile⟩ := isFile_iff_resolve.1 h
  obtain ⟨c, x, rfl⟩ := Node.isFile_iff.1 hfile
  exact ⟨_, readSource_eq_ok_iff.2 ⟨c, content_eq_ok_iff.2 ⟨place, x, hplace, hnode⟩, rfl⟩⟩

/-! ### Trees that spare each other -/

section Spares

variable {t' : FileTree}

/-- A path leads to a place where the same stands in one tree if it does in the other. -/
theorem Spares.resolve_iff (h : Spares t t') (h' : Spares t' t)
    (hsame : t'.node? place = t.node? place) : t'.resolve p = .ok place ↔ t.resolve p = .ok place :=
  ⟨fun hplace => h'.resolve_eq (hsame ▸ isSome_of_resolve hplace) hplace,
    fun hplace => h.resolve_eq (hsame ▸ isSome_of_resolve hplace) hplace⟩

theorem Spares.directory_iff (h : Spares t t') (h' : Spares t' t) :
    t'.node? place = some .directory ↔ t.node? place = some .directory :=
  ⟨h'.directory, h.directory⟩

theorem Spares.isDirectoryAt_eq (h : Spares t t') (h' : Spares t' t) (place : Place) :
    t'.isDirectoryAt place = t.isDirectoryAt place := by
  rw [Bool.eq_iff_iff, isDirectoryAt, isDirectoryAt, beq_iff_eq, beq_iff_eq, h.directory_iff h']

theorem Spares.resolve_directory (h : Spares t t') (hplace : t.resolve p = .ok place)
    (hdir : t.node? place = some .directory) : t'.resolve p = .ok place :=
  h.resolve_eq (by rw [h.directory hdir]; rfl) hplace

/-- **Directories are the same** in trees that spare each other. -/
theorem Spares.isDirectory_eq (h : Spares t t') (h' : Spares t' t) (p : Path) :
    t'.isDirectory p = t.isDirectory p := by
  have hdirectory {t t' : FileTree} (h : Spares t t') (hdir : t.isDirectory p = true) :
      t'.isDirectory p = true := by
    obtain ⟨place, hplace, hnode⟩ := isDirectory_iff_resolve.1 hdir
    exact isDirectory_iff_resolve.2 ⟨place, h.resolve_directory hplace hnode, h.directory hnode⟩
  exact Bool.eq_iff_iff.2 ⟨hdirectory h', hdirectory h⟩

end Spares

theorem readText_congr {t' : FileTree} (h : t'.find p = t.find p) :
    t'.readText p = t.readText p := by
  rw [readText, readText, content, content, h]

end FileTree

end GoPlanner

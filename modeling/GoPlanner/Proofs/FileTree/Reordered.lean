import GoPlanner.Proofs.Discovery.Alike
import GoPlanner.Proofs.Discovery.Written
import GoPlanner.Proofs.FileTree.Found

/-!
# File Trees With Import Specs in Another Order

The order of the import specs in a source file means nothing to the language. Two file trees that
differ in nothing else have the same directories, and files of the same names in which the same
paths are imported.

## Main definitions

* `ReordersImports`: source texts with the same import specs in another order.
* `FileTree.Reordered`: file trees with such texts.

## Main results

* `FileTree.Reordered.symm`: the relation is symmetric.
* `FileTree.Reordered.writtenIn_iff`: the import paths in a file.
* `FileTree.Reordered.looksUpAlike`: import paths stand for the same places.
-/

namespace GoPlanner

/-! ### Source texts -/

/-- **The import specs** of a header: their local names and import paths, without the lines on
which they stand. -/
def Header.specs (h : Header) : List (Option String × String) :=
  h.imports.map (fun i => (i.alias?, i.path))

/-- **A header with its import specs in another order.** -/
structure Header.Reorders (h h' : Header) : Prop where
  /-- The package is the same. -/
  package : h'.package = h.package
  /-- So are the import specs, but for their order. -/
  specs : h'.specs.Perm h.specs

/-- **A source text with its import specs in another order.** -/
structure ReordersImports (src src' : String) : Prop where
  /-- The constraint lines, which stand before the package clause, are the same. -/
  constraints : scanConstraints src' = scanConstraints src
  /-- So is the header, if there is one, but for the order of the import specs. -/
  header : Option.Rel Header.Reorders (scanHeader src).toOption (scanHeader src').toOption

theorem Header.Reorders.symm {h h' : Header} (hheader : h.Reorders h') : h'.Reorders h :=
  ⟨hheader.package.symm, hheader.specs.symm⟩

/-- The import paths are the same. -/
theorem Header.Reorders.mem_iff {h h' : Header} (hheader : h.Reorders h') {s : String} :
    s ∈ h'.imports.map (·.path) ↔ s ∈ h.imports.map (·.path) := by
  have hpaths (h : Header) : h.imports.map (·.path) = h.specs.map (·.2) := by
    rw [Header.specs, List.map_map]
    rfl
  rw [hpaths, hpaths]
  exact (hheader.specs.map _).mem_iff

namespace ReordersImports

variable {src src' : String} {header : Header}

theorem refl (src : String) : ReordersImports src src := by
  refine ⟨rfl, ?_⟩
  cases (scanHeader src).toOption with
  | none => exact .none
  | some header => exact .some ⟨rfl, List.Perm.refl _⟩

theorem symm (h : ReordersImports src src') : ReordersImports src' src := by
  refine ⟨h.constraints.symm, ?_⟩
  have hrel := h.header
  generalize (scanHeader src).toOption = found, (scanHeader src').toOption = found' at hrel ⊢
  cases hrel with
  | none => exact .none
  | some hheader => exact .some hheader.symm

theorem exists_header (h : ReordersImports src src') (hheader : scanHeader src = .ok header) :
    ∃ header', scanHeader src' = .ok header' ∧ header.Reorders header' := by
  have hrel := h.header
  rw [hheader, Except.toOption] at hrel
  cases hheader' : scanHeader src' with
  | error e =>
      rw [hheader'] at hrel
      cases hrel
  | ok header' =>
      rw [hheader'] at hrel
      cases hrel with
      | some hrel => exact ⟨header', rfl, hrel⟩

/-- **A target includes** a file as before. -/
theorem includes_eq (h : ReordersImports src src') (target : Target) (name : String) :
    target.includes name src' = target.includes name src := by
  rw [Target.includes, Target.includes, Target.fitsConstraints, Target.fitsConstraints,
    h.constraints]

theorem admits_eq (h : ReordersImports src src') (target : Target) (name : String) :
    target.admits name src' = target.admits name src := by
  rw [Target.admits, Target.admits, h.includes_eq]

theorem decides (h : ReordersImports src src') {target : Target} {name : String}
    (hdecides : target.Decides name src) : target.Decides name src' := by
  rw [Target.Decides, h.includes_eq]
  exact hdecides

end ReordersImports

/-! ### File trees -/

/-- **A file tree with import specs in another order.** Times are of no account. -/
structure FileTree.Reordered (t t' : FileTree) : Prop where
  /-- The working directory is the same. -/
  cwd : t'.cwd = t.cwd
  /-- What stands at a place is the same, but for the order of import specs in a file. -/
  node : ∀ place, t'.node? place = t.node? place ∨
    ∃ c x c' x', t.node? place = some (.file c x) ∧ t'.node? place = some (.file c' x') ∧
      ReordersImports c.readable c'.readable
  /-- Module files are no source files. -/
  module : ∀ (directory : Path) (place : Place),
    t.resolve (directory.child moduleFileName) = .ok place → t'.node? place = t.node? place

namespace FileTree.Reordered

variable {t t' : FileTree} {place : Place} {p file : Path} {names : List String} {s : String}

theorem retains (h : t.Reordered t') : Retains t t' where
  cwd := h.cwd
  node := by
    intro place node hnode
    rcases h.node place with hsame | ⟨c, x, c', x', hfile, hfile', -⟩
    · exact Or.inl (hsame.trans hnode)
    · obtain rfl := Option.some.inj (hnode.symm.trans hfile)
      exact Or.inr ⟨rfl, _, hfile', rfl⟩

theorem retains_symm (h : t.Reordered t') : Retains t' t where
  cwd := h.cwd.symm
  node := by
    intro place node hnode
    rcases h.node place with hsame | ⟨c, x, c', x', hfile, hfile', -⟩
    · exact Or.inl (hsame.symm.trans hnode)
    · obtain rfl := Option.some.inj (hnode.symm.trans hfile')
      exact Or.inr ⟨rfl, _, hfile, rfl⟩

/-! #### What paths lead to -/

theorem resolve_iff (h : t.Reordered t') : t'.resolve p = .ok place ↔ t.resolve p = .ok place :=
  ⟨h.retains_symm.resolve_eq, h.retains.resolve_eq⟩

theorem directory_iff (h : t.Reordered t') :
    t'.node? place = some .directory ↔ t.node? place = some .directory :=
  ⟨h.retains_symm.directory, h.retains.directory⟩

/-- **The relation is symmetric.** -/
theorem symm (h : t.Reordered t') : t'.Reordered t where
  cwd := h.cwd.symm
  node := by
    intro place
    rcases h.node place with hsame | ⟨c, x, c', x', hnode, hnode', hsrc⟩
    · exact Or.inl hsame.symm
    · exact Or.inr ⟨c', x', c, x, hnode', hnode, hsrc.symm⟩
  module := fun directory place hplace => (h.module directory place (h.resolve_iff.1 hplace)).symm

theorem isDirectoryAt_eq (h : t.Reordered t') (place : Place) :
    t'.isDirectoryAt place = t.isDirectoryAt place := by
  rw [Bool.eq_iff_iff, isDirectoryAt, isDirectoryAt, beq_iff_eq, beq_iff_eq, h.directory_iff]

theorem isDirectory_eq (h : t.Reordered t') (p : Path) : t'.isDirectory p = t.isDirectory p := by
  rw [Bool.eq_iff_iff, isDirectory_iff_resolve, isDirectory_iff_resolve]
  exact exists_congr fun place => and_congr h.resolve_iff h.directory_iff

theorem isFile_of_isFile (h : t.Reordered t') (hfile : t.isFile p = true) : t'.isFile p = true := by
  obtain ⟨place, node, hplace, hnode, hnodeFile⟩ := isFile_iff_resolve.1 hfile
  refine isFile_iff_resolve.2 ?_
  rcases h.retains.node place node hnode with hsame | ⟨-, node', hnode', hfile'⟩
  · exact ⟨place, node, h.resolve_iff.2 hplace, hsame, hnodeFile⟩
  · exact ⟨place, node', h.resolve_iff.2 hplace, hnode', hfile'⟩

theorem isFile_eq (h : t.Reordered t') (p : Path) : t'.isFile p = t.isFile p :=
  Bool.eq_iff_iff.2 ⟨h.symm.isFile_of_isFile, h.isFile_of_isFile⟩

/-- **Names in a directory** are the same. -/
theorem names_eq (h : t.Reordered t') (ht : t.IsWellFormed) (ht' : t'.IsWellFormed) (place : Place) :
    t'.names place = t.names place := by
  have hnames : (t'.names place).filter (fun _ => true) = (t.names place).filter (fun _ => true) := by
    refine ht.filter_names_congr ht' fun name _ => ?_
    rcases h.node (place ++ [name]) with hsame | ⟨c, x, c', x', hfile, hfile', -⟩
    · rw [hsame]
    · rw [hfile, hfile']
      rfl
  simpa using hnames

theorem list_eq (h : t.Reordered t') (ht : t.IsWellFormed) (ht' : t'.IsWellFormed)
    (hlist : t.list p = .ok (place, names)) : t'.list p = .ok (place, names) := by
  obtain ⟨hplace, hnode, rfl⟩ := list_eq_ok_iff.1 hlist
  exact list_eq_ok_iff.2 ⟨h.resolve_iff.2 hplace, h.directory_iff.2 hnode,
    (h.names_eq ht ht' place).symm⟩

/-! #### Source files -/

/-- **The source text of a file** is the same but for the order of import specs. -/
theorem exists_readSource (h : t.Reordered t') {src : String} (hsrc : t.readSource file = .ok src) :
    ∃ src', t'.readSource file = .ok src' ∧ ReordersImports src src' := by
  obtain ⟨c, hcontent, rfl⟩ := readSource_eq_ok_iff.1 hsrc
  obtain ⟨place, x, hplace, hnode⟩ := content_eq_ok_iff.1 hcontent
  have hplace' := h.resolve_iff.2 hplace
  rcases h.node place with hsame | ⟨c₁, x₁, c', x', hnode₁, hnode', hsrc⟩
  · exact ⟨c.readable, readSource_eq_ok_iff.2 ⟨c, content_eq_ok_iff.2 ⟨place, x, hplace',
      hsame.trans hnode⟩, rfl⟩, .refl _⟩
  · obtain ⟨rfl, rfl⟩ := Node.file.inj (Option.some.inj (hnode.symm.trans hnode₁))
    exact ⟨c'.readable, readSource_eq_ok_iff.2 ⟨c', content_eq_ok_iff.2 ⟨place, x', hplace',
      hnode'⟩, rfl⟩, hsrc⟩

theorem writtenIn_of_writtenIn (h : t.Reordered t') (hs : WrittenIn t file s) :
    WrittenIn t' file s := by
  obtain ⟨src, header, hsrc, hheader, hs⟩ := hs
  obtain ⟨src', hsrc', hreorders⟩ := h.exists_readSource hsrc
  obtain ⟨header', hheader', hspecs⟩ := hreorders.exists_header hheader
  exact ⟨src', header', hsrc', hheader', hspecs.mem_iff.2 hs⟩

/-- **The import paths in a file** are the same. -/
theorem writtenIn_iff (h : t.Reordered t') : WrittenIn t' file s ↔ WrittenIn t file s :=
  ⟨h.symm.writtenIn_of_writtenIn, h.writtenIn_of_writtenIn⟩

theorem writes_iff (h : t.Reordered t') {q : Package} : q.Writes t' s ↔ q.Writes t s :=
  exists_congr fun _ => and_congr_right fun _ => h.writtenIn_iff

/-! #### Import paths -/

theorem rootOf_eq (h : t.Reordered t') (place : Place) : rootOf t' place = rootOf t place := by
  rw [rootOf, rootOf, h.isDirectoryAt_eq]

theorem loadModule_eq (h : t.Reordered t') (place : Place) :
    t'.loadModule place.path = t.loadModule place.path :=
  loadModule_congr place.text_path_ne (fun _ => h.isFile_eq _) fun above hfile => by
    obtain ⟨place, node, hplace, hnode, -⟩ := isFile_iff_resolve.1 hfile
    have hnode' := (h.module above place hplace).trans hnode
    refine readText_congr ?_
    rw [find_eq_ok_iff.2 ⟨hplace, hnode⟩, find_eq_ok_iff.2 ⟨h.resolve_iff.2 hplace, hnode'⟩]

/-- **Import paths stand for the same places.** -/
theorem looksUpAlike {c : Discovery} (h : c.tree.Reordered t') : c.LooksUpAlike t' where
  locate := Locator.locate_congr h.isDirectory_eq (fun _ => h.isFile_eq _)
  resolve := fun _ _ _ => h.resolve_iff

end FileTree.Reordered

end GoPlanner

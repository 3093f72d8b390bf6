import GoPlanner.Proofs.FileTree.Reordered
import GoPlanner.Proofs.Graph.Agrees

/-!
# Reading With Import Specs in Another Order

Which package a directory holds, and which files are its own, is decided by package clauses and
constraint lines, not by the order of import specs. Only the order of the imports of the package
follows from it.

## Main definitions

* `GoFile.Reorders`: a Go file with its import specs in another order.

## Main results

* `FileTree.Reordered.exists_shows`: what a directory shows.
* `SourceDirectory.Selects.reordered`: the package that is selected.
* `FileTree.Reordered.exists_reads`: the package that is read.
-/

namespace GoPlanner

open Telling

/-! ### Files -/

/-- **A Go file with its import specs in another order.** -/
structure GoFile.Reorders (file file' : GoFile) : Prop where
  /-- The name is the same. -/
  name : file'.name = file.name
  /-- The text has its import specs in another order. -/
  src : ReordersImports file.src file'.src
  /-- The package is the same. -/
  package : file'.package = file.package

/-- Values that are found for all elements of a list can be replaced by related ones. -/
theorem exists_forall₂_of_map_some {α β γ : Type} {R : β → γ → Prop} {f : α → Option β}
    {f' : α → Option γ} (h : ∀ x y, f x = some y → ∃ y', f' x = some y' ∧ R y y') {xs : List α}
    {ys : List β} (hys : ys.map some = xs.map f) :
    ∃ ys', ys'.map some = xs.map f' ∧ List.Forall₂ R ys ys' := by
  induction xs generalizing ys with
  | nil =>
      obtain rfl := List.map_eq_nil_iff.1 hys
      exact ⟨[], rfl, .nil⟩
  | cons x xs ih =>
      obtain ⟨y, ys, rfl, hy, hrest⟩ := List.map_eq_cons_iff.1 hys
      obtain ⟨y', hy', hrel⟩ := h x y hy.symm
      obtain ⟨ys', hys', hrels⟩ := ih hrest
      exact ⟨y' :: ys', by rw [List.map_cons, List.map_cons, hys', hy'], .cons hrel hrels⟩

/-- What related elements agree about is the same for two lists of them. -/
theorem map_eq_of_forall₂ {α β γ : Type} {R : α → β → Prop} {f : α → γ} {f' : β → γ}
    (hf : ∀ x y, R x y → f' y = f x) {xs : List α} {ys : List β} (h : List.Forall₂ R xs ys) :
    ys.map f' = xs.map f := by
  induction h with
  | nil => rfl
  | cons hxy _ ih => rw [List.map_cons, List.map_cons, hf _ _ hxy, ih]

theorem exists_mem_of_forall₂ {α β : Type} {R : α → β → Prop} {xs : List α} {ys : List β}
    (h : List.Forall₂ R xs ys) {y : β} (hy : y ∈ ys) : ∃ x ∈ xs, R x y := by
  induction h with
  | nil => cases hy
  | cons hxy _ ih =>
      rcases List.mem_cons.1 hy with rfl | hy
      · exact ⟨_, List.mem_cons_self, hxy⟩
      · obtain ⟨x, hx, hrel⟩ := ih hy
        exact ⟨x, List.mem_cons_of_mem _ hx, hrel⟩

namespace FileTree.Reordered

variable {t t' : FileTree} {d : SourceDirectory} {target : Target} {name package : String}
  {file : GoFile} {files files' : List GoFile} {asmNames : List String}

/-- **A Go file** is there in both trees. -/
theorem exists_goFile (h : t.Reordered t') (hfile : d.goFile? t name = some file) :
    ∃ file', d.goFile? t' name = some file' ∧ file.Reorders file' := by
  obtain ⟨rfl, header, hsrc, hheader, hpackage, -⟩ := SourceDirectory.goFile?_eq_some_iff.1 hfile
  obtain ⟨src', hsrc', hreorders⟩ := h.exists_readSource hsrc
  obtain ⟨header', hheader', hspecs⟩ := hreorders.exists_header hheader
  refine ⟨⟨file.name, src', header'.package, header'.imports.map (·.path)⟩,
    SourceDirectory.goFile?_eq_some_iff.2 ⟨rfl, header', hsrc', hheader', rfl, rfl⟩, rfl,
    hreorders, ?_⟩
  exact hspecs.package.trans hpackage.symm

theorem namesOf_eq (h : t.Reordered t') (d : SourceDirectory) (kind : FileKind)
    (names : List String) : d.namesOf t' kind names = d.namesOf t kind names := by
  rw [SourceDirectory.namesOf, SourceDirectory.namesOf]
  simp only [h.isFile_eq]

/-- **What a directory shows** is the same, but for the order of import specs. -/
theorem exists_shows (h : t.Reordered t') (ht : t.IsWellFormed) (ht' : t'.IsWellFormed)
    (hshows : d.Shows t files asmNames) :
    ∃ files', d.Shows t' files' asmNames ∧ List.Forall₂ GoFile.Reorders files files' := by
  cases hshows with
  | only honly hfile =>
      obtain ⟨file', hfile', hreorders⟩ := h.exists_goFile hfile
      exact ⟨_, .only honly hfile', .cons ⟨hreorders.name, hreorders.src, rfl⟩ .nil⟩
  | @all place names _ hall hlist hfiles =>
      obtain ⟨files', hfiles', hreorders⟩ :=
        exists_forall₂_of_map_some (fun _ _ hgo => h.exists_goFile hgo) hfiles
      rw [← h.namesOf_eq] at hfiles'
      refine ⟨files', ?_, hreorders⟩
      rw [← h.namesOf_eq]
      exact .all hall (h.list_eq ht ht' hlist) hfiles'

theorem admits_eq (h : t.Reordered t') (target : Target) (directory : Path) (name : String) :
    t'.admits target directory name = t.admits target directory name := by
  have hadmits {t t' : FileTree} (h : t.Reordered t')
      (hadmits : t.admits target directory name = true) :
      t'.admits target directory name = true := by
    rw [FileTree.admits, Option.any_eq_true] at hadmits ⊢
    obtain ⟨src, hsrc, hadmits⟩ := hadmits
    obtain ⟨src', hsrc', hreorders⟩ := h.exists_readSource (ok_of_toOption hsrc)
    exact ⟨src', by rw [hsrc']; rfl, by rwa [hreorders.admits_eq]⟩
  exact Bool.eq_iff_iff.2 ⟨hadmits h.symm, hadmits h⟩

end FileTree.Reordered

/-! ### Packages -/

namespace SourceDirectory

variable {t t' : FileTree} {d : SourceDirectory} {target : Target} {package : String}
  {files files' : List GoFile} {asmNames : List String}

/-- Only the package clauses decide which package is meant. -/
theorem meantPackage_congr (h : files'.map (·.package) = files.map (·.package)) :
    d.meantPackage (files'.filter (fun file => d.canMean file.package)) =
      d.meantPackage (files.filter (fun file => d.canMean file.package)) := by
  have hfilter (files : List GoFile) :
      (files.filter (fun file => d.canMean file.package)).map (·.package) =
        (files.map (·.package)).filter d.canMean := by
    rw [List.filter_map]
    rfl
  rw [meantPackage, meantPackage, hfilter, hfilter, h]

/-- **The package that is selected** is the same. -/
theorem Selects.reordered (hselects : d.Selects t target files asmNames package)
    (h : t.Reordered t') (hfiles : List.Forall₂ GoFile.Reorders files files') :
    d.Selects t' target files' asmNames package where
  meant := by
    rw [← hselects.meant]
    exact meantPackage_congr (map_eq_of_forall₂ (fun _ _ hfile => hfile.package) hfiles)
  goFiles := by
    intro file' hfile' hpackage
    obtain ⟨file, hfile, hreorders⟩ := exists_mem_of_forall₂ hfiles hfile'
    rw [hreorders.name]
    exact hreorders.src.decides (hselects.goFiles file hfile (hreorders.package.symm.trans hpackage))
  asmFiles := by
    intro name hname
    obtain ⟨src, hsrc, hdecides⟩ := hselects.asmFiles name hname
    obtain ⟨src', hsrc', hreorders⟩ := h.exists_readSource hsrc
    exact ⟨src', hsrc', hreorders.decides hdecides⟩

/-- The Go files of the package are the same. -/
theorem names_goFilesOf_eq (hfiles : List.Forall₂ GoFile.Reorders files files') :
    (goFilesOf target package files').map (·.name) =
      (goFilesOf target package files).map (·.name) := by
  have hkept : List.Forall₂ GoFile.Reorders (goFilesOf target package files)
      (goFilesOf target package files') := by
    refine List.rel_filter (fun file file' hfile => ?_) hfiles
    dsimp only
    rw [hfile.package, hfile.name, hfile.src.admits_eq]
  exact map_eq_of_forall₂ (fun _ _ hfile => hfile.name) hkept

end SourceDirectory

/-- The same import paths are written in them. -/
theorem Package.Resembles.writes_iff {p q : Package} (h : p.Resembles q) {t : FileTree}
    {s : String} : q.Writes t s ↔ p.Writes t s := by
  rw [Package.Writes, Package.Writes, h.goPaths]

/-- **The package that is read** in a directory is the same, but for the order of its imports. -/
theorem FileTree.Reordered.exists_reads {c : Discovery} {t' : FileTree} {a : Arrival}
    {isRoot : Bool} {p : Package} {imports : List String} (h : c.tree.Reordered t')
    (ht : c.tree.IsWellFormed) (ht' : t'.IsWellFormed) (hread : c.Reads a isRoot p imports) :
    ∃ q imports', (c.inTree t').Reads a isRoot q imports' ∧ p.Resembles q := by
  obtain ⟨contents, hread, rfl, rfl⟩ := hread
  obtain ⟨files, asmNames, hshows, hselects, hcontents⟩ := SourceDirectory.exists_of_read hread
  obtain ⟨files', hshows', hfiles⟩ := h.exists_shows ht ht' hshows
  have hread' := SourceDirectory.answers_read hshows' (hselects.reordered h hfiles)
  refine ⟨_, _, ⟨_, hread'.ends, rfl, rfl⟩, ?_⟩
  have hgo : (SourceDirectory.goFilesOf c.target contents.name files').map (·.name) =
      (SourceDirectory.goFilesOf c.target contents.name files).map (·.name) :=
    SourceDirectory.names_goFilesOf_eq hfiles
  have hasm : asmNames.filter (t'.admits c.target a.directory) =
      asmNames.filter (c.tree.admits c.target a.directory) :=
    List.filter_congr fun name _ => h.admits_eq c.target a.directory name
  have hgoFiles : contents.goFiles =
      (SourceDirectory.goFilesOf c.target contents.name files).map (·.name) :=
    congrArg Contents.goFiles hcontents
  have hasmFiles : contents.asmFiles = asmNames.filter (c.tree.admits c.target a.directory) :=
    congrArg Contents.asmFiles hcontents
  exact ⟨rfl, hgo.trans hgoFiles.symm, hasm.trans hasmFiles.symm,
    congrArg (List.map a.directory.child) (hgo.trans hgoFiles.symm)⟩

end GoPlanner

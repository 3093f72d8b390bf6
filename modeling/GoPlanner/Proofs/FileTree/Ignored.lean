import GoPlanner.Proofs.Discovery.Alike
import GoPlanner.Proofs.FileTree.Found

/-!
# File Trees That Differ in Ignored Files

No target admits a source file whose name begins with an underscore or a dot. Two file trees that
differ in such files only, to which no other path leads, have the same directories, archives and
module files, and the same files under all other names.

## Main definitions

* `isIgnoredName`: names of source files that no target admits.
* `FileTree.DiffersInIgnored`: file trees that differ in files with such names.

## Main results

* `FileTree.DiffersInIgnored.symm`: the relation is symmetric.
* `FileTree.DiffersInIgnored.find_child_iff`, `FileTree.DiffersInIgnored.filter_names_eq`: all
  other files are the same.
* `FileTree.DiffersInIgnored.looksUpAlike`: import paths stand for the same places.
-/

namespace GoPlanner

/-! ### Ignored names -/

/-- **Names that are ignored:** those of Go files and of assembly files that begin with an
underscore or a dot. -/
def isIgnoredName (name : String) : Bool :=
  (startsWith "_" name || startsWith "." name) && (endsWith ".go" name || endsWith ".s" name)

/-- **No target includes** a file with an ignored name, whatever is in it. -/
theorem Target.includes_of_isIgnoredName {name : String} (h : isIgnoredName name = true)
    (target : Target) (src : String) : target.includes name src = .ok false := by
  rw [isIgnoredName, Bool.and_eq_true, Bool.or_eq_true] at h
  have hname : target.fitsName name = false := by
    rcases h.1 with hstart | hstart <;> simp [fitsName, hstart]
  rw [includes, hname]
  rfl

theorem Target.admits_of_isIgnoredName {name : String} (h : isIgnoredName name = true)
    (target : Target) (src : String) : target.admits name src = false := by
  rw [admits, includes_of_isIgnoredName h]
  simp [Except.toOption]

theorem Target.decides_of_isIgnoredName {name : String} (h : isIgnoredName name = true)
    (target : Target) (src : String) : target.Decides name src :=
  Or.inr ⟨false, includes_of_isIgnoredName h target src⟩

/-- Names of Go files and of assembly files are plain. -/
theorem isPlain_of_ofName {name : String} (hslash : '/' ∉ name.toList)
    (hkind : FileKind.ofName name ≠ .unrelated) : IsPlain name where
  slash := hslash
  idle := by
    cases hidle : Path.isIdle name with
    | false => rfl
    | true =>
        rw [Path.isIdle, Bool.or_eq_true, beq_iff_eq, beq_iff_eq] at hidle
        rcases hidle with rfl | rfl <;> exact absurd (by decide) hkind
  up := by
    rintro rfl
    exact absurd (by decide) hkind

/-- Archives are no source files. -/
theorem isIgnoredName_archive (s : String) : isIgnoredName (s ++ ".a") = false := by
  simp [isIgnoredName, endsWith, List.isSuffixOf, List.isPrefixOf]

/-- The path of an archive is that of an entry with the name of an archive. -/
theorem Path.exists_descend_archive (base : Path) (s : String) :
    ∃ (above : Path) (name : String), base.descend (s ++ ".a") = above.child (name ++ ".a") ∧
      '/' ∉ (name ++ ".a").toList := by
  by_cases hslash : '/' ∈ s.toList
  · obtain ⟨before, last, hchars, hlast⟩ := exists_last_of_mem hslash
    have htext : s ++ ".a" = String.ofList before ++ "/" ++ (String.ofList last ++ ".a") := by
      rw [← String.toList_inj]
      simp [hchars]
    have hname : '/' ∉ (String.ofList last ++ ".a").toList := by simpa using hlast
    refine ⟨base.descend (String.ofList before), String.ofList last, ?_, hname⟩
    rw [descend, descend, htext, pieces_append, pieces_eq_singleton hname, List.filter_append,
      List.foldl_append]
    simp
  · have hname : '/' ∉ (s ++ ".a").toList := by simpa using hslash
    refine ⟨base, s, ?_, hname⟩
    rw [descend, pieces_eq_singleton hname]
    simp

/-! ### File trees -/

/-- **A place for an ignored file:** its name is ignored, and nothing but files stands there. -/
def IsIgnoredPlace (t t' : FileTree) (place : Place) : Prop :=
  ∃ directory name, place = directory ++ [name] ∧ isIgnoredName name = true ∧
    (∀ node, t.node? place = some node → node.isFile = true) ∧
    ∀ node, t'.node? place = some node → node.isFile = true

/-- **A file tree that differs in ignored files.** Times are of no account. -/
structure FileTree.DiffersInIgnored (t t' : FileTree) : Prop where
  /-- The working directory is the same. -/
  cwd : t'.cwd = t.cwd
  /-- What stands at a place is the same, unless it is one for an ignored file. -/
  node : ∀ place, t'.node? place = t.node? place ∨ IsIgnoredPlace t t' place
  /-- Paths with other names do not lead to such a place, as a link could. -/
  unlinked : ∀ (directory : Path) (name : String) (place : Place), IsPlain name →
    isIgnoredName name = false →
    t.resolve (directory.child name) = .ok place ∨ t'.resolve (directory.child name) = .ok place →
    t'.node? place = t.node? place

namespace FileTree.DiffersInIgnored

variable {t t' : FileTree} {place : Place} {p directory : Path} {name src : String} {node : Node}

/-- **The relation is symmetric.** -/
theorem symm (h : t.DiffersInIgnored t') : t'.DiffersInIgnored t where
  cwd := h.cwd.symm
  node := by
    intro place
    refine (h.node place).imp Eq.symm ?_
    rintro ⟨directory, name, hplace, hname, hfile, hfile'⟩
    exact ⟨directory, name, hplace, hname, hfile', hfile⟩
  unlinked := fun directory name place hname hignored hresolve =>
    (h.unlinked directory name place hname hignored hresolve.symm).symm

theorem spares (h : t.DiffersInIgnored t') : Spares t t' where
  cwd := h.cwd
  node := by
    intro place node hnode
    rcases h.node place with hsame | ⟨directory, name, -, -, hfile, hfile'⟩
    · exact Or.inl (hsame.trans hnode)
    · exact Or.inr ⟨hfile node hnode, hfile'⟩

/-! #### What paths lead to -/

/-- A path leads to a place where the same stands in one tree if it does in the other. -/
theorem resolve_iff (h : t.DiffersInIgnored t') (hsame : t'.node? place = t.node? place) :
    t'.resolve p = .ok place ↔ t.resolve p = .ok place :=
  h.spares.resolve_iff h.symm.spares hsame

theorem directory_iff (h : t.DiffersInIgnored t') :
    t'.node? place = some .directory ↔ t.node? place = some .directory :=
  h.spares.directory_iff h.symm.spares

theorem isDirectoryAt_eq (h : t.DiffersInIgnored t') (place : Place) :
    t'.isDirectoryAt place = t.isDirectoryAt place :=
  h.spares.isDirectoryAt_eq h.symm.spares place

theorem resolve_directory (h : t.DiffersInIgnored t') (hplace : t.resolve p = .ok place)
    (hdir : t.node? place = some .directory) : t'.resolve p = .ok place :=
  h.spares.resolve_directory hplace hdir

theorem isDirectory_eq (h : t.DiffersInIgnored t') (p : Path) :
    t'.isDirectory p = t.isDirectory p :=
  h.spares.isDirectory_eq h.symm.spares p

/-- **Paths with names that are not ignored** lead to the same. -/
theorem find_child_iff (h : t.DiffersInIgnored t') (hname : IsPlain name)
    (hignored : isIgnoredName name = false) :
    t'.find (directory.child name) = .ok (place, node) ↔
      t.find (directory.child name) = .ok (place, node) := by
  have hfind {t t' : FileTree} (h : t.DiffersInIgnored t')
      (hfind : t.find (directory.child name) = .ok (place, node)) :
      t'.find (directory.child name) = .ok (place, node) := by
    obtain ⟨hplace, hnode⟩ := find_eq_ok_iff.1 hfind
    have hsame := h.unlinked directory name place hname hignored (Or.inl hplace)
    exact find_eq_ok_iff.2 ⟨(h.resolve_iff hsame).2 hplace, hsame.trans hnode⟩
  exact ⟨hfind h.symm, hfind h⟩

theorem isFile_child_eq (h : t.DiffersInIgnored t') (hname : IsPlain name)
    (hignored : isIgnoredName name = false) :
    t'.isFile (directory.child name) = t.isFile (directory.child name) := by
  rw [Bool.eq_iff_iff, isFile_iff_resolve, isFile_iff_resolve]
  simp only [← and_assoc, ← find_eq_ok_iff, h.find_child_iff hname hignored]

theorem readSource_child_iff (h : t.DiffersInIgnored t') (hname : IsPlain name)
    (hignored : isIgnoredName name = false) :
    t'.readSource (directory.child name) = .ok src ↔
      t.readSource (directory.child name) = .ok src := by
  simp only [readSource_eq_ok_iff, content_eq_ok_iff, ← find_eq_ok_iff,
    h.find_child_iff hname hignored]

/-- **Names that are not ignored** are the same in every directory. -/
theorem filter_names_eq (h : t.DiffersInIgnored t') (ht : t.IsWellFormed) (ht' : t'.IsWellFormed)
    (place : Place) : (t'.names place).filter (fun name => !isIgnoredName name) =
      (t.names place).filter (fun name => !isIgnoredName name) := by
  refine ht.filter_names_congr ht' fun name hname => ?_
  rcases h.node (place ++ [name]) with hsame | ⟨directory, other, hplace, hother, -⟩
  · rw [hsame]
  · obtain rfl : name = other := (List.cons.inj (List.append_inj' hplace rfl).2).1
    simp [hother] at hname

/-! #### Import paths -/

theorem rootOf_eq (h : t.DiffersInIgnored t') (place : Place) : rootOf t' place = rootOf t place := by
  rw [rootOf, rootOf, h.isDirectoryAt_eq]

theorem loadModule_eq (h : t.DiffersInIgnored t') (place : Place) :
    t'.loadModule place.path = t.loadModule place.path := by
  have hname : IsPlain moduleFileName :=
    isPlain_of_mem (c := 'g') (by decide) (by decide) (by decide)
  have hignored : isIgnoredName moduleFileName = false := by decide +kernel
  refine loadModule_congr place.text_path_ne (fun _ => h.isFile_child_eq hname hignored) ?_
  intro above hfile
  obtain ⟨place, node, hplace, hnode, -⟩ := isFile_iff_resolve.1 hfile
  have hfind := find_eq_ok_iff.2 ⟨hplace, hnode⟩
  exact readText_congr (((h.find_child_iff hname hignored).2 hfind).trans hfind.symm)

/-- **Import paths stand for the same places.** -/
theorem looksUpAlike {c : Discovery} (h : c.tree.DiffersInIgnored t') : c.LooksUpAlike t' where
  locate := by
    refine Locator.locate_congr h.isDirectory_eq fun s => ?_
    obtain ⟨above, name, hpath, hslash⟩ := Path.exists_descend_archive c.locator.target.archiveDir s
    rw [hpath]
    exact h.isFile_child_eq (isPlain_of_mem (c := 'a') hslash (by simp) (by decide))
      (isIgnoredName_archive name)
  resolve := by
    intro directory place hdir
    obtain ⟨other, hother, hnode⟩ := isDirectory_iff_resolve.1 hdir
    rw [h.resolve_directory hother hnode, hother]

end FileTree.DiffersInIgnored

end GoPlanner

import GoPlanner.Proofs.FileTree.Ignored
import GoPlanner.Proofs.FileTree.Rooted
import GoPlanner.Proofs.Layout
import GoPlanner.Proofs.Path.Extension

/-!
# File Trees That Differ Beside a File

The siblings of a file are the other source files in its directory. Two file trees may differ in
siblings of one file, whether they are there and what is in them, as long as no link leads to those
that differ. Then every path that does not go through that directory to a name of such a file leads
to the same in both. So directories, module files and archives are the same, and so is whatever
stands in other directories, with the times of its changes.

## Main definitions

* `IsSibling`: places for other source files in the directory of a file.
* `FileTree.DiffersBeside`: file trees that differ in siblings of a file.

## Main results

* `FileTree.DiffersBeside.symm`: the relation is symmetric.
* `FileTree.DiffersBeside.entry_of_unrelated`, `FileTree.DiffersBeside.entry_of_elsewhere`: paths
  that do not lead to siblings.
* `FileTree.DiffersBeside.usableArchive?_eq`: archives can be used in both trees.
-/

namespace GoPlanner

/-! ### Names of other files -/

/-- A name that ends in a dot and an extension has that extension, or none. -/
theorem extension?_append (name : String) {extension : String} (hdot : '.' ∉ extension.toList) :
    extension? (name ++ "." ++ extension) = none ∨
      extension? (name ++ "." ++ extension) = some extension := by
  rw [extension?, splitExtension?, splitOn_append_extension name hdot]
  split
  · exact Or.inl rfl
  · exact Or.inr (by simp)

/-- Archives are no source files. -/
theorem ofName_archive (name : String) : FileKind.ofName (name ++ ".a") = .unrelated := by
  have hname : name ++ ".a" = name ++ "." ++ "a" := by rw [String.append_assoc]; rfl
  rw [hname, FileKind.ofName]
  have hdot : '.' ∉ "a".toList := by decide
  rcases extension?_append name hdot with h | h
  · rw [h]
    rfl
  · rw [h]
    decide +kernel

/-- Nor are module files. -/
theorem ofName_moduleFileName : FileKind.ofName moduleFileName = .unrelated := by
  decide +kernel

/-! ### File trees -/

/-- **A sibling** of a file: a place for another source file in the directory of the file. -/
def IsSibling (file place : Place) : Prop :=
  ∃ name, place = file.dropLast ++ [name] ∧ place ≠ file ∧ FileKind.ofName name ≠ .unrelated

namespace FileTree

/-- **No link leads to a place.** -/
def IsUnlinked (t : FileTree) (place : Place) : Prop :=
  ∀ (other : Place) (target : Path) (links : Nat), t.node? other = some (.link target) →
    t.follow links (startOf other.dropLast target) (stepsOf target) ≠ .ok place

/-- **A bystander** of a file: nothing but a file stands there, and no link leads there. -/
structure IsBystander (t : FileTree) (file place : Place) : Prop where
  /-- The place is that of a sibling. -/
  sibling : IsSibling file place
  /-- What stands there is a file. -/
  isFile : ∀ node, t.node? place = some node → node.isFile = true
  /-- It is not the target of a link. -/
  unlinked : t.IsUnlinked place

/-- **File trees that differ beside a file.** -/
structure DiffersBeside (t : FileTree) (file : Place) (t' : FileTree) : Prop where
  /-- The working directory is the same. -/
  cwd : t'.cwd = t.cwd
  /-- So is the entry at every place, with its time, except at bystanders. -/
  entry : ∀ place, t'.entry? place = t.entry? place ∨
    t.IsBystander file place ∧ t'.IsBystander file place

variable {t t' : FileTree} {file place here other : Place} {p : Path} {name : String} {links : Nat}

/-! #### Ways without links at their end -/

/-- Following steps is walking, and behind a link steps are followed again. -/
theorem exists_jump (t : FileTree) (links : Nat) :
    ∃ jump, t.follow links = t.walk jump ∧ ∀ here steps place, jump here steps = .ok place →
      ∃ n, t.follow n here steps = .ok place := by
  cases links with
  | zero => exact ⟨_, rfl, fun _ _ _ hjump => by cases hjump⟩
  | succ links => exact ⟨_, rfl, fun _ _ _ hjump => ⟨links, hjump⟩⟩

/-- A name leads to the entry of a directory, unless a link leads there. -/
theorem follow_name_of_isUnlinked (hname : IsPlain name) (hplace : t.IsUnlinked place)
    (h : t.follow links here [name] = .ok place) : place = here ++ [name] := by
  obtain ⟨jump, hwalk, hjump⟩ := t.exists_jump links
  rw [hwalk] at h
  obtain ⟨-, ⟨hidle, -⟩ | ⟨-, hup, -⟩ | ⟨-, -, -, node, hnode, ⟨target, rfl, hrest⟩ | ⟨-, hend⟩⟩⟩ :=
    walk_cons_ok.1 h
  · exact absurd hidle (by simp [hname.idle])
  · exact absurd hup hname.up
  · obtain ⟨n, hlink⟩ := hjump _ _ _ hrest
    refine absurd ?_ (hplace (here ++ [name]) target n hnode)
    rw [List.dropLast_concat]
    rwa [List.append_nil] at hlink
  · rw [← hwalk] at hend
    exact (follow_nil_ok.1 hend).1.symm

/-- **The path of an entry** leads to an entry of that name, unless a link leads there. -/
theorem exists_eq_append_of_isUnlinked (hname : IsPlain name) (hplace : t.IsUnlinked place)
    (h : t.resolve (p.child name) = .ok place) : ∃ directory, place = directory ++ [name] := by
  rw [resolve] at h
  split at h
  · cases h
  by_cases hp : p.text = ""
  · have hchild : p.child name = ⟨name⟩ := by simp [Path.child, Path.join, hp]
    rw [hchild, stepsOf, pieces_eq_singleton hname.slash] at h
    exact ⟨_, follow_name_of_isUnlinked hname hplace h⟩
  · obtain ⟨before, -, -, hsteps, -⟩ := Path.exists_pieces_child hp hname.slash
    rw [stepsOf, hsteps] at h
    obtain ⟨n, middle, hmiddle⟩ := follow_append h
    rw [hmiddle] at h
    exact ⟨_, follow_name_of_isUnlinked hname hplace h⟩

/-- The path of an entry of a place leads to that entry, unless a link leads there. -/
theorem eq_append_of_isUnlinked (ht : t.IsRooted) (hdir : t.node? here = some .directory)
    (hname : IsPlain name) (hplace : t.IsUnlinked place)
    (h : t.resolve (here.path.child name) = .ok place) : place = here ++ [name] := by
  obtain ⟨node, hnode⟩ := Option.isSome_iff_exists.1 (isSome_of_resolve h)
  obtain ⟨directory, hfind⟩ := isDirectory_iff.1 (isDirectory_of_find_child here.text_path_ne
    hname.slash hname.ne_empty (find_eq_ok_iff.2 ⟨h, hnode⟩))
  have hreached := (find_eq_ok_iff.1 hfind).1
  rw [ht.resolve_path hdir rfl] at hreached
  obtain rfl := Place.eq_of_reached hreached
  obtain ⟨before, n, hsteps, hfollow⟩ := exists_stepsOf_child hfind hname
  rw [resolve] at h
  split at h
  · cases h
  · rw [hsteps, hfollow] at h
    exact follow_name_of_isUnlinked hname hplace h

namespace DiffersBeside

/-- **The relation is symmetric.** -/
theorem symm (h : t.DiffersBeside file t') : t'.DiffersBeside file t :=
  ⟨h.cwd.symm, fun place => (h.entry place).imp Eq.symm And.symm⟩

theorem node (h : t.DiffersBeside file t') (place : Place) :
    t'.node? place = t.node? place ∨ t.IsBystander file place ∧ t'.IsBystander file place :=
  (h.entry place).imp_left fun hsame => by rw [node?, node?, hsame]

theorem spares (h : t.DiffersBeside file t') : Spares t t' where
  cwd := h.cwd
  node := by
    intro place node hnode
    rcases h.node place with hsame | ⟨hby, hby'⟩
    · exact Or.inl (hsame.trans hnode)
    · exact Or.inr ⟨hby.isFile node hnode, hby'.isFile⟩

/-! #### Paths to other places -/

/-- Away from siblings nothing differs. -/
theorem entry_of_not_isSibling (h : t.DiffersBeside file t') (hplace : ¬ IsSibling file place) :
    t'.entry? place = t.entry? place :=
  (h.entry place).resolve_right fun hby => hplace hby.1.sibling

theorem node_of_entry (hentry : t'.entry? place = t.entry? place) :
    t'.node? place = t.node? place := by
  rw [node?, node?, hentry]

/-- **Names of other kinds** lead to no sibling. -/
theorem entry_of_unrelated (h : t.DiffersBeside file t') (hname : IsPlain name)
    (hkind : FileKind.ofName name = .unrelated) (hplace : t.resolve (p.child name) = .ok place) :
    t'.entry? place = t.entry? place := by
  refine (h.entry place).resolve_right ?_
  rintro ⟨⟨⟨sibling, hsibling, -, hsource⟩, -, hunlinked⟩, -⟩
  obtain ⟨directory, hentry⟩ := exists_eq_append_of_isUnlinked hname hunlinked hplace
  obtain rfl : name = sibling :=
    (List.cons.inj (List.append_inj' (hentry.symm.trans hsibling) rfl).2).1
  exact hsource hkind

/-- **Entries of other directories** are no siblings, and neither is what they lead to. -/
theorem entry_of_elsewhere (h : t.DiffersBeside file t') (ht : t.IsRooted)
    (hdir : t.node? here = some .directory) (hhere : here ≠ file.dropLast) (hname : IsPlain name)
    (hplace : t.resolve (here.path.child name) = .ok place) :
    t'.entry? place = t.entry? place := by
  refine (h.entry place).resolve_right ?_
  rintro ⟨⟨⟨sibling, hsibling, -, -⟩, -, hunlinked⟩, -⟩
  have hentry := eq_append_of_isUnlinked ht hdir hname hunlinked hplace
  exact hhere (List.append_inj' (hentry.symm.trans hsibling) rfl).1

/-- The file is no sibling of its own. -/
theorem node_file (h : t.DiffersBeside file t') : t'.node? file = t.node? file :=
  node_of_entry (h.entry_of_not_isSibling fun ⟨_, _, hne, _⟩ => hne rfl)

/-- A path that leads to no sibling leads to the same in both trees. -/
theorem find_congr (h : t.DiffersBeside file t')
    {node : Node} (hplace : ∀ place, t.resolve p = .ok place → t'.entry? place = t.entry? place)
    (hfind : t.find p = .ok (place, node)) : t'.find p = .ok (place, node) := by
  obtain ⟨hresolve, hnode⟩ := find_eq_ok_iff.1 hfind
  have hsame := node_of_entry (hplace place hresolve)
  exact find_eq_ok_iff.2 ⟨(h.spares.resolve_iff h.symm.spares hsame).2 hresolve, hsame.trans hnode⟩

/-! #### Names of other kinds -/

section Unrelated

variable (hname : IsPlain name) (hkind : FileKind.ofName name = .unrelated)

include hname hkind

theorem find_unrelated_iff (h : t.DiffersBeside file t') {node : Node} :
    t'.find (p.child name) = .ok (place, node) ↔ t.find (p.child name) = .ok (place, node) :=
  ⟨h.symm.find_congr fun _ => h.symm.entry_of_unrelated hname hkind,
    h.find_congr fun _ => h.entry_of_unrelated hname hkind⟩

theorem isFile_unrelated_eq (h : t.DiffersBeside file t') :
    t'.isFile (p.child name) = t.isFile (p.child name) := by
  rw [Bool.eq_iff_iff, isFile_iff_resolve, isFile_iff_resolve]
  simp only [← and_assoc, ← find_eq_ok_iff, h.find_unrelated_iff hname hkind]

/-- The time of the last change is the same. -/
theorem modified_unrelated (h : t.DiffersBeside file t') {time : Int}
    (hmodified : t.modified (p.child name) = .ok time) : t'.modified (p.child name) = .ok time := by
  rw [modified] at hmodified ⊢
  cases hplace : t.resolve (p.child name) with
  | error fault =>
      rw [hplace] at hmodified
      cases hmodified
  | ok place =>
      have hentry := h.entry_of_unrelated hname hkind hplace
      rw [hplace] at hmodified
      rw [(h.spares.resolve_iff h.symm.spares (node_of_entry hentry)).2 hplace]
      dsimp only at hmodified ⊢
      rw [hentry, hmodified]

end Unrelated

/-- **The module** of a directory is the same. -/
theorem loadModule_eq (h : t.DiffersBeside file t') (place : Place) :
    t'.loadModule place.path = t.loadModule place.path := by
  have hname : IsPlain moduleFileName :=
    isPlain_of_mem (c := 'g') (by decide) (by decide) (by decide)
  refine loadModule_congr place.text_path_ne
    (fun _ => h.isFile_unrelated_eq hname ofName_moduleFileName) fun above hfile => ?_
  obtain ⟨place, node, hplace, hnode, -⟩ := isFile_iff_resolve.1 hfile
  have hfind := find_eq_ok_iff.2 ⟨hplace, hnode⟩
  exact readText_congr
    (((h.find_unrelated_iff hname ofName_moduleFileName).2 hfind).trans hfind.symm)

/-- **Import paths stand for the same places.** -/
theorem looksUpAlike {c : Discovery} (h : c.tree.DiffersBeside file t') : c.LooksUpAlike t' where
  locate := by
    refine Locator.locate_congr (h.spares.isDirectory_eq h.symm.spares) fun s => ?_
    obtain ⟨above, name, hpath, hslash⟩ := Path.exists_descend_archive c.locator.target.archiveDir s
    rw [hpath]
    exact h.isFile_unrelated_eq (isPlain_of_mem (c := 'a') hslash (by simp) (by decide))
      (ofName_archive name)
  resolve := by
    intro directory place hdir
    obtain ⟨other, hother, hnode⟩ := isDirectory_iff_resolve.1 hdir
    rw [h.spares.resolve_directory hother hnode, hother]

/-! #### Other directories -/

section Elsewhere

variable (hdir : t.node? here = some .directory) (hhere : here ≠ file.dropLast)

include hhere in
/-- Entries of other directories are the same, with their times. -/
theorem entry_append (h : t.DiffersBeside file t') (name : String) :
    t'.entry? (here ++ [name]) = t.entry? (here ++ [name]) := by
  refine h.entry_of_not_isSibling ?_
  rintro ⟨sibling, hsibling, -, -⟩
  exact hhere (List.append_inj' hsibling rfl).1

include hhere in
theorem names_eq (h : t.DiffersBeside file t') (ht : t.IsRooted) (ht' : t'.IsRooted) :
    t'.names here = t.names here := by
  have hnames : (t'.names here).filter (fun _ => true) = (t.names here).filter (fun _ => true) :=
    ht.toIsWellFormed.filter_names_congr ht'.toIsWellFormed fun name _ => by
      rw [node_of_entry (h.entry_append hhere name)]
  simpa using hnames

include hdir hhere

/-- **Other directories** are listed alike, or refused alike. -/
theorem list_path_eq (h : t.DiffersBeside file t') (ht : t.IsRooted) (ht' : t'.IsRooted) :
    t'.list here.path = t.list here.path := by
  have hdir' := h.spares.directory hdir
  rw [list, list, find, find, ht.resolve_path hdir rfl, ht'.resolve_path hdir' rfl]
  cases hreached : here.reached with
  | error fault => rfl
  | ok place =>
      obtain rfl := Place.eq_of_reached hreached
      simp only [hdir, hdir', h.names_eq hhere ht ht']

/-- What the names in other directories lead to is the same. -/
theorem find_elsewhere_iff (h : t.DiffersBeside file t') (ht : t.IsRooted) (ht' : t'.IsRooted)
    (hname : IsPlain name) {node : Node} :
    t'.find (here.path.child name) = .ok (place, node) ↔
      t.find (here.path.child name) = .ok (place, node) :=
  ⟨h.symm.find_congr fun _ =>
      h.symm.entry_of_elsewhere ht' (h.spares.directory hdir) hhere hname,
    h.find_congr fun _ => h.entry_of_elsewhere ht hdir hhere hname⟩

theorem isFile_elsewhere_eq (h : t.DiffersBeside file t') (ht : t.IsRooted) (ht' : t'.IsRooted)
    (hname : IsPlain name) :
    t'.isFile (here.path.child name) = t.isFile (here.path.child name) := by
  rw [Bool.eq_iff_iff, isFile_iff_resolve, isFile_iff_resolve]
  simp only [← and_assoc, ← find_eq_ok_iff, h.find_elsewhere_iff hdir hhere ht ht' hname]

/-- **Files in other directories** have the same text. -/
theorem readSource_elsewhere_eq (h : t.DiffersBeside file t') (ht : t.IsRooted) (ht' : t'.IsRooted)
    (hname : IsPlain name) (hfile : t.isFile (here.path.child name) = true) :
    t'.readSource (here.path.child name) = t.readSource (here.path.child name) := by
  obtain ⟨place, node, hplace, hnode, -⟩ := isFile_iff_resolve.1 hfile
  have hfind := find_eq_ok_iff.2 ⟨hplace, hnode⟩
  have hfind' := (h.find_elsewhere_iff hdir hhere ht ht' hname).2 hfind
  rw [readSource, readSource, content, content, hfind, hfind']

/-- **The archive of another directory** can be used in both trees, or in none. -/
theorem usableArchive?_eq (h : t.DiffersBeside file t') (ht : t.IsRooted) (ht' : t'.IsRooted)
    (layout : Layout) (importPath : String) :
    t'.usableArchive? layout importPath here.path =
      t.usableArchive? layout importPath here.path := by
  have hname : IsPlain (Artifact.archive importPath).name := Artifact.isPlain_name (by simp)
  have hkind : FileKind.ofName (Artifact.archive importPath).name = .unrelated := ofName_archive _
  have harchive : layout.archive importPath =
      layout.base.child (Artifact.archive importPath).name := rfl
  unfold usableArchive?
  rw [h.list_path_eq hdir hhere ht ht', harchive]
  cases hlist : t.list here.path with
  | error fault => cases t.modified _ <;> cases t'.modified _ <;> rfl
  | ok found =>
      obtain ⟨place, names⟩ := found
      obtain ⟨hplace, -, -⟩ := list_eq_ok_iff.1 hlist
      rw [ht.resolve_path hdir rfl] at hplace
      obtain rfl := Place.eq_of_reached hplace
      have hnewer (time : Int) : t'.isNewerInside place time = t.isNewerInside place time := by
        simp only [isNewerInside, h.names_eq hhere ht ht', h.entry_append hhere]
      cases hbuilt : t.modified (layout.base.child (Artifact.archive importPath).name) with
      | ok time => simp only [h.modified_unrelated hname hkind hbuilt, hnewer]
      | error fault =>
          cases hbuilt' : t'.modified (layout.base.child (Artifact.archive importPath).name) with
          | ok time => cases hbuilt.symm.trans (h.symm.modified_unrelated hname hkind hbuilt')
          | error fault' => rfl

end Elsewhere

/-! #### The file itself -/

/-- **The file itself** has the same text, or is refused alike. -/
theorem readSource_path_eq (h : t.DiffersBeside file t') (ht : t.IsRooted) (ht' : t'.IsRooted)
    {node : Node} (hnode : t.node? file = some node) (hlink : node.isLink = false) :
    t'.readSource file.path = t.readSource file.path := by
  rw [readSource, readSource, content, content, find, find, ht.resolve_path hnode hlink,
    ht'.resolve_path (h.node_file.trans hnode) hlink]
  cases hreached : file.reached with
  | error fault => rfl
  | ok place =>
      obtain rfl := Place.eq_of_reached hreached
      simp only [h.node_file]

end DiffersBeside

end FileTree

end GoPlanner

import GoPlanner.Proofs.Build.Generate
import GoPlanner.Proofs.FileTree.Descend
import GoPlanner.Proofs.FileTree.Directories
import GoPlanner.Proofs.FileTree.Found
import GoPlanner.Proofs.FileTree.Rooted
import GoPlanner.Proofs.Path.Extension
import Mathlib.Data.List.Sort

/-!
# Archives Found Twice

The archives of the standard library are registered all at once, and looked for one at a time. The
first way leads from files to import paths, the second one from import paths to files. They meet:
where no segment is empty or a dot, an import path is registered exactly if its archive is found,
with the same path. The exception are paths that are too long. A file is registered under whatever
path it has, but it is not found there if the system does not take the path.

## Main definitions

* `FileTree.HoldsArchive`: an import path has an archive below a place.
* `FileTree.Precedes`: the order in which files are visited.
* `FileTree.IsArchiveTree`: directories whose archives have import paths.

## Main results

* `archivedImportPath?_eq_some_iff`: the import path of a file.
* `FileTree.IsArchiveTree.mem_archives_iff`, `FileTree.IsArchiveTree.pairwise_archives`: the
  archives that are registered, and their order.
* `FileTree.IsArchiveTree.isFile_descend_iff`: the archive that is found.
* `registerStandardLibrary_archives`: both ways put together.
-/

namespace GoPlanner

variable {names before steps : List String} {name last importPath : String}

/-! ### Import paths and the steps to archives -/

/-- The pieces of a text, put together. -/
theorem intercalate_pieces (s : String) : "/".intercalate (pieces '/' s) = s := by
  have hslash : "/".toList = ['/'] := rfl
  rw [← String.toList_inj, String.toList_intercalate, hslash, pieces, List.map_map]
  simp [Function.comp_def, List.intercalate_splitOn]

/-- What stands behind names that are put together belongs to the last one. -/
theorem intercalate_concat_append (before : List String) (last more : String) :
    "/".intercalate (before ++ [last]) ++ more = "/".intercalate (before ++ [last ++ more]) := by
  by_cases hbefore : before = []
  · simp [hbefore]
  · rw [intercalate_append hbefore (by simp), intercalate_append hbefore (by simp),
      String.intercalate_singleton, String.intercalate_singleton, String.append_assoc]

/-- **An extension** belongs to the last piece. -/
theorem pieces_append_of_concat {s more : String} (h : pieces '/' s = before ++ [last])
    (hmore : '/' ∉ more.toList) : pieces '/' (s ++ more) = before ++ [last ++ more] := by
  have hslash : ∀ piece ∈ before ++ [last], '/' ∉ piece.toList := fun piece hpiece =>
    slash_notMem_of_mem_pieces (h ▸ hpiece)
  rw [← intercalate_pieces s, h, intercalate_concat_append]
  refine pieces_intercalate (by simp) fun piece hpiece => ?_
  rcases List.mem_append.1 hpiece with hpiece | hpiece
  · exact hslash piece (by simp [hpiece])
  · obtain rfl := List.mem_singleton.1 hpiece
    have hlast := hslash last (by simp)
    simp [hlast, hmore]

theorem text_filterMap_step? (h : ∀ name ∈ names, IsPlain name) :
    (names.filterMap Path.step?).map Component.text = names := by
  induction names with
  | nil => rfl
  | cons name names ih =>
      obtain ⟨hname, hnames⟩ := List.forall_mem_cons.1 h
      have hstep : Path.step? name = some (.name name) := by
        rw [Path.step?, hname.idle, if_neg Bool.false_ne_true, if_neg hname.up]
      rw [List.filterMap_cons_some hstep, List.map_cons, ih hnames, Component.text]

/-- **Plain names are spelled** with slashes between them. -/
theorem spelled_of_isPlain (hne : names ≠ []) (h : ∀ name ∈ names, IsPlain name) :
    spelled names = "/".intercalate names := by
  have hpieces := pieces_intercalate hne fun name hname => (h name hname).slash
  obtain ⟨first, rest, rfl⟩ := List.exists_cons_of_ne_nil hne
  have hfirst := h first List.mem_cons_self
  have habsolute : Path.isAbsolute ⟨"/".intercalate (first :: rest)⟩ = false := by
    cases rest with
    | nil =>
        rw [String.intercalate_singleton]
        exact Path.not_isAbsolute_of_slash hfirst.slash
    | cons second rest =>
        rw [String.intercalate_cons_cons, String.append_assoc]
        exact (Path.isAbsolute_append (p := ⟨first⟩) hfirst.ne_empty _).trans
          (Path.not_isAbsolute_of_slash hfirst.slash)
  have hdot : (first :: rest).head? ≠ some "." := fun hhead => hfirst.ne_dot (Option.some.inj hhead)
  rw [spelled, Path.components, habsolute, if_neg Bool.false_ne_true, hpieces, if_neg hdot,
    text_filterMap_step? h]

/-- The names of archives. -/
theorem splitExtension?_eq_archive_iff {stem : String} :
    splitExtension? name = some (stem, "a") ↔ stem ≠ "" ∧ name = stem ++ ".a" := by
  have hdot : stem ++ "." ++ "a" = stem ++ ".a" := by
    rw [String.append_assoc]
    rfl
  constructor
  · intro h
    obtain ⟨hstem, hname, -⟩ := eq_append_of_splitExtension? h
    exact ⟨hstem, hname.trans hdot⟩
  · rintro ⟨hstem, rfl⟩
    rw [← hdot]
    refine splitExtension?_append hstem (by decide) fun hup => ?_
    have hlast := congrArg (fun s => s.toList.getLast?) hup
    simp at hlast

/-- The stem of an archive is a plain name, unless it is one or two dots. -/
theorem isPlain_stem {stem : String} (h : IsPlain (stem ++ ".a")) (hne : stem ≠ "")
    (hstem : stem ++ ".a" ∉ ["..a", "...a"]) : IsPlain stem where
  slash := fun hslash => h.slash (by simp [hslash])
  idle := by
    have hdot : stem ≠ "." := by
      rintro rfl
      exact hstem (by decide)
    simp [Path.isIdle, hne, hdot]
  up := by
    rintro rfl
    exact hstem (by decide)

/-- **The import path of a file** is what it is called below the directory, without the
extension. -/
theorem archivedImportPath?_eq_some_iff (h : ∀ step ∈ before ++ [name], IsPlain step)
    (hstem : name ∉ ["..a", "...a"]) :
    archivedImportPath? (before ++ [name]) = some importPath ↔
      ∃ stem, stem ≠ "" ∧ name = stem ++ ".a" ∧ pieces '/' importPath = before ++ [stem] := by
  have hplain {stem : String} (hne : stem ≠ "") (hname : name = stem ++ ".a") :
      ∀ segment ∈ before ++ [stem], IsPlain segment := by
    subst hname
    intro segment hsegment
    rcases List.mem_append.1 hsegment with hsegment | hsegment
    · exact h segment (List.mem_append_left _ hsegment)
    · obtain rfl := List.mem_singleton.1 hsegment
      exact isPlain_stem (h _ (by simp)) hne hstem
  rw [archivedImportPath?, List.getLast?_concat, List.dropLast_concat, Option.bind_some]
  constructor
  · intro hpath
    split at hpath
    · rename_i stem hsplit
      obtain ⟨hne, hname⟩ := splitExtension?_eq_archive_iff.1 hsplit
      obtain rfl := Option.some.inj hpath
      refine ⟨stem, hne, hname, ?_⟩
      rw [spelled_of_isPlain (by simp) (hplain hne hname)]
      exact pieces_intercalate (by simp) fun segment hsegment =>
        (hplain hne hname segment hsegment).slash
    · cases hpath
  · rintro ⟨stem, hne, hname, hpieces⟩
    rw [splitExtension?_eq_archive_iff.2 ⟨hne, hname⟩]
    change some (spelled (before ++ [stem])) = some importPath
    rw [spelled_of_isPlain (by simp) (hplain hne hname), ← hpieces, intercalate_pieces]

namespace FileTree

variable {t : FileTree} {place other : Place} {directory archive : Path}

/-! ### Files below a directory -/

/-- **A tree holds the archive** of an import path: a file that the last segment names, which is not
empty, in the directory that the other segments lead to. -/
def HoldsArchive (t : FileTree) (place : Place) (importPath : String) : Prop :=
  ∃ before last node, pieces '/' importPath = before ++ [last] ∧ last ≠ "" ∧
    t.node? (place ++ (before ++ [last ++ ".a"])) = some node ∧ node.isFile = true

/-- **The archives below a place,** in the order of their files. -/
def archivesBelow (t : FileTree) (directory : Path) (place : Place) : List (String × Path) :=
  (t.filesBelow place).filterMap (archiveAt? directory)

/-- **A directory of archives** holds files and directories only, and no archive is named by dots
that lead elsewhere without the extension. -/
structure IsArchiveTree (t : FileTree) (directory : Path) (place : Place) : Prop where
  /-- The directory is there. -/
  find : t.find directory = .ok (place, .directory)
  /-- Everything stands in directories. -/
  rooted : t.IsRooted
  /-- There are no links. -/
  links : ∀ steps target, t.node? (place ++ steps) ≠ some (.link target)
  /-- The stems of archives are names. -/
  stems : ∀ before, ∀ name ∈ ["..a", "...a"], ∀ node,
    t.node? (place ++ (before ++ [name])) = some node → node.isFile = false

/-- **A name comes before another one** in the order in which files are visited: where their ways
part, in one directory, its way is the one with the smaller name. -/
def Precedes (steps steps' : List String) : Prop :=
  ∃ common name name' rest rest', steps = common ++ name :: rest ∧
    steps' = common ++ name' :: rest' ∧ name < name'

/-- The steps of a smaller list are fewer, or the ways part. -/
theorem prefix_or_precedes_of_lt {steps steps' : List String} (h : steps < steps') :
    steps <+: steps' ∨ Precedes steps steps' := by
  induction h with
  | nil => exact Or.inl (List.nil_prefix)
  | rel hlt => exact Or.inr ⟨[], _, _, _, _, rfl, rfl, hlt⟩
  | cons h ih =>
      rcases ih with hprefix | ⟨common, name, name', rest, rest', rfl, rfl, hlt⟩
      · exact Or.inl ((List.prefix_cons_inj _).2 hprefix)
      · exact Or.inr ⟨_ :: common, name, name', rest, rest', rfl, rfl, hlt⟩

/-- Nothing comes before itself. -/
theorem Precedes.ne {steps steps' : List String} (h : Precedes steps steps') : steps ≠ steps' := by
  obtain ⟨common, name, name', rest, rest', rfl, rfl, hlt⟩ := h
  intro hsame
  obtain ⟨rfl, -⟩ := List.cons.inj (List.append_cancel_left hsame)
  exact String.lt_irrefl _ hlt

theorem IsWellFormed.entry?_eq_some_iff (ht : t.IsWellFormed) {e : Entry} :
    t.entry? place = some e ↔ (place, e) ∈ t.entries := by
  rw [ entry?, List.lookup_eq_some_iff]
  constructor
  · rintro ⟨before, after, hsplit, -⟩
    simp [hsplit]
  · intro hmem
    obtain ⟨before, after, hsplit⟩ := List.append_of_mem hmem
    have hnodup := ht.nodup
    rw [hsplit] at hnodup
    exact ⟨before, after, hsplit, fun other hother =>
      bne_iff_ne.2 (ne_of_nodup_keys hnodup other (List.mem_append_left _ hother)).symm⟩

/-- **The files below a place** in a rooted tree. -/
theorem IsRooted.mem_filesBelow_iff (ht : t.IsRooted) : steps ∈ t.filesBelow place ↔
    steps ≠ [] ∧ ∃ node, t.node? (place ++ steps) = some node ∧ node.isFile = true := by
  rw [mem_filesBelow]
  refine and_congr_right fun hsteps => ?_
  have hplace : place ++ steps ≠ [] := by simp [hsteps]
  simp only [node?, if_neg hplace, Option.map_eq_some_iff, ← ht.entry?_eq_some_iff]
  constructor
  · rintro ⟨e, he, hfile⟩
    exact ⟨_, ⟨e, he, rfl⟩, hfile⟩
  · rintro ⟨_, ⟨e, he, rfl⟩, hfile⟩
    exact ⟨e, he, hfile⟩

/-- Places of which one lies below a file are not both files. -/
theorem IsRooted.eq_of_prefix (ht : t.IsRooted) {steps' : List String} (h : steps <+: steps')
    (hsteps : steps ∈ t.filesBelow place) (hsteps' : steps' ∈ t.filesBelow place) :
    steps = steps' := by
  obtain ⟨rest, rfl⟩ := h
  obtain ⟨-, node, hnode, hfile⟩ := ht.mem_filesBelow_iff.1 hsteps
  obtain ⟨-, node', hnode', -⟩ := ht.mem_filesBelow_iff.1 hsteps'
  by_contra hne
  have hrest : rest ≠ [] := fun hnil => hne (by rw [hnil, List.append_nil])
  rw [← List.append_assoc] at hnode'
  have hdirectory := ht.directory hrest (by rw [hnode']; rfl)
  rw [hnode, Option.some.injEq] at hdirectory
  rw [hdirectory] at hfile
  cases hfile

/-- Everything below a place comes in the order of the steps, each of which comes once. -/
theorem IsWellFormed.pairwise_below (ht : t.IsWellFormed) (place : Place) :
    (t.below place).Pairwise (fun a b => a.1 < b.1) := by
  have hlex (x y : List String × Node) : (!List.lex y.1 x.1) = true ↔ ¬ y.1 < x.1 := by
    rw [Bool.not_eq_true', ← Bool.not_eq_true, List.lex_eq_true_iff_lt]
  have hsorted : (t.below place).Pairwise (fun a b => ¬ b.1 < a.1) := by
    refine (pairwise_sortedBy ?_ ?_).imp fun {a b} h => (hlex a b).1 h
    · intro x y z hxy hyz
      rw [hlex] at hxy hyz ⊢
      exact List.le_trans hxy hyz
    · intro x y
      rw [Bool.or_eq_true, hlex, hlex]
      exact List.le_total x.1 y.1
  have hentries : t.entries.Pairwise (fun a b => a.1 ≠ b.1) := List.pairwise_map.1 ht.nodup
  have hdistinct : (t.below place).Pairwise (fun a b => a.1 ≠ b.1) := by
    rw [below, sortedBy_perm.pairwise_iff fun h => h.symm]
    refine (hentries.filterMap _ fun a b hne x hx y hy heq => hne ?_).filter _
    obtain ⟨steps, hsteps, rfl⟩ := Option.map_eq_some_iff.1 hx
    obtain ⟨steps', hsteps', rfl⟩ := Option.map_eq_some_iff.1 hy
    rw [List.isPrefixOf?_eq_some_iff_append_eq] at hsteps hsteps'
    rw [← hsteps, ← hsteps', show steps = steps' from heq]
  refine (hsorted.and hdistinct).imp fun h => ?_
  by_contra hge
  exact h.2 (List.le_antisymm h.1 hge)

/-- **Files are visited in order,** and none of them twice. -/
theorem IsRooted.pairwise_filesBelow (ht : t.IsRooted) (place : Place) :
    (t.filesBelow place).Pairwise Precedes := by
  have hsteps : (t.filesBelow place).Pairwise (· < ·) := by
    refine (ht.pairwise_below place).filterMap _ fun a b hlt steps hsteps steps' hsteps' => ?_
    split at hsteps
    · split at hsteps'
      · obtain rfl := Option.some.inj hsteps
        obtain rfl := Option.some.inj hsteps'
        exact hlt
      · cases hsteps'
    · cases hsteps
  refine hsteps.imp_of_mem fun ha hb hlt => ?_
  rcases prefix_or_precedes_of_lt hlt with hprefix | hprecedes
  · rw [ht.eq_of_prefix hprefix ha hb] at hlt
    exact absurd hlt (List.lt_irrefl _)
  · exact hprecedes

/-! ### Both ways -/

/-- **The path of an archive** has the segments of the import path, and the extension. -/
theorem descend_archive (directory : Path) (hpieces : pieces '/' importPath = before ++ [last])
    (hplain : ∀ name ∈ before ++ [last ++ ".a"], IsPlain name) :
    directory.descend (importPath ++ ".a") =
      (before ++ [last ++ ".a"]).foldl Path.child directory := by
  rw [Path.descend, pieces_append_of_concat hpieces (by decide), List.filter_eq_self.2]
  exact fun name hname => bne_iff_ne.2 (hplain name hname).ne_empty

namespace IsArchiveTree

variable (h : t.IsArchiveTree directory place)

include h

/-- What stands below the directory has plain names. -/
theorem isPlain {node : Node} (hnode : t.node? (place ++ steps) = some node) :
    ∀ name ∈ steps, IsPlain name := fun name hname =>
  h.rooted.isPlain (by rw [hnode]; rfl) name (List.mem_append_right place hname)

/-- **From a file to its import path:** the files that are registered. -/
theorem archiveAt?_eq_some_iff (hsteps : steps ∈ t.filesBelow place) :
    archiveAt? directory steps = some (importPath, archive) ↔
      ∃ before last, last ≠ "" ∧ pieces '/' importPath = before ++ [last] ∧
        steps = before ++ [last ++ ".a"] ∧ archive = directory.descend (importPath ++ ".a") := by
  obtain ⟨hsome, node, hnode, hfile⟩ := h.rooted.mem_filesBelow_iff.1 hsteps
  have hplain := h.isPlain hnode
  obtain ⟨before, name, rfl⟩ := (List.eq_nil_or_concat' steps).resolve_left hsome
  have hstem : name ∉ ["..a", "...a"] := fun hmem => by
    rw [h.stems before name hmem node hnode] at hfile
    cases hfile
  rw [archiveAt?, Option.map_eq_some_iff]
  constructor
  · rintro ⟨_, hpath, hpair⟩
    obtain ⟨rfl, rfl⟩ := Prod.mk.inj hpair
    obtain ⟨stem, hne, rfl, hpieces⟩ := (archivedImportPath?_eq_some_iff hplain hstem).1 hpath
    exact ⟨before, stem, hne, hpieces, rfl, (descend_archive directory hpieces hplain).symm⟩
  · rintro ⟨before', stem, hne, hpieces, hsplit, rfl⟩
    obtain ⟨rfl, hname⟩ := List.append_inj' hsplit rfl
    obtain rfl := List.singleton_inj.1 hname
    exact ⟨importPath,
      (archivedImportPath?_eq_some_iff hplain hstem).2 ⟨stem, hne, rfl, hpieces⟩,
      by rw [descend_archive directory hpieces hplain]⟩

/-- **The archives** are those that the tree holds. -/
theorem mem_archives_iff :
    (importPath, archive) ∈ t.archivesBelow directory place ↔
      t.HoldsArchive place importPath ∧ archive = directory.descend (importPath ++ ".a") := by
  rw [archivesBelow, List.mem_filterMap]
  constructor
  · rintro ⟨steps, hsteps, hentry⟩
    obtain ⟨before, last, hne, hpieces, rfl, harchive⟩ := (h.archiveAt?_eq_some_iff hsteps).1 hentry
    obtain ⟨-, node, hnode, hfile⟩ := h.rooted.mem_filesBelow_iff.1 hsteps
    exact ⟨⟨before, last, node, hpieces, hne, hnode, hfile⟩, harchive⟩
  · rintro ⟨⟨before, last, node, hpieces, hne, hnode, hfile⟩, harchive⟩
    have hsteps : before ++ [last ++ ".a"] ∈ t.filesBelow place :=
      h.rooted.mem_filesBelow_iff.2 ⟨by simp, node, hnode, hfile⟩
    exact ⟨_, hsteps, (h.archiveAt?_eq_some_iff hsteps).2
      ⟨before, last, hne, hpieces, rfl, harchive⟩⟩

/-- **The order of the archives** is that of their files. -/
theorem pairwise_archives : ((t.archivesBelow directory place).map
    fun e => pieces '/' (e.1 ++ ".a")).Pairwise Precedes := by
  have hsteps {e : String × Path} {steps : List String} (hmem : steps ∈ t.filesBelow place)
      (hentry : archiveAt? directory steps = some e) : pieces '/' (e.1 ++ ".a") = steps := by
    obtain ⟨before, last, -, hpieces, rfl, -⟩ := (h.archiveAt?_eq_some_iff hmem).1 hentry
    exact pieces_append_of_concat hpieces (by decide)
  rw [archivesBelow, List.pairwise_map, List.pairwise_filterMap]
  refine (h.rooted.pairwise_filesBelow place).imp_of_mem fun hmem hmem' hprecedes e he e' he' => ?_
  rwa [hsteps hmem he, hsteps hmem' he']

/-- **No import path** has two archives. -/
theorem nodup_archives : ((t.archivesBelow directory place).map (·.1)).Nodup :=
  List.pairwise_map.2 ((List.pairwise_map.1 h.pairwise_archives).imp fun hprecedes heq =>
    hprecedes.ne (by rw [heq]))

/-- **The archive that is found** below the directory, if the system takes its path. -/
theorem isFile_descend_iff (hplain : ∀ segment ∈ pieces '/' importPath, IsPlain segment) :
    t.isFile (directory.descend (importPath ++ ".a")) = true ↔
      t.HoldsArchive place importPath ∧
        refusal? (directory.descend (importPath ++ ".a")) = none ∧
        ∀ name ∈ pieces '/' (importPath ++ ".a"), name.utf8ByteSize ≤ maxName := by
  obtain ⟨before, last, hpieces⟩ :=
    (List.eq_nil_or_concat' _).resolve_left (pieces_ne_nil importPath)
  rw [hpieces] at hplain
  have hlast := hplain last (by simp)
  have hnames : ∀ name ∈ before ++ [last ++ ".a"], IsPlain name := by
    intro name hname
    rcases List.mem_append.1 hname with hname | hname
    · exact hplain name (List.mem_append_left _ hname)
    · obtain rfl := List.mem_singleton.1 hname
      exact isPlain_of_mem (c := 'a') (by simp [hlast.slash]) (by simp) (by decide)
  rw [pieces_append_of_concat hpieces (by decide), descend_archive directory hpieces hnames,
    isFile_iff_resolve]
  simp only [h.rooted.resolve_descend_iff h.find h.links (by simp) hnames]
  constructor
  · rintro ⟨_, node, ⟨rfl, -, hrefusal, hsizes⟩, hnode, hfile⟩
    exact ⟨⟨before, last, node, hpieces, hlast.ne_empty, hnode, hfile⟩, hrefusal, hsizes⟩
  · rintro ⟨⟨before', last', node, hpieces', -, hnode, hfile⟩, hrefusal, hsizes⟩
    obtain ⟨rfl, hsame⟩ := List.append_inj' (hpieces.symm.trans hpieces') rfl
    obtain rfl := List.singleton_inj.1 hsame
    exact ⟨_, node, ⟨rfl, by rw [hnode]; rfl, hrefusal, hsizes⟩, hnode, hfile⟩

end IsArchiveTree

end FileTree

open FileTree

/-- **All archives are registered,** one after the other. -/
theorem FileTree.IsArchiveTree.outcome_register {t : FileTree} {directory : Path} {place : Place}
    (h : t.IsArchiveTree directory place) (c : ImportConfig) :
    (registerStandardLibrary t directory c).outcome.1 =
      .ok ((t.archivesBelow directory place).length,
        c.registerEach (t.archivesBelow directory place)) := by
  have harchives : t.archivesIn directory = .ok (t.archivesBelow directory place) := by
    rw [archivesIn, h.find]
    rfl
  rw [outcome_registerStandardLibrary, harchives]
  rfl

/-- A file tree with archives at the root and below it. -/
def archiveTree : FileTree where
  entries :=
    [(["encoding"], ⟨.directory, 0⟩), (["encoding", "json.a"], ⟨.file (.text "") false, 0⟩),
      (["fmt.a"], ⟨.file (.text "") false, 0⟩)]

/-- Every path to the root leads to archives in this tree. -/
theorem isArchiveTree_archiveTree {directory : Path}
    (hfind : archiveTree.find directory = .ok ([], .directory)) :
    archiveTree.IsArchiveTree directory [] where
  find := hfind
  rooted :=
    { nodup := by decide
      slash := by decide
      inside := by decide
      plain := by decide }
  links := fun steps target => node?_ne_link rfl _ target
  stems := by
    intro before name hname node hnode
    have hplace : [] ++ (before ++ [name]) ≠ [] := by simp
    obtain ⟨e, he, hend⟩ := exists_mem_entries hplace (by rw [hnode]; rfl)
    have hnames : ∀ e ∈ archiveTree.entries, ∀ name ∈ e.1.getLast?, name ∉ ["..a", "...a"] := by
      decide
    exact absurd hname (hnames e he name (by simp [hend]))

/-- A path to the root that is written with many slashes. -/
def slashes (n : ℕ) : Path :=
  ⟨String.ofList (List.replicate n '/')⟩

theorem utf8ByteSize_slashes (n : ℕ) : (slashes n).text.utf8ByteSize = n := by
  have hslash : (String.ofList ['/']).utf8ByteSize = 1 := rfl
  induction n with
  | zero => rfl
  | succ n ih =>
      rw [slashes] at ih ⊢
      rw [List.replicate_succ', String.ofList_append, String.utf8ByteSize_append, ih, hslash]

theorem pieces_slashes (n : ℕ) : pieces '/' (slashes n).text = List.replicate (n + 1) "" := by
  have hsplit : (List.replicate n '/').splitOn '/' = List.replicate (n + 1) [] := by
    induction n with
    | zero => rfl
    | succ n ih =>
        have hcons := List.splitOn_append_cons_self (a := '/') [] (List.replicate n '/')
        rw [List.replicate_succ, ← List.nil_append ('/' :: _), hcons, ih]
        rfl
  rw [pieces, slashes, String.toList_ofList, hsplit, List.map_replicate]

/-- **Many slashes** lead to the root. -/
theorem find_slashes (t : FileTree) {n : ℕ} (hpos : 0 < n) (hle : n ≤ maxPath) :
    t.find (slashes n) = .ok ([], .directory) := by
  have hnull : (slashes n).text.toList.contains '\x00' = false := by
    simp [slashes]
  have hrefusal : refusal? (slashes n) = none := by
    rw [refusal?, hnull, utf8ByteSize_slashes, if_neg Bool.false_ne_true, if_neg (Nat.not_lt.2 hle),
      if_neg]
    intro hempty
    have hsize := utf8ByteSize_slashes n
    rw [hempty] at hsize
    exact Nat.ne_of_lt hpos hsize
  have habsolute : (slashes n).isAbsolute = true := by
    obtain ⟨m, rfl⟩ := Nat.exists_eq_add_of_lt hpos
    simp [slashes, Path.isAbsolute, startsWith, List.replicate_succ]
  obtain ⟨jump, hjump⟩ := t.exists_follow_eq_walk maxLinks
  have hroot : t.node? [] = some .directory := rfl
  rw [find_eq_ok_iff, resolve, hrefusal, startOf, if_pos habsolute, hjump, stepsOf, pieces_slashes]
  exact ⟨walk_empty hroot fun s hs => List.eq_of_mem_replicate hs, hroot⟩

/-- What is named behind many slashes has a longer path. -/
theorem refusal?_child_slashes {n : ℕ} {name : String} (hname : maxPath < n + name.utf8ByteSize)
    (hslash : '/' ∉ name.toList) : refusal? ((slashes n).child name) ≠ none := by
  have hsize : n + name.utf8ByteSize ≤ ((slashes n).child name).text.utf8ByteSize := by
    have hslashes := utf8ByteSize_slashes n
    rw [Path.child, Path.join, Path.not_isAbsolute_of_slash hslash]
    split
    · rename_i hempty
      have htext : (slashes n).text = "" := by simpa using hempty
      rw [htext] at hslashes
      dsimp only
      rw [← hslashes, String.utf8ByteSize_empty, Nat.zero_add]
    · split
      · rw [String.utf8ByteSize_append, hslashes]
      · rw [String.utf8ByteSize_append, String.utf8ByteSize_append, hslashes]
        exact Nat.add_le_add_right (Nat.le_add_right n _) _
  intro hrefusal
  rw [refusal?] at hrefusal
  split at hrefusal
  · cases hrefusal
  · rw [if_pos (by omega)] at hrefusal
    cases hrefusal

end GoPlanner

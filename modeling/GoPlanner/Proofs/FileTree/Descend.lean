import GoPlanner.Proofs.FileTree.Child
import GoPlanner.Proofs.Text.Lines

/-!
# What Lies Below a Directory

The path that an import path has below a directory has the steps of the directory first. So
nothing is found there unless the directory is there.

## Main results

* `Path.exists_pieces_descend`: the pieces of a path below a directory.
* `FileTree.isDirectory_of_find_descend`: a directory below which something is found.
* `FileTree.upward?_eq`: searching upward.
* `FileTree.exists_eq_append_of_resolve`: where the path of an entry leads without links.
-/

namespace GoPlanner

/-! ### Pieces -/

/-- The pieces of a text have no slash. -/
theorem slash_notMem_of_mem_pieces {s piece : String} (h : piece ∈ pieces '/' s) :
    '/' ∉ piece.toList := by
  obtain ⟨part, hpart, rfl⟩ := List.mem_map.1 h
  rw [String.toList_ofList]
  exact notMem_of_mem_splitOn hpart

namespace Path

variable {p : Path} {names : List String}

/-- The text of a directory comes first in the path of an entry. -/
theorem prefix_child {name : String} (hp : p.text ≠ "") (h : '/' ∉ name.toList) :
    p.text.toList <+: (p.child name).text.toList := by
  rw [child, join, not_isAbsolute_of_slash h]
  simp only [Bool.false_or, beq_iff_eq, hp, if_false]
  split <;> simp [String.toList_append]

/-- **The pieces of a path below a directory** are those of the directory, without an empty one
at the end, and the names on the way. -/
theorem exists_pieces_descend (hp : p.text ≠ "") (hnames : names ≠ [])
    (h : ∀ name ∈ names, '/' ∉ name.toList ∧ name ≠ "") :
    ∃ before, (pieces '/' p.text = before ∨ pieces '/' p.text = before ++ [""]) ∧
      pieces '/' (names.foldl child p).text = before ++ names ∧
      (names.foldl child p).isAbsolute = p.isAbsolute ∧
      p.text.toList <+: (names.foldl child p).text.toList := by
  induction names generalizing p with
  | nil => exact absurd rfl hnames
  | cons name names ih =>
      obtain ⟨hslash, hname⟩ := h name List.mem_cons_self
      obtain ⟨before, -, hpieces, hchild, habsolute⟩ := exists_pieces_child hp hslash
      have hstarts := prefix_child hp hslash
      by_cases hnil : names = []
      · subst hnil
        exact ⟨before, hpieces, hchild, habsolute, hstarts⟩
      · have hp' : (p.child name).text ≠ "" := by
          intro hempty
          rw [hempty, String.toList_empty, List.prefix_nil, String.toList_eq_nil_iff] at hstarts
          exact hp hstarts
        obtain ⟨before', hpieces', hend, habsolute', hstarts'⟩ :=
          ih hp' hnil fun other hother => h other (List.mem_cons_of_mem _ hother)
        -- The name is not empty, so it is the last piece that is kept.
        have hbefore : before' = before ++ [name] := by
          rcases hpieces' with hpieces' | hpieces'
          · exact hpieces'.symm.trans hchild
          · have hlast := congrArg List.getLast? (hpieces'.symm.trans hchild)
            rw [List.getLast?_append, List.getLast?_append] at hlast
            exact absurd (Option.some.inj hlast).symm hname
        refine ⟨before, hpieces, ?_, habsolute'.trans habsolute, hstarts.trans hstarts'⟩
        rw [List.foldl_cons, hend, hbefore, List.append_assoc]
        rfl

end Path

namespace FileTree

variable {t : FileTree} {place : Place} {node : Node} {p : Path} {names : List String}

/-- **The steps of a path below a directory** lead to the directory before the names are taken. -/
theorem exists_stepsOf_descend (hfind : t.find p = .ok (place, .directory)) (hnames : names ≠ [])
    (h : ∀ name ∈ names, '/' ∉ name.toList ∧ name ≠ "") :
    ∃ before links, stepsOf (names.foldl Path.child p) = before ++ names ∧
      ∀ rest, t.follow maxLinks (startOf t.cwd (names.foldl Path.child p)) (before ++ rest) =
        t.follow links place rest := by
  obtain ⟨before, hpieces, hsteps, habsolute, -⟩ :=
    Path.exists_pieces_descend (text_ne_of_refusal? (find_ok hfind).1) hnames h
  have hstart : startOf t.cwd (names.foldl Path.child p) = startOf t.cwd p := by
    rw [startOf, startOf, habsolute]
  obtain ⟨links, hfollow⟩ := exists_follow_append hfind hpieces
  rw [hstart]
  exact ⟨before, links, hsteps, hfollow⟩

/-- A path can name something if it is the beginning of one that can. -/
theorem refusal?_of_prefix {q : Path} (hp : p.text ≠ "") (hstarts : p.text.toList <+: q.text.toList)
    (h : refusal? q = none) : refusal? p = none := by
  obtain ⟨rest, hrest⟩ := hstarts
  have htext : q.text = p.text ++ String.ofList rest := by
    rw [← String.toList_inj, String.toList_append, String.toList_ofList, hrest]
  rw [refusal?] at h ⊢
  split at h
  · cases h
  · rename_i hnull
    split at h
    · cases h
    · rename_i hlen
      rw [htext, String.utf8ByteSize_append] at hlen
      rw [if_neg, if_neg (by omega), if_neg hp]
      intro hmem
      exact hnull (by simp_all)

/-- **What is found below a directory** is found only if the directory is there. -/
theorem isDirectory_of_find_descend (hp : p.text ≠ "") (hnames : names ≠ [])
    (h : ∀ name ∈ names, '/' ∉ name.toList ∧ name ≠ "")
    (hfind : t.find (names.foldl Path.child p) = .ok (place, node)) : t.isDirectory p = true := by
  obtain ⟨hrefusal, hfollow, -⟩ := find_ok hfind
  obtain ⟨before, hpieces, hsteps, habsolute, hstarts⟩ := Path.exists_pieces_descend hp hnames h
  have hstart : startOf t.cwd (names.foldl Path.child p) = startOf t.cwd p := by
    rw [startOf, startOf, habsolute]
  rw [stepsOf, hsteps, hstart] at hfollow
  obtain ⟨n, middle, hmiddle⟩ := follow_append hfollow
  rw [hmiddle] at hfollow
  obtain ⟨jump, hjump⟩ := t.exists_follow_eq_walk n
  have hdir : t.node? middle = some .directory := by
    obtain ⟨name, rest, rfl⟩ := List.exists_cons_of_ne_nil hnames
    rw [hjump] at hfollow
    exact (walk_cons_ok.1 hfollow).1
  have hplace : t.follow maxLinks (startOf t.cwd p) (stepsOf p) = .ok middle := by
    rcases hpieces with hpieces | hpieces
    · have hend := hmiddle []
      rw [List.append_nil] at hend
      rw [stepsOf, hpieces, hend, follow_nil_ok]
      simp [hdir]
    · rw [stepsOf, hpieces, hmiddle, hjump, walk_cons_ok]
      refine ⟨hdir, Or.inl ⟨by decide, ?_⟩⟩
      rw [← hjump, follow_nil_ok]
      simp [hdir]
  rw [isDirectory_iff]
  refine ⟨middle, ?_⟩
  rw [find, resolve, refusal?_of_prefix hp hstarts hrefusal]
  simp only [hplace, hdir]

theorem isDirectory_of_find_child {name : String} (hp : p.text ≠ "") (hslash : '/' ∉ name.toList)
    (hname : name ≠ "") (hfind : t.find (p.child name) = .ok (place, node)) :
    t.isDirectory p = true :=
  isDirectory_of_find_descend hp (List.cons_ne_nil name []) (by simpa using ⟨hslash, hname⟩) hfind

/-- A file is no directory, so nothing is found below it. -/
theorem isFile_child_eq_false {name : String} (hp : p.text ≠ "") (hslash : '/' ∉ name.toList)
    (hname : name ≠ "") (hfile : t.isFile p = true) : t.isFile (p.child name) = false := by
  by_contra hbelow
  rw [Bool.not_eq_false, isFile] at hbelow
  split at hbelow
  · rename_i hfind
    obtain ⟨place, hplace⟩ := isDirectory_iff.1 (isDirectory_of_find_child hp hslash hname hfind)
    rw [isFile, hplace] at hfile
    cases hfile
  · cases hbelow

/-- **Searching upward** starts at the path itself; for a file that makes no difference. -/
theorem upward?_eq {name : String} (hp : p.text ≠ "") (hslash : '/' ∉ name.toList)
    (hname : name ≠ "") : t.upward? name p =
      (p :: p.ancestors).find? (fun above => t.isFile (above.child name)) := by
  rw [upward?]
  split
  · rename_i hfile
    rw [List.find?_cons_of_neg (by simp [isFile_child_eq_false hp hslash hname hfile])]
  · rfl

/-- A tree whose entries are no links has none. -/
theorem node?_ne_link (h : t.entries.all (fun e => !e.2.node.isLink) = true) (place : Place)
    (target : Path) : t.node? place ≠ some (.link target) := by
  intro hnode
  rw [node?] at hnode
  split at hnode
  · cases hnode
  · obtain ⟨entry, hentry, hlink⟩ := Option.map_eq_some_iff.1 hnode
    unfold entry? at hentry
    obtain ⟨before, after, hsplit, -⟩ := List.lookup_eq_some_iff.1 hentry
    have hnone := List.all_eq_true.1 h (place, entry) (by simp [hsplit])
    simp [hlink, Node.isLink] at hnone

/-- **The path of an entry** leads to an entry of that name, if there are no links. -/
theorem exists_eq_append_of_resolve {name : String} (hname : IsPlain name)
    (hlinks : ∀ place target, t.node? place ≠ some (.link target))
    (h : t.resolve (p.child name) = .ok place) : ∃ directory, place = directory ++ [name] := by
  have hlink (place : Place) : ∀ node, t.node? place = some node → node.isLink = false := by
    intro node hnode
    cases node with
    | link target => exact absurd hnode (hlinks place target)
    | directory => rfl
    | file c x => rfl
  by_cases hp : p.text = ""
  · have hchild : p.child name = ⟨name⟩ := by
      rw [Path.child, Path.join, hp]
      simp
    rw [resolve] at h
    split at h
    · cases h
    · rw [hchild, stepsOf, pieces_eq_singleton hname.slash] at h
      exact ⟨_, follow_name hname (hlink _) h⟩
  · obtain ⟨node, hnode⟩ := Option.isSome_iff_exists.1 (isSome_of_resolve h)
    have hfind : t.find (p.child name) = .ok (place, node) := by
      rw [find, h]
      simp only [hnode]
    obtain ⟨directory, hfound⟩ :=
      isDirectory_iff.1 (isDirectory_of_find_child hp hname.slash hname.ne_empty hfind)
    exact ⟨directory, resolve_child hfound hname (hlink _) h⟩

/-- **An import path** below a directory that is not there leads to no file. -/
theorem isFile_descend_eq_false {importPath : String} {c : Char} (hp : p.text ≠ "")
    (hc : c ∈ importPath.toList) (hslash : c ≠ '/') (hdir : t.isDirectory p = false) :
    t.isFile (p.descend importPath) = false := by
  obtain ⟨part, hpart, hmem⟩ := exists_mem_splitOn hc hslash
  have hpiece : String.ofList part ∈ pieces '/' importPath := List.mem_map_of_mem hpart
  have hne : String.ofList part ≠ "" := by
    intro hempty
    rw [← String.toList_eq_nil_iff, String.toList_ofList] at hempty
    simp [hempty] at hmem
  by_contra hfile
  rw [Bool.not_eq_false, isFile] at hfile
  split at hfile
  · rename_i hfind
    have hthere := isDirectory_of_find_descend hp
      (List.ne_nil_of_mem (List.mem_filter.2 ⟨hpiece, by simpa using hne⟩))
      (fun name hname => ⟨slash_notMem_of_mem_pieces (List.mem_filter.1 hname).1,
        by simpa using (List.mem_filter.1 hname).2⟩) hfind
    rw [hdir] at hthere
    cases hthere
  · cases hfile

end FileTree

end GoPlanner

import GoPlanner.Proofs.Discovery.Alike
import GoPlanner.Proofs.FileTree.Absolute
import GoPlanner.Proofs.FileTree.Descend
import Mathlib.Data.List.Induction

/-!
# Places and Their Paths

In a file tree every entry stands in a directory, under a name by which it can be reached. So the
path of a place leads to that place and nowhere else, unless the path or a name in it is too long.
Whether it is does not depend on the tree.

## Main definitions

* `FileTree.IsRooted`: trees whose entries stand in directories, under plain names.
* `Place.reached`: where the path of a place leads.

## Main results

* `Place.path_child`: the path of an entry of a directory.
* `FileTree.IsRooted.resolve_path`: the path of a place leads there.
* `FileTree.IsRooted.resolve_descend_iff`: so does a path below a directory without links.
-/

namespace GoPlanner

variable {t : FileTree} {place here other : Place} {name : String} {names : List String}

/-! ### Paths of places -/

/-- **The pieces of names** that are put together are the names. -/
theorem pieces_intercalate (hplace : place ≠ []) (hnames : ∀ name ∈ place, '/' ∉ name.toList) :
    pieces '/' ("/".intercalate place) = place := by
  have hmap : ∀ name ∈ place.map String.toList, '/' ∉ name := by simpa using hnames
  have hslash : "/".toList = ['/'] := rfl
  rw [pieces, String.toList_intercalate, hslash, List.splitOn_intercalate '/' hmap (by simpa),
    List.map_map]
  simp

/-- **The pieces of the path of a place:** an empty one before the root, and the names. -/
theorem pieces_path (hplace : place ≠ []) (hnames : ∀ name ∈ place, '/' ∉ name.toList) :
    pieces '/' place.path.text = "" :: place := by
  have hempty : pieces '/' "" = [""] := pieces_eq_singleton (by simp)
  have hstart : place.path.text = "" ++ "/" ++ "/".intercalate place := by simp [Place.path]
  rw [hstart, pieces_append, pieces_intercalate hplace hnames, hempty, List.singleton_append]

/-- **Names that are put together** have a slash between them. -/
theorem intercalate_append (hplace : place ≠ []) (hnames : names ≠ []) :
    "/".intercalate (place ++ names) = "/".intercalate place ++ "/" ++ "/".intercalate names := by
  induction place with
  | nil => exact absurd rfl hplace
  | cons first place ih =>
      cases place with
      | nil =>
          obtain ⟨next, rest, rfl⟩ := List.exists_cons_of_ne_nil hnames
          rw [List.singleton_append, String.intercalate_cons_cons, String.intercalate_singleton]
      | cons next place =>
          have ih := ih (List.cons_ne_nil _ _)
          rw [List.cons_append] at ih ⊢
          rw [List.cons_append, String.intercalate_cons_cons, ih, String.intercalate_cons_cons]
          simp only [String.append_assoc]

/-- **The paths below a place** begin alike, and end in the names that follow. -/
theorem Place.exists_text_path (place : Place) : ∃ start : String, ∀ names, names ≠ [] →
    (Place.path (place ++ names)).text = start ++ "/".intercalate names := by
  by_cases hplace : place = []
  · exact ⟨"/", fun names _ => by rw [hplace, List.nil_append, Place.path]⟩
  · exact ⟨_, fun names hnames => by
      rw [Place.path, intercalate_append hplace hnames, ← String.append_assoc]⟩

/-- A path that ends in a name has no slash at its end. -/
theorem endsWith_path (hslash : '/' ∉ name.toList) (hne : name ≠ "") :
    endsWith "/" (Place.path (place ++ [name])).text = false := by
  obtain ⟨start, htext⟩ := place.exists_text_path
  have hlist : name.toList ≠ [] := mt String.toList_eq_nil_iff.1 hne
  rw [← Bool.not_eq_true, endsWith, htext [name] (by simp), String.intercalate_singleton,
    String.toList_append, List.isSuffixOf_iff_suffix]
  intro hsuffix
  have hlast : (start.toList ++ name.toList).getLast? = some '/' := by
    obtain ⟨front, hfront⟩ := hsuffix
    rw [← hfront]
    simp
  rw [List.getLast?_append_of_ne_nil _ hlist] at hlast
  exact hslash (List.mem_of_getLast? hlast)

/-- **The path of an entry** of a directory. -/
theorem Place.path_child (hlast : ∀ last ∈ place.getLast?, '/' ∉ last.toList ∧ last ≠ "")
    (hname : '/' ∉ name.toList) : place.path.child name = Place.path (place ++ [name]) := by
  have hne : (place.path.text == "") = false := by simpa using place.text_path_ne
  rw [Path.child, Path.join, Path.not_isAbsolute_of_slash hname, hne]
  rcases List.eq_nil_or_concat' place with rfl | ⟨before, last, rfl⟩
  · rfl
  · obtain ⟨hslash, hend⟩ := hlast last (by simp)
    have hnames : "/".intercalate (before ++ [last] ++ [name]) =
        "/".intercalate (before ++ [last]) ++ "/" ++ name :=
      (intercalate_append (by simp) (by simp)).trans (by rw [String.intercalate_singleton])
    rw [endsWith_path hslash hend, Place.path, Place.path, hnames]
    simp only [Bool.false_or, if_false, String.append_assoc, Bool.false_eq_true]

namespace FileTree

/-- **A tree is rooted** when every place has one entry at most, and every entry stands in a
directory, under a name that leads there. -/
structure IsRooted (t : FileTree) : Prop extends t.IsWellFormed where
  /-- Every entry stands in a directory. -/
  inside : ∀ e ∈ t.entries, t.node? e.1.dropLast = some .directory
  /-- Names are those of entries. -/
  plain : ∀ e ∈ t.entries, ∀ name ∈ e.1, IsPlain name

theorem exists_mem_entries (hplace : place ≠ []) (hthere : (t.node? place).isSome = true) :
    ∃ e ∈ t.entries, e.1 = place := by
  rw [node?, if_neg hplace, Option.isSome_map, entry?, List.lookup_isSome_iff] at hthere
  obtain ⟨e, he, hsame⟩ := hthere
  exact ⟨e, he, (beq_iff_eq.1 hsame).symm⟩

/-- Whatever is there has plain names. -/
theorem IsRooted.isPlain (ht : t.IsRooted) (hthere : (t.node? place).isSome = true) :
    ∀ name ∈ place, IsPlain name := by
  by_cases hplace : place = []
  · simp [hplace]
  · obtain ⟨e, he, rfl⟩ := exists_mem_entries hplace hthere
    exact ht.plain e he

/-- **What stands before** something that is there is a directory. -/
theorem IsRooted.directory (ht : t.IsRooted) (hnames : names ≠ [])
    (hthere : (t.node? (place ++ names)).isSome = true) : t.node? place = some .directory := by
  induction names using List.reverseRecOn with
  | nil => exact absurd rfl hnames
  | append_singleton names name ih =>
      rw [← List.append_assoc] at hthere
      obtain ⟨e, he, hplace⟩ := exists_mem_entries (by simp) hthere
      have hinside := ht.inside e he
      rw [hplace, List.dropLast_concat] at hinside
      by_cases hnil : names = []
      · rwa [hnil, List.append_nil] at hinside
      · exact ih hnil (by rw [hinside]; rfl)

end FileTree

/-- **Where the path of a place leads:** to the place, unless it or a name in it is too long. -/
def Place.reached (place : Place) : Except Fault Place :=
  match FileTree.refusal? place.path with
  | some fault => .error fault
  | none =>
    if place.all (fun name => decide (name.utf8ByteSize ≤ FileTree.maxName)) then .ok place
    else .error .nameTooLong

theorem Place.eq_of_reached (h : place.reached = .ok other) : other = place := by
  rw [reached] at h
  split at h
  · cases h
  · split at h
    · exact (Except.ok.inj h).symm
    · cases h

namespace FileTree

/-- **Names are walked along** through directories, unless one is too long. -/
theorem walk_names {jump : Place → List String → Except Fault Place}
    (hplain : ∀ name ∈ names, IsPlain name)
    (hdirectory : ∀ before after, names = before ++ after → after ≠ [] →
      t.node? (here ++ before) = some .directory)
    (hthere : ∃ node, t.node? (here ++ names) = some node ∧ node.isLink = false) :
    t.walk jump here names =
      if names.all (fun name => decide (name.utf8ByteSize ≤ maxName)) then .ok (here ++ names)
      else .error .nameTooLong := by
  induction names generalizing here with
  | nil =>
      obtain ⟨node, hnode, -⟩ := hthere
      rw [List.append_nil] at hnode
      simp [walk, hnode]
  | cons name names ih =>
      obtain ⟨hname, hnames⟩ := List.forall_mem_cons.1 hplain
      have hhere : t.node? here = some .directory := by
        simpa using hdirectory [] (name :: names) rfl (by simp)
      have hassoc (after : List String) : here ++ name :: after = here ++ [name] ++ after := by simp
      -- What the first name leads to is a directory, or the end.
      have hnext : ∃ node, t.node? (here ++ [name]) = some node ∧ node.isLink = false := by
        by_cases hnil : names = []
        · rwa [hnil] at hthere
        · exact ⟨_, hdirectory [name] names rfl hnil, rfl⟩
      have hrest : t.walk jump (here ++ [name]) names =
          if names.all (fun name => decide (name.utf8ByteSize ≤ maxName)) then
            .ok (here ++ [name] ++ names)
          else .error .nameTooLong :=
        ih hnames
          (fun before after hsplit hafter => by
            rw [← hassoc]
            exact hdirectory (name :: before) after (by rw [hsplit, List.cons_append]) hafter)
          (by rwa [← hassoc])
      obtain ⟨node, hnode, hlink⟩ := hnext
      rw [walk, hhere]
      by_cases hlong : maxName < name.utf8ByteSize
      · simp [hname.idle, hname.up, hlong, Nat.not_le.2 hlong]
      · cases node with
        | link target => simp [Node.isLink] at hlink
        | directory =>
            simp [hname.idle, hname.up, hlong, Nat.not_lt.1 hlong, hnode, hrest]
        | file c x =>
            simp [hname.idle, hname.up, hlong, Nat.not_lt.1 hlong, hnode, hrest]

/-- **The path of a place** leads there. -/
theorem IsRooted.resolve_path (ht : t.IsRooted) {node : Node} (hnode : t.node? place = some node)
    (hlink : node.isLink = false) : t.resolve place.path = place.reached := by
  have hthere : (t.node? place).isSome = true := by rw [hnode]; rfl
  have hplain := ht.isPlain hthere
  obtain ⟨jump, hjump⟩ := t.exists_follow_eq_walk maxLinks
  rw [resolve, Place.reached, startOf, if_pos place.isAbsolute_path, hjump]
  -- An empty step is taken in the root before the names are.
  have hsteps : t.walk jump [] (stepsOf place.path) = t.walk jump [] place := by
    have hidle : Path.isIdle "" = true := by decide
    have hroot : t.node? [] = some .directory := rfl
    by_cases hplace : place = []
    · have hroots : stepsOf (Place.path []) = ["", ""] := by decide
      subst hplace
      simp [hroots, walk, hroot, hidle]
    · rw [stepsOf, pieces_path hplace fun name hname => (hplain name hname).slash, walk, hroot]
      simp [hidle]
  have hwalk : t.walk jump [] place =
      if place.all (fun name => decide (name.utf8ByteSize ≤ maxName)) then .ok ([] ++ place)
      else .error .nameTooLong :=
    walk_names hplain
      (fun before after hsplit hafter => ht.directory hafter (by
        rw [List.nil_append, ← hsplit]
        exact hthere))
      ⟨node, hnode, hlink⟩
  cases refusal? place.path with
  | some fault => rfl
  | none => exact hsteps.trans hwalk

/-- **Where names lead** without links on the way: to the place that they name. -/
theorem eq_of_walk_names {jump : Place → List String → Except Fault Place}
    (hplain : ∀ name ∈ names, IsPlain name)
    (hlinks : ∀ steps target, t.node? (here ++ steps) ≠ some (.link target))
    (h : t.walk jump here names = .ok place) :
    place = here ++ names ∧ ∀ name ∈ names, name.utf8ByteSize ≤ maxName := by
  induction names generalizing here with
  | nil =>
      rw [walk] at h
      split at h
      · exact ⟨by rw [List.append_nil, Except.ok.inj h], by simp⟩
      · cases h
  | cons name names ih =>
      obtain ⟨hname, hnames⟩ := List.forall_mem_cons.1 hplain
      obtain ⟨-, ⟨hidle, -⟩ | ⟨-, hup, -⟩ |
        ⟨-, -, hlen, node, hnode, ⟨target, rfl, -⟩ | ⟨-, hrest⟩⟩⟩ := walk_cons_ok.1 h
      · exact absurd (hname.idle.symm.trans hidle) Bool.false_ne_true
      · exact absurd hup hname.up
      · exact absurd hnode (hlinks [name] target)
      · obtain ⟨rfl, hsizes⟩ := ih hnames (fun steps target => by
          rw [List.append_assoc]
          exact hlinks ([name] ++ steps) target) hrest
        exact ⟨by simp, List.forall_mem_cons.2 ⟨hlen, hsizes⟩⟩

/-- **The path of something below a directory** leads there, unless it or a name in it is too
long. -/
theorem IsRooted.resolve_descend_iff (ht : t.IsRooted) {p : Path}
    (hfind : t.find p = .ok (place, .directory))
    (hlinks : ∀ steps target, t.node? (place ++ steps) ≠ some (.link target)) (hnames : names ≠ [])
    (hplain : ∀ name ∈ names, IsPlain name) :
    t.resolve (names.foldl Path.child p) = .ok other ↔
      other = place ++ names ∧ (t.node? other).isSome = true ∧
        refusal? (names.foldl Path.child p) = none ∧
        ∀ name ∈ names, name.utf8ByteSize ≤ maxName := by
  obtain ⟨before, links, hsteps, hfollow⟩ := exists_stepsOf_descend hfind hnames fun name hname =>
    ⟨(hplain name hname).slash, (hplain name hname).ne_empty⟩
  obtain ⟨jump, hjump⟩ := t.exists_follow_eq_walk links
  rw [resolve]
  cases hrefusal : refusal? (names.foldl Path.child p) with
  | some fault => simp
  | none =>
      dsimp only
      rw [hsteps, hfollow, hjump]
      constructor
      · intro h
        obtain ⟨hplace, hsizes⟩ := eq_of_walk_names hplain hlinks h
        rw [← hjump] at h
        exact ⟨hplace, isSome_of_follow h, rfl, hsizes⟩
      · rintro ⟨rfl, hthere, -, hsizes⟩
        obtain ⟨node, hnode⟩ := Option.isSome_iff_exists.1 hthere
        have hlink : node.isLink = false := by
          cases node with
          | link target => exact absurd hnode (hlinks names target)
          | directory => rfl
          | file c x => rfl
        rw [walk_names hplain (fun before after hsplit hafter => ht.directory hafter (by
          rw [List.append_assoc, ← hsplit]
          exact hthere)) ⟨node, hnode, hlink⟩, if_pos (by simpa using hsizes)]

end FileTree

end GoPlanner

import GoPlanner.FileTree.Read
import GoPlanner.Proofs.Path

/-!
# Absolute Paths

A path that is joined to another one is absolute exactly if one of the two is. An absolute path
is followed from the root, so it leads to the same place from every working directory, which a
relative one need not.

## Main definitions

* `Path.IsBelow`: a path that is reached from a directory by relative names.

## Main results

* `Path.isAbsolute_join`, `Path.isAbsolute_foldl_child`: which paths are absolute.
* `Path.IsBelow.isAbsolute_eq`: a path below a directory is absolute if the directory is.
* `FileTree.find_of_isAbsolute`: absolute paths do not depend on the working directory.
-/

namespace GoPlanner

namespace Path

variable {p q : Path} {names : List String}

/-! ### Joined paths -/

/-- **A joined path** is absolute exactly if one of its parts is. -/
theorem isAbsolute_join (p q : Path) : (p.join q).isAbsolute = (p.isAbsolute || q.isAbsolute) := by
  rw [join]
  cases hq : q.isAbsolute with
  | true => simp [hq]
  | false =>
      by_cases hp : p.text = ""
      · have hempty : p.isAbsolute = false := by
          rw [show p = ⟨""⟩ from eq_of_text hp]
          rfl
        simp [hp, hq, hempty]
      · simp only [hp, Bool.false_or, beq_iff_eq, if_false, Bool.or_false]
        split
        · exact isAbsolute_append hp _
        · rw [String.append_assoc]
          exact isAbsolute_append hp _

/-- A path that is read from an absolute one is absolute. -/
theorem isAbsolute_join_of_left (hp : p.isAbsolute = true) : (p.join q).isAbsolute = true := by
  rw [isAbsolute_join, hp, Bool.true_or]

theorem isAbsolute_child (p : Path) (name : String) :
    (p.child name).isAbsolute = (p.isAbsolute || isAbsolute ⟨name⟩) :=
  isAbsolute_join p ⟨name⟩

theorem isAbsolute_child_of_left (hp : p.isAbsolute = true) (name : String) :
    (p.child name).isAbsolute = true :=
  isAbsolute_join_of_left hp

/-- **A path along names** is absolute exactly if it starts so, or one of the names does. -/
theorem isAbsolute_foldl_child (p : Path) (names : List String) :
    (names.foldl child p).isAbsolute =
      (p.isAbsolute || names.any (fun name => isAbsolute ⟨name⟩)) := by
  induction names generalizing p with
  | nil => simp
  | cons name names ih => rw [List.foldl_cons, ih, isAbsolute_child, List.any_cons, Bool.or_assoc]

/-- **A path below a directory** is reached by names that are not absolute themselves. -/
def IsBelow (p q : Path) : Prop :=
  ∃ names : List String, (∀ name ∈ names, isAbsolute ⟨name⟩ = false) ∧ q = names.foldl child p

/-- **Below a directory** all paths are absolute if it is, and none if it is not. -/
theorem IsBelow.isAbsolute_eq (h : p.IsBelow q) : q.isAbsolute = p.isAbsolute := by
  obtain ⟨names, hnames, rfl⟩ := h
  rw [isAbsolute_foldl_child, List.any_eq_false.2 fun name hname => by simp [hnames name hname],
    Bool.or_false]

/-- A relative path along names lies below the path that it starts at. -/
theorem isBelow_of_not_isAbsolute (h : (names.foldl child p).isAbsolute = false) :
    p.IsBelow (names.foldl child p) := by
  rw [isAbsolute_foldl_child, Bool.or_eq_false_iff] at h
  exact ⟨names, fun name hname => by simpa using List.any_eq_false.1 h.2 name hname, rfl⟩

end Path

/-- The path of a place is absolute. -/
theorem Place.isAbsolute_path (place : Place) : place.path.isAbsolute = true := by
  simp [Place.path, Path.isAbsolute, startsWith]

namespace FileTree

variable {t t' : FileTree} {p : Path}

/-! ### Paths in other working directories -/

theorem walk_congr (hnode : ∀ place, t'.node? place = t.node? place)
    (jump : Place → List String → Except Fault Place) (here : Place) (steps : List String) :
    t'.walk jump here steps = t.walk jump here steps := by
  induction steps generalizing here with
  | nil => rw [walk, walk, hnode]
  | cons step rest ih =>
      rw [walk, walk, hnode here]
      simp only [hnode (here ++ [step]), ih]

/-- Steps are followed alike where the same nodes stand. -/
theorem follow_congr (hnode : ∀ place, t'.node? place = t.node? place) (links : Nat) :
    t'.follow links = t.follow links := by
  induction links with
  | zero =>
      funext here steps
      exact walk_congr hnode _ here steps
  | succ links ih =>
      funext here steps
      rw [follow, follow, ih]
      exact walk_congr hnode _ here steps

/-- **An absolute path** leads to the same place from every working directory. -/
theorem resolve_of_isAbsolute (hp : p.isAbsolute = true) (t : FileTree) (place : Place) :
    ({ t with cwd := place } : FileTree).resolve p = t.resolve p := by
  have hnode : ∀ there, ({ t with cwd := place } : FileTree).node? there = t.node? there :=
    fun _ => rfl
  rw [resolve, resolve, follow_congr hnode, startOf, startOf, if_pos hp, if_pos hp]

/-- **What an absolute path leads to** does not depend on the working directory. -/
theorem find_of_isAbsolute (hp : p.isAbsolute = true) (t : FileTree) (place : Place) :
    ({ t with cwd := place } : FileTree).find p = t.find p := by
  rw [find, find, resolve_of_isAbsolute hp]
  rfl

end FileTree

end GoPlanner

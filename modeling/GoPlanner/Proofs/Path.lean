import GoPlanner.Path
import Mathlib.Data.List.Basic

/-!
# Entries of Directories

The path of an entry has the steps of the path of its directory, and then the name of the
entry. So the paths of two entries of one directory are different paths.

## Main definitions

* `IsPlain`: names that entries can have.
* `segments`: the steps below a directory that an import path stands for.

## Main results

* `Path.exists_pieces_child`: the pieces of the path of an entry.
* `Path.components_child`, `Path.same_child_iff`: its steps.
-/

namespace GoPlanner

/-- A path is its text. -/
theorem Path.eq_of_text {p q : Path} (h : p.text = q.text) : p = q := by
  cases p
  exact congrArg Path.mk h

/-- **A plain name** names an entry of a directory: it has no slash, and it is neither empty
nor a dot nor two dots. -/
structure IsPlain (name : String) : Prop where
  /-- It has no slash. -/
  slash : '/' ∉ name.toList
  /-- It is not passed over. -/
  idle : Path.isIdle name = false
  /-- It does not lead upward. -/
  up : name ≠ ".."

instance (name : String) : Decidable (IsPlain name) :=
  decidable_of_iff ('/' ∉ name.toList ∧ Path.isIdle name = false ∧ name ≠ "..")
    ⟨fun ⟨hslash, hidle, hup⟩ => ⟨hslash, hidle, hup⟩,
      fun ⟨hslash, hidle, hup⟩ => ⟨hslash, hidle, hup⟩⟩

theorem IsPlain.ne_empty {name : String} (h : IsPlain name) : name ≠ "" := by
  rintro rfl
  exact absurd h.idle (by decide)

theorem IsPlain.ne_dot {name : String} (h : IsPlain name) : name ≠ "." := by
  rintro rfl
  exact absurd h.idle (by decide)

/-- Names with a character besides dots and slashes are plain, unless they have a slash. -/
theorem isPlain_of_mem {name : String} {c : Char} (hslash : '/' ∉ name.toList)
    (hc : c ∈ name.toList) (hdot : c ≠ '.') : IsPlain name where
  slash := hslash
  idle := by
    cases hidle : Path.isIdle name with
    | false => rfl
    | true =>
        rw [Path.isIdle, Bool.or_eq_true, beq_iff_eq, beq_iff_eq] at hidle
        rcases hidle with rfl | rfl
        · simp at hc
        · exact absurd (by simpa using hc) hdot
  up := by
    rintro rfl
    exact absurd (by simpa using hc) hdot

/-- A slash divides the pieces of a text. -/
theorem pieces_append (a b : String) :
    pieces '/' (a ++ "/" ++ b) = pieces '/' a ++ pieces '/' b := by
  have hlist : (a ++ "/" ++ b).toList = a.toList ++ '/' :: b.toList := by simp
  rw [pieces, hlist, List.splitOn_append_cons_self, List.map_append]
  rfl

/-- A text without a slash is one piece. -/
theorem pieces_eq_singleton {name : String} (h : '/' ∉ name.toList) : pieces '/' name = [name] := by
  rw [pieces, List.splitOn_eq_singleton h]
  simp

theorem pieces_ne_nil (s : String) : pieces '/' s ≠ [] := by
  simp [pieces]

/-- **The segments** of an import path: what stands between its slashes, unless it is empty. -/
def segments (importPath : String) : List String :=
  (pieces '/' importPath).filter (fun s => s != "")

namespace Path

variable {p : Path} {name other : String}

/-- A name without a slash is no absolute path. -/
theorem not_isAbsolute_of_slash (h : '/' ∉ name.toList) : isAbsolute ⟨name⟩ = false := by
  rw [isAbsolute, startsWith]
  cases hlist : name.toList with
  | nil => rfl
  | cons c cs =>
      have hne : '/' ≠ c := by
        rintro rfl
        exact h (by simp [hlist])
      simp [List.isPrefixOf_cons_cons, hne]

/-- A text that goes on is that of an absolute path if its beginning is. -/
theorem isAbsolute_append (hp : p.text ≠ "") (more : String) :
    isAbsolute ⟨p.text ++ more⟩ = p.isAbsolute := by
  obtain ⟨c, cs, hlist⟩ := List.exists_cons_of_ne_nil (mt String.toList_eq_nil_iff.1 hp)
  simp [isAbsolute, startsWith, hlist, List.isPrefixOf_cons_cons]

/-- **The pieces of the path of an entry** are those of its directory, without an empty one at
the end, and the name. -/
theorem exists_pieces_child (hp : p.text ≠ "") (h : '/' ∉ name.toList) :
    ∃ before, before ≠ [] ∧
      (pieces '/' p.text = before ∨ pieces '/' p.text = before ++ [""]) ∧
      pieces '/' (p.child name).text = before ++ [name] ∧
      (p.child name).isAbsolute = p.isAbsolute := by
  have hname := pieces_eq_singleton h
  rw [child, join, not_isAbsolute_of_slash h]
  simp only [Bool.false_or, beq_iff_eq, hp, if_false]
  split
  · rename_i hslash
    obtain ⟨start, hstart⟩ := List.isSuffixOf_iff_suffix.1 hslash
    have htext : p.text = String.ofList start ++ "/" := by
      rw [← String.toList_inj, ← hstart]
      simp
    have hpieces : pieces '/' p.text = pieces '/' (String.ofList start) ++ [""] := by
      have hempty : pieces '/' "" = [""] := pieces_eq_singleton (by simp)
      rw [← hempty, ← pieces_append, htext, String.append_empty]
    refine ⟨_, pieces_ne_nil _, Or.inr hpieces, ?_, isAbsolute_append hp name⟩
    dsimp only
    rw [htext, pieces_append, hname]
  · refine ⟨_, pieces_ne_nil _, Or.inl rfl, ?_, ?_⟩
    · rw [pieces_append, hname]
    · rw [String.append_assoc]
      exact isAbsolute_append hp ("/" ++ name)

/-- The steps of a longer path, unless it is the path of the name itself. -/
theorem components_child_of_ne (hp : p.text ≠ "") (h : '/' ∉ name.toList) :
    (p.child name).components = p.components ++ (step? name).toList := by
  obtain ⟨before, hbefore, hpieces, hchild, habsolute⟩ := exists_pieces_child hp h
  have hsteps : (pieces '/' p.text).filterMap step? = before.filterMap step? := by
    rcases hpieces with hpieces | hpieces
    · rw [hpieces]
    · rw [hpieces, List.filterMap_append]
      simp [step?, isIdle]
  have hhead : (pieces '/' p.text).head? = before.head? := by
    rcases hpieces with hpieces | hpieces
    · rw [hpieces]
    · rw [hpieces, List.head?_append_of_ne_nil _ hbefore]
  have hlast : [name].filterMap step? = (step? name).toList := by
    cases hstep : step? name <;> simp [hstep]
  rw [components, components, hchild, habsolute, hsteps, hhead, List.filterMap_append,
    List.head?_append_of_ne_nil _ hbefore, hlast]
  split
  · rfl
  · split <;> rfl

theorem components_empty (hp : p.text = "") : p.components = [] := by
  rw [show p = ⟨""⟩ from eq_of_text hp]
  decide

theorem child_of_empty (hp : p.text = "") (name : String) : p.child name = ⟨name⟩ := by
  simp [child, join, hp]

/-- **The steps of the path of an entry** are those of its directory, and its name. -/
theorem components_child (h : IsPlain name) :
    (p.child name).components = p.components ++ [.name name] := by
  have hstep : step? name = some (.name name) := by
    simp [step?, h.idle, h.up]
  by_cases hp : p.text = ""
  · rw [child_of_empty hp, components_empty hp, components, pieces_eq_singleton h.slash,
      not_isAbsolute_of_slash h.slash]
    simp [hstep, h.ne_dot]
  · rw [components_child_of_ne hp h.slash, hstep, Option.toList_some]

/-- **The entries of a directory** have different paths. -/
theorem same_child_iff (h : IsPlain name) (hother : IsPlain other) :
    (p.child name).same (p.child other) = true ↔ name = other := by
  rw [same, beq_iff_eq, components_child h, components_child hother]
  simp

end Path

end GoPlanner

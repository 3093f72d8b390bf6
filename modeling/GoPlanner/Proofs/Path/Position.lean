import GoPlanner.Proofs.Path
import GoPlanner.Proofs.Text.Lines
import Mathlib.Logic.Function.Iterate

/-!
# Paths Below a Directory

Where a path leads can be read off its text, as long as no links are on the way: two dots take back
the name before them. So what an import path adds to a directory comes to a number of steps upward
and some names below. The path lies in the directory exactly if the names that it leaves upward are
those with which it goes on.

## Main definitions

* `Path.position`, `Path.LiesIn`: where a path leads, and paths that lead below another one.
* `Path.net`: what an import path comes to.
* `Path.LeadsBack`: an import path that leads back to where it leaves.

## Main results

* `Path.position_descend`: where a path below a directory leads.
* `Path.liesIn_descend_iff`, `Path.liesIn_descend_of_notMem`: when it lies in the directory.
-/

namespace GoPlanner

namespace Path

variable {p base : Path} {name : String} {importPath : String} {steps reached : List Component}

/-! ### Positions -/

/-- **One step further.** Two dots take back the name before them. Nothing is above the root, and a
relative path goes on upward. -/
def advance (reached : List Component) : Component → List Component
  | .current => reached
  | .parent =>
    match reached.getLast? with
    | some (.name _) => reached.dropLast
    | some .root => reached
    | _ => reached ++ [.parent]
  | step => reached ++ [step]

/-- **Where a path leads,** without dots and without names that are taken back. -/
def position (p : Path) : List Component :=
  p.components.foldl advance []

/-- **A path lies in another one** if it leads to the same place, or further below along names. -/
def LiesIn (p base : Path) : Prop :=
  ∃ names : List String, p.position = base.position ++ names.map .name

theorem position_child (hname : name ≠ "") (h : '/' ∉ name.toList) :
    (p.child name).position = (step? name).toList.foldl advance p.position := by
  by_cases hp : p.text = ""
  · rw [child_of_empty hp, position, position, components_empty hp, components,
      pieces_eq_singleton h, not_isAbsolute_of_slash h]
    by_cases hdot : name = "."
    · subst hdot
      rfl
    · cases hstep : step? name <;> simp [hstep, hdot]
  · rw [position, components_child_of_ne hp h, List.foldl_append]
    rfl

/-- A segment has no slash, and it is not empty. -/
theorem of_mem_segments {s : String} (h : s ∈ segments importPath) :
    s ≠ "" ∧ '/' ∉ s.toList := by
  obtain ⟨hpiece, hne⟩ := List.mem_filter.1 h
  obtain ⟨piece, hmem, rfl⟩ := List.mem_map.1 hpiece
  exact ⟨by simpa using hne, by simpa using notMem_of_mem_splitOn hmem⟩

/-- **Where a path below a directory leads:** the segments are taken as steps from there. -/
theorem position_descend (base : Path) (importPath : String) :
    (base.descend importPath).position =
      ((segments importPath).filterMap step?).foldl advance base.position := by
  have hfold (names : List String) (hnames : ∀ s ∈ names, s ≠ "" ∧ '/' ∉ s.toList) (p : Path) :
      (names.foldl child p).position = (names.filterMap step?).foldl advance p.position := by
    induction names generalizing p with
    | nil => rfl
    | cons name names ih =>
        obtain ⟨⟨hname, hslash⟩, hnames⟩ := List.forall_mem_cons.1 hnames
        rw [List.foldl_cons, ih hnames, position_child hname hslash]
        cases hstep : step? name <;> simp [hstep]
  exact hfold (segments importPath) (fun s hs => of_mem_segments hs) base

/-! ### What segments come to -/

/-- One segment more: a name, or two dots. -/
def netStep (net : Nat × List String) : Component → Nat × List String
  | .name n => (net.1, net.2 ++ [n])
  | .parent => if net.2 = [] then (net.1 + 1, []) else (net.1, net.2.dropLast)
  | _ => net

/-- **What an import path comes to:** how often it leads above the directory where it starts, and
the names along which it leads from there. -/
def net (importPath : String) : Nat × List String :=
  ((segments importPath).filterMap step?).foldl netStep (0, [])

/-- One step upward. -/
def upward (reached : List Component) : List Component :=
  advance reached .parent

theorem advance_name_parent (reached : List Component) (names : List String) (name : String) :
    advance (reached ++ (names ++ [name]).map .name) .parent = reached ++ names.map .name := by
  rw [List.map_append, List.map_singleton, ← List.append_assoc, advance, List.getLast?_concat]
  exact List.dropLast_concat

/-- **Steps come to** some steps upward, and names. -/
theorem foldl_advance (h : ∀ step ∈ steps, step = .parent ∨ ∃ n, step = .name n)
    (reached : List Component) (net : Nat × List String) :
    steps.foldl advance (upward^[net.1] reached ++ net.2.map .name) =
      upward^[(steps.foldl netStep net).1] reached ++ (steps.foldl netStep net).2.map .name := by
  induction steps generalizing net with
  | nil => rfl
  | cons step steps ih =>
      obtain ⟨hstep, hsteps⟩ := List.forall_mem_cons.1 h
      have hadvance : advance (upward^[net.1] reached ++ net.2.map .name) step =
          upward^[(netStep net step).1] reached ++ (netStep net step).2.map .name := by
        obtain ⟨up, names⟩ := net
        rcases hstep with rfl | ⟨n, rfl⟩
        · rcases List.eq_nil_or_concat' names with rfl | ⟨before, last, rfl⟩
          · rw [netStep, if_pos rfl, List.map_nil, List.append_nil, List.append_nil,
              Function.iterate_succ_apply']
            rfl
          · rw [advance_name_parent, netStep, if_neg (by simp)]
            simp
        · simp [netStep, advance]
      rw [List.foldl_cons, List.foldl_cons, hadvance, ih hsteps]

theorem step?_eq_parent (h : step? name = some .parent) : name = ".." := by
  rw [step?] at h
  split at h
  · cases h
  · split at h
    · assumption
    · cases h

theorem of_mem_steps {names : List String} {step : Component} (h : step ∈ names.filterMap step?) :
    step = .parent ∨ ∃ n, step = .name n := by
  obtain ⟨name, -, hstep⟩ := List.mem_filterMap.1 h
  rw [step?] at hstep
  split at hstep
  · cases hstep
  · split at hstep
    · exact .inl (Option.some.inj hstep).symm
    · exact .inr ⟨name, (Option.some.inj hstep).symm⟩

/-- **Where a path below a directory leads,** by what its import path comes to. -/
theorem position_descend_eq_net (base : Path) (importPath : String) :
    (base.descend importPath).position =
      upward^[(net importPath).1] base.position ++ (net importPath).2.map .name := by
  have hsteps : ∀ step ∈ (segments importPath).filterMap step?,
      step = .parent ∨ ∃ n, step = .name n := fun _ => of_mem_steps
  have hfold := foldl_advance hsteps base.position (0, [])
  rw [position_descend, net]
  simpa using hfold

/-! ### Leading back -/

/-- **An import path leads back** to a directory if the names of the directory that it leaves upward
are those with which it goes on. If it does not lead above the directory, no name is left. -/
def LeadsBack (base : Path) (importPath : String) : Prop :=
  ∃ left : List String,
    base.position = upward^[(net importPath).1] base.position ++ left.map .name ∧
      left <+: (net importPath).2

/-- An import path that does not lead above a directory. -/
theorem leadsBack_of_net (h : (net importPath).1 = 0) (base : Path) : base.LeadsBack importPath :=
  ⟨[], by simp [h], List.nil_prefix⟩

/-- **Upward** names are left, and a relative path goes on with two dots when there is none left. -/
theorem iterate_upward_cases (k : Nat) (reached : List Component) :
    (∃ left : List String, reached = upward^[k] reached ++ left.map .name) ∨
      ∃ (front : List Component) (left : List String) (j : Nat), reached = front ++ left.map .name ∧
        upward^[k] reached = front ++ List.replicate (j + 1) .parent := by
  induction k with
  | zero => exact .inl ⟨[], by simp⟩
  | succ k ih =>
      rw [Function.iterate_succ_apply']
      rcases ih with ⟨left, hleft⟩ | ⟨front, left, j, hfront, hup⟩
      · rcases List.eq_nil_or_concat' (upward^[k] reached) with hnil | ⟨before, last, hlast⟩
        · refine .inr ⟨[], left, 0, by rwa [hnil] at hleft, ?_⟩
          rw [hnil]
          rfl
        · cases last with
          | root =>
              refine .inl ⟨left, ?_⟩
              rwa [upward, advance, hlast, List.getLast?_concat, ← hlast]
          | current =>
              refine .inr ⟨_, left, 0, hleft, ?_⟩
              rw [upward, advance, hlast, List.getLast?_concat]
              rfl
          | parent =>
              refine .inr ⟨_, left, 0, hleft, ?_⟩
              rw [upward, advance, hlast, List.getLast?_concat]
              rfl
          | name n =>
              refine .inl ⟨n :: left, ?_⟩
              rw [upward, advance, hlast, List.getLast?_concat]
              rw [hlast] at hleft
              simpa using hleft
      · refine .inr ⟨front, left, j + 1, hfront, ?_⟩
        have hlast : (front ++ List.replicate (j + 1) Component.parent).getLast? =
            some .parent := by
          simp [List.getLast?_append, List.getLast?_replicate]
        rw [upward, advance, hup, hlast, List.replicate_succ' (n := j + 1), List.append_assoc]

/-- **A path below a directory lies in the directory** exactly if the import path leads back to
it. -/
theorem liesIn_descend_iff (base : Path) (importPath : String) :
    (base.descend importPath).LiesIn base ↔ base.LeadsBack importPath := by
  have hinjective : Function.Injective Component.name := fun _ _ h => Component.name.inj h
  rw [LiesIn, position_descend_eq_net]
  constructor
  · rintro ⟨names, hnames⟩
    rcases iterate_upward_cases (net importPath).1 base.position with
      ⟨left, hleft⟩ | ⟨front, left, j, hfront, hup⟩
    · have hsplit : upward^[(net importPath).1] base.position ++ (net importPath).2.map .name =
          upward^[(net importPath).1] base.position ++ (left ++ names).map .name := by
        rw [List.map_append, ← List.append_assoc, ← hleft, hnames]
      exact ⟨left, hleft, names,
        (List.map_injective_iff.2 hinjective (List.append_cancel_left hsplit)).symm⟩
    · -- Where two dots are left over, no name of the directory can stand.
      rw [hup, hfront, List.append_assoc, List.append_assoc, List.append_cancel_left_eq,
        List.replicate_succ, List.cons_append, ← List.map_append] at hnames
      have hmem : Component.parent ∈ (left ++ names).map Component.name :=
        hnames ▸ List.mem_cons_self
      simp at hmem
  · rintro ⟨left, hleft, names, hnames⟩
    refine ⟨names, ?_⟩
    rw [← hnames, List.map_append, ← List.append_assoc, ← hleft]

/-- **Without two dots** every path below a directory lies in it. -/
theorem liesIn_descend_of_notMem (base : Path) (h : ".." ∉ segments importPath) :
    (base.descend importPath).LiesIn base := by
  have hstays (steps : List Component) (hsteps : ∀ step ∈ steps, ∃ n, step = .name n)
      (net : Nat × List String) : (steps.foldl netStep net).1 = net.1 := by
    induction steps generalizing net with
    | nil => rfl
    | cons step steps ih =>
        obtain ⟨⟨n, hstep⟩, hrest⟩ := List.forall_mem_cons.1 hsteps
        rw [List.foldl_cons, ih hrest, hstep]
        rfl
  refine (liesIn_descend_iff base importPath).2 (leadsBack_of_net ?_ base)
  refine hstays _ (fun step hstep => ?_) (0, [])
  rcases of_mem_steps hstep with rfl | hname
  · obtain ⟨name, hmem, hparent⟩ := List.mem_filterMap.1 hstep
    exact absurd (step?_eq_parent hparent ▸ hmem) h
  · exact hname

end Path

end GoPlanner

import GoPlanner.Proofs.FileTree.Rooted

/-!
# Where Paths Lead Without Links

A path spells a place: its names are entered one after the other, and two dots lead back out of the
last one. If no link stands on the way, the path leads to the place that it spells, or nowhere.

## Main definitions

* `FileTree.spell`, `FileTree.spelled`: the place that steps spell.
* `FileTree.IsDirect`: steps without a link on the way.

## Main results

* `FileTree.follow_append_of_isDirect`: direct steps are followed in parts.
* `FileTree.eq_spelled_of_follow`: direct steps lead to the place that they spell.
* `FileTree.spelled_stepsOf_path`: what a path of names spells.
-/

namespace GoPlanner

namespace FileTree

/-- **Where a step leads** from a place, if nothing there is a link. -/
def spell (here : Place) (step : String) : Place :=
  if Path.isIdle step then here else if step = ".." then here.dropLast else here ++ [step]

/-- **The place that steps spell** from the root. -/
def spelled (steps : List String) : Place :=
  steps.foldl spell []

/-- **Steps are direct** when no link stands at a place that they spell on the way. -/
def IsDirect (t : FileTree) (steps : List String) : Prop :=
  ∀ before, before <+: steps → ∀ target, t.node? (spelled before) ≠ some (.link target)

variable {t : FileTree} {here place : Place} {step : String} {before steps first second : List String}
  {links : ℕ}

/-! ### Spelled places -/

theorem spell_of_isIdle (h : Path.isIdle step = true) : spell here step = here :=
  if_pos h

theorem spell_up : spell here ".." = here.dropLast := by
  rw [spell, if_neg (by decide), if_pos rfl]

theorem spell_name (hidle : Path.isIdle step = false) (hup : step ≠ "..") :
    spell here step = here ++ [step] := by
  rw [spell, if_neg (by simp [hidle]), if_neg hup]

@[simp] theorem spelled_nil : spelled [] = [] :=
  rfl

theorem spelled_append (first second : List String) :
    spelled (first ++ second) = second.foldl spell (spelled first) :=
  List.foldl_append

theorem spelled_append_singleton (steps : List String) (step : String) :
    spelled (steps ++ [step]) = spell (spelled steps) step :=
  spelled_append steps [step]

/-- A first step that is idle does not matter. -/
theorem spelled_cons_of_isIdle (h : Path.isIdle step = true) (steps : List String) :
    spelled (step :: steps) = spelled steps := by
  rw [spelled, List.foldl_cons, spell_of_isIdle h, spelled]

/-- **Steps that lead down** only spell longer places. -/
theorem spelled_prefix (hup : ".." ∉ steps) (h : before <+: steps) :
    spelled before <+: spelled steps := by
  obtain ⟨after, rfl⟩ := h
  rw [spelled_append]
  replace hup : ".." ∉ after := fun hmem => hup (List.mem_append_right before hmem)
  generalize spelled before = here
  induction after generalizing here with
  | nil => exact List.prefix_rfl
  | cons step after ih =>
      obtain ⟨hstep, hafter⟩ := not_or.1 (mt List.mem_cons.2 hup)
      refine List.IsPrefix.trans ?_ (ih hafter (spell here step))
      rw [spell, if_neg (Ne.symm hstep)]
      split
      · exact List.prefix_rfl
      · exact List.prefix_append here [step]

/-- **What the path of names spells** is what the names spell. -/
theorem spelled_stepsOf_path (h : ∀ step ∈ steps, '/' ∉ step.toList) :
    spelled (stepsOf (Place.path steps)) = spelled steps := by
  by_cases hsteps : steps = []
  · subst hsteps
    decide
  · rw [stepsOf, pieces_path hsteps h, spelled_cons_of_isIdle rfl]

/-! ### Direct steps -/

theorem IsDirect.of_prefix (h : t.IsDirect steps) (hbefore : before <+: steps) :
    t.IsDirect before :=
  fun _ hstart => h _ (hstart.trans hbefore)

/-- Steps are walked in parts if no link stands at the places that the first ones spell. -/
theorem walk_append_of_spell {jump : Place → List String → Except Fault Place}
    (hdirect : ∀ before, before <+: first → ∀ target,
      t.node? (before.foldl spell here) ≠ some (.link target))
    (h : t.walk jump here (first ++ second) = .ok place) (rest : List String) :
    t.walk jump here (first ++ rest) = t.walk jump (first.foldl spell here) rest := by
  induction first generalizing here with
  | nil => rfl
  | cons step first ih =>
      rw [List.cons_append] at h
      obtain ⟨hhere, hstep⟩ := walk_cons_ok.1 h
      -- The first step spells a place from which the others are direct.
      have hnext (h : t.walk jump (spell here step) (first ++ second) = .ok place) :
          t.walk jump (spell here step) (first ++ rest) =
            t.walk jump ((step :: first).foldl spell here) rest :=
        ih (fun before hbefore => hdirect (step :: before) ((List.prefix_cons_inj step).2 hbefore)) h
      rcases hstep with ⟨hidle, hrest⟩ | ⟨hidle, rfl, hrest⟩ |
        ⟨hidle, hup, hlen, node, hnode, ⟨target, rfl, -⟩ | ⟨hlink, hrest⟩⟩
      · rw [spell_of_isIdle hidle] at hnext
        rw [List.cons_append, walk, hhere, ← hnext hrest]
        simp [hidle]
      · rw [spell_up] at hnext
        rw [List.cons_append, walk, hhere, ← hnext hrest]
        simp [hidle]
      · have hthere := hdirect [step] ((List.prefix_cons_inj step).2 List.nil_prefix) target
        rw [List.foldl_cons, List.foldl_nil, spell_name hidle hup] at hthere
        exact absurd hnode hthere
      · rw [spell_name hidle hup] at hnext
        rw [List.cons_append, walk, hhere, ← hnext hrest]
        cases node with
        | link target => simp [Node.isLink] at hlink
        | directory => simp [hidle, hup, Nat.not_lt.2 hlen, hnode]
        | file c x => simp [hidle, hup, Nat.not_lt.2 hlen, hnode]

/-- **Direct steps are followed in parts:** the first ones lead to the place that they spell. -/
theorem follow_append_of_isDirect (hdirect : t.IsDirect steps)
    (h : t.follow links [] steps = .ok place) (hbefore : before <+: steps) (rest : List String) :
    t.follow links [] (before ++ rest) = t.follow links (spelled before) rest := by
  obtain ⟨jump, hjump⟩ := t.exists_follow_eq_walk links
  obtain ⟨after, rfl⟩ := hbefore
  rw [hjump] at h ⊢
  exact walk_append_of_spell (hdirect.of_prefix (List.prefix_append before after)) h rest

/-- **Direct steps lead** to the place that they spell. -/
theorem eq_spelled_of_follow (hdirect : t.IsDirect steps)
    (h : t.follow links [] steps = .ok place) : place = spelled steps := by
  have hparts := follow_append_of_isDirect hdirect h List.prefix_rfl []
  rw [List.append_nil, h] at hparts
  exact (follow_nil_ok.1 hparts.symm).1.symm

end FileTree

end GoPlanner

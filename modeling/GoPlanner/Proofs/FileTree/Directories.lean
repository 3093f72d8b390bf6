import GoPlanner.Proofs.FileTree.Child

/-!
# New Directories

Making a directory with its missing ancestors changes nothing but this: at places where nothing
was there are directories now, and the paths of the directory and of its ancestors lead to them.
This is so as well when a step is refused and only some of them could be made.

## Main definitions

* `FileTree.AddsDirectories`: a later tree has what an earlier one has, and new directories to
  which given paths lead.

## Main results

* `FileTree.addsDirectories_makeDirectory`: one new directory.
* `FileTree.addsDirectories_afterDirectories`: a directory with its ancestors.
-/

namespace GoPlanner

namespace FileTree

variable {t t' t'' : FileTree} {place : Place} {p : Path} {ps qs : List Path}

/-- **A later tree has new directories** to which the given paths lead, and is the same
otherwise. -/
structure AddsDirectories (ps : List Path) (t t' : FileTree) : Prop where
  /-- The working directory is the same. -/
  cwd : t'.cwd = t.cwd
  /-- The time is the same. -/
  clock : t'.clock = t.clock
  /-- A place is as it was, or there is a directory where nothing was. -/
  entry : ∀ place, t'.entry? place = t.entry? place ∨
    (place ≠ [] ∧ t.entry? place = none ∧ t'.entry? place = some ⟨.directory, t.clock⟩ ∧
      ∃ p ∈ ps, t'.resolve p = .ok place)

theorem AddsDirectories.refl (ps : List Path) (t : FileTree) : AddsDirectories ps t t :=
  ⟨rfl, rfl, fun _ => Or.inl rfl⟩

theorem AddsDirectories.mono (h : AddsDirectories ps t t') (hsub : ∀ p ∈ ps, p ∈ qs) :
    AddsDirectories qs t t' where
  cwd := h.cwd
  clock := h.clock
  entry := by
    intro place
    refine (h.entry place).imp_right ?_
    rintro ⟨hroot, hnone, hnew, p, hp, hresolve⟩
    exact ⟨hroot, hnone, hnew, p, hsub p hp, hresolve⟩

/-- What was there is still there. -/
theorem AddsDirectories.node?_eq (h : AddsDirectories ps t t') {node : Node}
    (hnode : t.node? place = some node) : t'.node? place = some node := by
  by_cases hroot : place = []
  · simpa [node?, hroot] using hnode
  · rcases h.entry place with hsame | ⟨-, hnone, -⟩
    · rw [← hnode, node?, node?, hsame]
    · simp [node?, hroot, hnone] at hnode

theorem AddsDirectories.retains (h : AddsDirectories ps t t') : Retains t t' where
  cwd := h.cwd
  node _ _ hnode := Or.inl (h.node?_eq hnode)

theorem AddsDirectories.trans (h : AddsDirectories ps t t') (h' : AddsDirectories qs t' t'') :
    AddsDirectories (ps ++ qs) t t'' where
  cwd := h'.cwd.trans h.cwd
  clock := h'.clock.trans h.clock
  entry := by
    intro place
    rcases h.entry place with hsame | ⟨hroot, hnone, hnew, p, hp, hresolve⟩
    · rw [← hsame, ← h.clock]
      refine (h'.entry place).imp_right ?_
      rintro ⟨hroot, hnone, hnew, p, hp, hresolve⟩
      exact ⟨hroot, hnone, hnew, p, List.mem_append_right ps hp, hresolve⟩
    · rcases h'.entry place with hsame | ⟨-, hgone, -⟩
      · refine Or.inr ⟨hroot, hnone, hsame.trans hnew, p, List.mem_append_left qs hp, ?_⟩
        exact h'.retains.resolve_eq hresolve
      · rw [hnew] at hgone
        cases hgone

/-! ### One directory -/

/-- Steps that are empty stay in a directory. -/
theorem walk_empty {jump : Place → List String → Except Fault Place}
    (hdir : t.node? place = some .directory) {steps : List String}
    (hsteps : ∀ s ∈ steps, s = "") : t.walk jump place steps = .ok place := by
  induction steps with
  | nil => simp [walk, hdir]
  | cons step steps ih =>
      obtain ⟨rfl, hrest⟩ := List.forall_mem_cons.1 hsteps
      rw [walk, hdir]
      exact ih hrest

/-- **The last name of a path** leads from the place of the other steps to a directory. -/
theorem resolve_of_lastName {before : List String} {name : String} {slash : Bool} {dir : Place}
    (hrefusal : refusal? p = none) (hlast : lastName? (stepsOf p) = some (before, name, slash))
    (hfollow : t.follow maxLinks (startOf t.cwd p) before = .ok dir)
    (hdir : t.node? dir = some .directory) (hlen : name.utf8ByteSize ≤ maxName)
    (hnode : t.node? (dir ++ [name]) = some .directory) : t.resolve p = .ok (dir ++ [name]) := by
  obtain ⟨trailing, hsteps, hempty, hidle, hup⟩ := lastName?_eq_some hlast
  rw [← List.append_nil before] at hfollow
  obtain ⟨n, middle, hmiddle⟩ := follow_append hfollow
  rw [hmiddle] at hfollow
  obtain ⟨rfl, -⟩ := follow_nil_ok.1 hfollow
  rw [resolve, hrefusal]
  dsimp only
  obtain ⟨jump, hjump⟩ := t.exists_follow_eq_walk n
  rw [hsteps, hmiddle, hjump]
  exact walk_cons_ok.2 ⟨hdir, Or.inr (Or.inr ⟨hidle, hup, hlen, _, hnode,
    Or.inr ⟨rfl, walk_empty hnode hempty⟩⟩)⟩

/-- **A new directory** is where its path leads. -/
theorem addsDirectories_makeDirectory (h : t.makeDirectory p = .ok t') :
    AddsDirectories [p] t t' := by
  obtain ⟨before, name, slash, dir, hrefusal, hlast, hfollow, hdir, hlen, hnone, rfl⟩ :=
    makeDirectory_ok h
  have hroot : dir ++ [name] ≠ [] := by simp
  have hretains : Retains t (t.put (dir ++ [name]) ⟨.directory, t.clock⟩) := retains_put hroot hnone
  refine ⟨rfl, rfl, fun place => ?_⟩
  rw [entry?_put]
  by_cases hplace : place = dir ++ [name]
  · subst hplace
    refine Or.inr ⟨hroot, by simpa [node?] using hnone, if_pos rfl, p, by simp, ?_⟩
    exact resolve_of_lastName hrefusal hlast (hretains.follow hfollow) (hretains.directory hdir)
      hlen (by rw [node?_put _ hroot, if_pos rfl])
  · exact Or.inl (if_neg hplace)

theorem addsDirectories_ensureDirectory (h : t.ensureDirectory p = .ok t') :
    AddsDirectories [p] t t' := by
  rw [ensureDirectory] at h
  split at h
  next hmade =>
    obtain rfl := Except.ok.inj h
    exact addsDirectories_makeDirectory hmade
  · split at h
    · obtain rfl := Except.ok.inj h
      exact .refl _ t
    · cases h

/-! ### A directory with its ancestors -/

/-- **Making a directory below others** adds directories, also when it fails. -/
theorem addsDirectories_makeBelow (t : FileTree) (p : Path) (above : List Path) :
    AddsDirectories (p :: above) t (behind (t.makeBelow p above)) := by
  induction above generalizing p with
  | nil =>
      rw [makeBelow]
      split
      · exact .refl _ t
      · split
        next hmade => exact addsDirectories_makeDirectory hmade
        · exact .refl _ t
        · split <;> exact .refl _ t
  | cons next above ih =>
      have hbelow := ih next
      rw [makeBelow]
      split
      · exact .refl _ t
      · split
        next hmade => exact (addsDirectories_makeDirectory hmade).mono (by simp)
        · cases hnext : t.makeBelow next above with
          | error e =>
              rw [hnext] at hbelow
              exact hbelow.mono fun q hq => List.mem_cons_of_mem p hq
          | ok t₁ =>
              rw [hnext] at hbelow
              dsimp only
              cases hlast : t₁.ensureDirectory p with
              | error e => exact hbelow.mono fun q hq => List.mem_cons_of_mem p hq
              | ok t₂ =>
                  refine (hbelow.trans (addsDirectories_ensureDirectory hlast)).mono fun q hq => ?_
                  rcases List.mem_append.1 hq with hq | hq
                  · exact List.mem_cons_of_mem p hq
                  · exact List.mem_singleton.1 hq ▸ List.mem_cons_self
        · split <;> exact .refl _ t

/-- **Making a directory with its ancestors** adds directories, also when it fails. -/
theorem addsDirectories_afterDirectories (t : FileTree) (p : Path) :
    AddsDirectories (p :: p.ancestors) t (t.afterDirectories p) :=
  addsDirectories_makeBelow t p p.ancestors

end FileTree

end GoPlanner

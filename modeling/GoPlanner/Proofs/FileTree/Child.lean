import GoPlanner.Proofs.FileTree.Freshness
import GoPlanner.Proofs.Path
import Mathlib.Data.List.TakeWhile

/-!
# Entries of a Directory by Their Paths

The steps of a path can be followed in parts, whatever links are on the way. So the path of an
entry leads to the entry at the place that the path of the directory leads to, unless a link is
there.

## Main results

* `FileTree.follow_append`: steps that are followed in parts.
* `FileTree.resolve_child`, `FileTree.resolveWrite_child`: where the path of an entry leads.
* `FileTree.makeDirectories_of_directory`: a directory that is there is not made again.
-/

namespace GoPlanner

namespace FileTree

variable {t : FileTree} {place directory here : Place} {p : Path} {name : String} {links : Nat}
  {before steps : List String}

/-! ### Last names -/

/-- **The last name of a path** is behind the other steps. -/
theorem lastName?_eq_some {slash : Bool} (h : lastName? steps = some (before, name, slash)) :
    ∃ trailing, steps = before ++ name :: trailing ∧ (∀ s ∈ trailing, s = "") ∧
      Path.isIdle name = false ∧ name ≠ ".." := by
  rw [lastName?] at h
  split at h
  · cases h
  · rename_i last others hothers
    split at h
    · cases h
    · rename_i hname
      simp only [Option.some.injEq, Prod.mk.injEq] at h
      obtain ⟨rfl, rfl, -⟩ := h
      simp only [Bool.or_eq_true, beq_iff_eq, not_or, Bool.not_eq_true] at hname
      refine ⟨(steps.reverse.takeWhile (fun s => s == "")).reverse, ?_, ?_, hname.1, hname.2⟩
      swap
      · intro s hs
        simpa using List.mem_takeWhile_imp (List.mem_reverse.1 hs)
      have hsplit := List.takeWhile_append_dropWhile (p := fun s => s == "") (l := steps.reverse)
      rw [hothers] at hsplit
      rw [← List.reverse_inj]
      simpa using hsplit.symm

theorem lastName?_append (h : IsPlain name) :
    lastName? (before ++ [name]) = some (before, name, false) := by
  simp [lastName?, h.ne_empty, h.idle, h.up]

/-! ### Following steps in parts -/

/-- Following steps is walking, with some way to go on behind a link. -/
theorem exists_follow_eq_walk (t : FileTree) (links : Nat) :
    ∃ jump, t.follow links = t.walk jump := by
  cases links with
  | zero => exact ⟨_, rfl⟩
  | succ links => exact ⟨_, rfl⟩

theorem follow_nil_ok : t.follow links here [] = .ok place ↔
    here = place ∧ (t.node? here).isSome = true := by
  obtain ⟨jump, hjump⟩ := t.exists_follow_eq_walk links
  rw [hjump, walk]
  split
  · rename_i hnode
    simp [hnode]
  · rename_i hnode
    simp [hnode]

/-- Steps that are walked in parts, given how it goes on behind links. -/
theorem walk_append {jump : Place → List String → Except Fault Place}
    (hself : t.walk jump = t.follow links)
    (hjump : ∀ here first second place, jump here (first ++ second) = .ok place →
      ∃ n middle, ∀ rest, jump here (first ++ rest) = t.follow n middle rest)
    {first second : List String} (h : t.walk jump here (first ++ second) = .ok place) :
    ∃ n middle, ∀ rest, t.walk jump here (first ++ rest) = t.follow n middle rest := by
  induction first generalizing here with
  | nil => exact ⟨links, here, fun rest => by rw [List.nil_append, hself]⟩
  | cons step first ih =>
      rw [List.cons_append] at h
      obtain ⟨hhere, hstep⟩ := walk_cons_ok.1 h
      rcases hstep with ⟨hidle, hrest⟩ | ⟨hidle, hup, hrest⟩ |
        ⟨hidle, hup, hlen, node, hnode, ⟨target, rfl, hrest⟩ | ⟨hlink, hrest⟩⟩
      · obtain ⟨n, middle, hmiddle⟩ := ih hrest
        refine ⟨n, middle, fun rest => ?_⟩
        rw [List.cons_append, walk, hhere]
        simp [hidle, hmiddle]
      · obtain ⟨n, middle, hmiddle⟩ := ih hrest
        refine ⟨n, middle, fun rest => ?_⟩
        subst hup
        rw [List.cons_append, walk, hhere]
        simp [hidle, hmiddle]
      · rw [← List.append_assoc] at hrest
        obtain ⟨n, middle, hmiddle⟩ := hjump _ _ _ _ hrest
        refine ⟨n, middle, fun rest => ?_⟩
        rw [List.cons_append, walk, hhere]
        simp [hidle, hup, Nat.not_lt.2 hlen, hnode, ← List.append_assoc, hmiddle]
      · obtain ⟨n, middle, hmiddle⟩ := ih hrest
        refine ⟨n, middle, fun rest => ?_⟩
        rw [List.cons_append, walk, hhere]
        cases node with
        | link target => simp [Node.isLink] at hlink
        | directory => simp [hidle, hup, Nat.not_lt.2 hlen, hnode, hmiddle]
        | file c x => simp [hidle, hup, Nat.not_lt.2 hlen, hnode, hmiddle]

/-- **Steps can be followed in parts:** the first ones lead to a place, from which the others
are followed. -/
theorem follow_append {first second : List String}
    (h : t.follow links here (first ++ second) = .ok place) :
    ∃ n middle, ∀ rest, t.follow links here (first ++ rest) = t.follow n middle rest := by
  induction links generalizing here place first second with
  | zero =>
      have hself : t.walk (fun _ _ => .error .tooManyLinks) = t.follow 0 := rfl
      exact walk_append hself (fun _ _ _ _ hjump => by cases hjump) h
  | succ links ih =>
      have hself : t.walk (t.follow links) = t.follow (links + 1) := rfl
      refine walk_append hself (fun here first second place hjump => ?_) h
      exact ih hjump

/-- A name leads to the entry of a directory, unless a link is there. -/
theorem follow_name (hname : IsPlain name)
    (hlink : ∀ node, t.node? (here ++ [name]) = some node → node.isLink = false)
    (h : t.follow links here [name] = .ok place) : place = here ++ [name] := by
  obtain ⟨jump, hjump⟩ := t.exists_follow_eq_walk links
  rw [hjump] at h
  obtain ⟨-, ⟨hidle, -⟩ | ⟨-, hup, -⟩ | ⟨-, -, -, node, hnode, ⟨target, rfl, -⟩ | ⟨-, hend⟩⟩⟩ :=
    walk_cons_ok.1 h
  · rw [hname.idle] at hidle
    cases hidle
  · exact absurd hup hname.up
  · simpa [Node.isLink] using hlink _ hnode
  · rw [← hjump] at hend
    exact (follow_nil_ok.1 hend).1.symm

/-! ### Paths of entries -/

/-- What a path leads to, and the way to it. -/
theorem find_ok {node : Node} (h : t.find p = .ok (place, node)) :
    refusal? p = none ∧ t.follow maxLinks (startOf t.cwd p) (stepsOf p) = .ok place ∧
      t.node? place = some node := by
  rw [find, resolve] at h
  cases hrefusal : refusal? p with
  | some fault => simp [hrefusal] at h
  | none =>
      simp only [hrefusal] at h
      cases hplace : t.follow maxLinks (startOf t.cwd p) (stepsOf p) with
      | error fault => simp [hplace] at h
      | ok other =>
          simp only [hplace] at h
          cases hnode : t.node? other with
          | none => simp [hnode] at h
          | some node' =>
              simp only [hnode, Except.ok.injEq, Prod.mk.injEq] at h
              obtain ⟨rfl, rfl⟩ := h
              exact ⟨rfl, rfl, hnode⟩

theorem text_ne_of_refusal? (h : refusal? p = none) : p.text ≠ "" := by
  intro hempty
  simp [refusal?, hempty, maxPath] at h

/-- **The steps of a path** lead to the directory that it names before those behind them are taken,
whether a slash ends the path or not. -/
theorem exists_follow_append (hfind : t.find p = .ok (directory, .directory))
    (hpieces : pieces '/' p.text = before ∨ pieces '/' p.text = before ++ [""]) :
    ∃ links, ∀ rest, t.follow maxLinks (startOf t.cwd p) (before ++ rest) =
      t.follow links directory rest := by
  obtain ⟨hrefusal, hfollow, -⟩ := find_ok hfind
  rcases hpieces with hpieces | hpieces
  · have hsteps : stepsOf p = before ++ [] := by rw [stepsOf, hpieces, List.append_nil]
    rw [hsteps] at hfollow
    obtain ⟨n, middle, hmiddle⟩ := follow_append hfollow
    rw [hmiddle] at hfollow
    obtain ⟨rfl, -⟩ := follow_nil_ok.1 hfollow
    exact ⟨n, hmiddle⟩
  · have hsteps : stepsOf p = before ++ [""] := hpieces
    rw [hsteps] at hfollow
    obtain ⟨n, middle, hmiddle⟩ := follow_append hfollow
    rw [hmiddle] at hfollow
    obtain ⟨jump, hjump⟩ := t.exists_follow_eq_walk n
    rw [hjump] at hfollow
    have hidle : Path.isIdle "" = true := by decide
    obtain ⟨-, ⟨-, hend⟩ | ⟨hidle', -⟩ | ⟨hidle', -⟩⟩ := walk_cons_ok.1 hfollow
    · rw [← hjump] at hend
      obtain ⟨rfl, -⟩ := follow_nil_ok.1 hend
      exact ⟨n, hmiddle⟩
    · exact absurd hidle (by simp [hidle'])
    · exact absurd hidle (by simp [hidle'])

/-- **The steps of the path of an entry** lead to the directory before they lead to the
entry. -/
theorem exists_stepsOf_child (hfind : t.find p = .ok (directory, .directory))
    (hname : IsPlain name) :
    ∃ before links, stepsOf (p.child name) = before ++ [name] ∧
      ∀ rest, t.follow maxLinks (startOf t.cwd (p.child name)) (before ++ rest) =
        t.follow links directory rest := by
  obtain ⟨before, -, hpieces, hchild, habsolute⟩ :=
    Path.exists_pieces_child (text_ne_of_refusal? (find_ok hfind).1) hname.slash
  have hstart : startOf t.cwd (p.child name) = startOf t.cwd p := by
    rw [startOf, startOf, habsolute]
  obtain ⟨links, hfollow⟩ := exists_follow_append hfind hpieces
  rw [hstart]
  exact ⟨before, links, hchild, hfollow⟩

/-- **The path of an entry** leads to the entry, unless a link is there. -/
theorem resolve_child (hfind : t.find p = .ok (directory, .directory)) (hname : IsPlain name)
    (hlink : ∀ node, t.node? (directory ++ [name]) = some node → node.isLink = false)
    (h : t.resolve (p.child name) = .ok place) : place = directory ++ [name] := by
  obtain ⟨before, n, hsteps, hfollow⟩ := exists_stepsOf_child hfind hname
  rw [resolve] at h
  split at h
  · cases h
  · rw [hsteps, hfollow] at h
    exact follow_name hname hlink h

/-- **A write to an entry** puts it there, unless a link is there. -/
theorem resolveWrite_child (hfind : t.find p = .ok (directory, .directory)) (hname : IsPlain name)
    (hlink : ∀ node, t.node? (directory ++ [name]) = some node → node.isLink = false)
    (h : t.resolveWrite (p.child name) = .ok place) : place = directory ++ [name] := by
  obtain ⟨before, n, hsteps, hfollow⟩ := exists_stepsOf_child hfind hname
  rw [resolveWrite] at h
  split at h
  · cases h
  · obtain ⟨before', name', dir, hlast, hdir, -, -, hend⟩ := writePlace_ok h
    rw [hsteps, lastName?_append hname] at hlast
    obtain ⟨rfl, rfl, -⟩ := by simpa only [Option.some.injEq, Prod.mk.injEq] using hlast
    have hdir' := hfollow []
    rw [List.append_nil, hdir] at hdir'
    obtain ⟨rfl, -⟩ := follow_nil_ok.1 hdir'.symm
    rcases hend with ⟨hplace, -⟩ | ⟨-, target, -, hnode, -⟩
    · exact hplace
    · simpa [Node.isLink] using hlink _ hnode

/-! ### Directories that are there -/

/-- A directory that is there cannot be made. -/
theorem makeDirectory_of_directory (hfind : t.find p = .ok (directory, .directory)) :
    t.makeDirectory p = .error .alreadyThere := by
  obtain ⟨hrefusal, hfollow, hnode⟩ := find_ok hfind
  rw [makeDirectory, hrefusal]
  dsimp only
  split
  · simp [resolve, hrefusal, hfollow, Except.bind]
  · rename_i before name slash hlast
    obtain ⟨trailing, hsteps, -, hidle, hup⟩ := lastName?_eq_some hlast
    rw [hsteps] at hfollow
    obtain ⟨n, middle, hmiddle⟩ := follow_append hfollow
    rw [hmiddle] at hfollow
    obtain ⟨jump, hjump⟩ := t.exists_follow_eq_walk n
    rw [hjump] at hfollow
    obtain ⟨hdir, ⟨hidle', -⟩ | ⟨-, hup', -⟩ | ⟨-, -, hlen, node, hthere, -⟩⟩ :=
      walk_cons_ok.1 hfollow
    · rw [hidle] at hidle'
      cases hidle'
    · exact absurd hup' hup
    · have hbefore : t.follow maxLinks (startOf t.cwd p) before = .ok middle := by
        have hend := hmiddle []
        rw [List.append_nil] at hend
        rw [hend, follow_nil_ok]
        simp [hdir]
      simp [hbefore, isDirectoryAt, hdir, Nat.not_lt.2 hlen, hthere]

/-- **A directory that is there** is not made again. -/
theorem makeDirectories_of_directory (hfind : t.find p = .ok (directory, .directory)) :
    t.makeDirectories p = .ok t := by
  have hmade := makeDirectory_of_directory hfind
  have hdir : t.isDirectory p = true := isDirectory_iff.2 ⟨directory, hfind⟩
  have htext := text_ne_of_refusal? (find_ok hfind).1
  rw [makeDirectories_eq_ok]
  cases p.ancestors with
  | nil =>
      simp only [makeBelow, htext, hmade, hdir, if_false, if_true]
      rfl
  | cons above others =>
      simp only [makeBelow, htext, hmade, hdir, if_false, if_true]
      rfl

end FileTree

end GoPlanner

import GoPlanner.FileTree.Below
import GoPlanner.FileTree.Write
import Mathlib.Data.List.Basic

/-!
# Writing Again

A write puts a file at one place and leaves all other places as they are, and a new
directory is made where nothing was. The way to a file that has been written is still there,
so the file can be written again.

## Main definitions

* `FileTree.Spares`: a later tree has the directories and links of an earlier one.
* `FileTree.Retains`: a later tree has what an earlier one has, with other contents.
* `FileTree.HoldsBelow`: a file below a directory.

## Main results

* `FileTree.node?_put`: what stands at the places of a changed tree.
* `FileTree.isSome_of_resolve`: a path that can be resolved leads to something.
* `FileTree.Spares.follow`, `FileTree.Retains.follow`: a way that is there stays there.
* `FileTree.write_again`: a file that has been written can be written again.
* `FileTree.retains_write`, `FileTree.retains_makeDirectories`: changes that retain all files.
-/

namespace GoPlanner

/-- Whether a node is a file. -/
def Node.isFile : Node → Bool
  | file _ _ => true
  | _ => false

namespace FileTree

variable {t t' : FileTree} {place : Place} {p : Path}

/-! ### Changing one place -/

theorem entry?_put (t : FileTree) (place other : Place) (e : Entry) :
    FileTree.entry? (t.put place e) other = if other = place then some e else t.entry? other := by
  have hfilter : ∀ entries : List (Place × Entry), other ≠ place →
      (entries.filter (fun e => e.1 != place)).lookup other = entries.lookup other := by
    intro entries hne
    induction entries with
    | nil => rfl
    | cons entry entries ih =>
        by_cases h : entry.1 = place
        · have hother : (other == entry.1) = false := beq_false_of_ne (h ▸ hne)
          rw [List.filter_cons_of_neg (by simp [h]), ih, List.lookup_cons, hother]
        · rw [List.filter_cons_of_pos (by simp [h]), List.lookup_cons, List.lookup_cons, ih]
  unfold entry? put
  by_cases h : other = place
  · simp [h]
  · rw [if_neg h, List.lookup_cons, beq_false_of_ne h]
    exact hfilter t.entries h

/-- **What stands at a place** of a changed tree. -/
theorem node?_put (t : FileTree) {place : Place} (hplace : place ≠ []) (other : Place)
    (e : Entry) :
    (t.put place e).node? other = if other = place then some e.node else t.node? other := by
  simp only [node?]
  rw [entry?_put]
  by_cases h : other = place
  · simp [h, hplace]
  · simp [h]

/-! ### Ways -/

/-- **Walking along one more step** leads to a place in three ways: the step is a dot, or
two dots, or the name of something that is there. -/
theorem walk_cons_ok {jump : Place → List String → Except Fault Place} {here : Place}
    {step : String} {rest : List String} :
    t.walk jump here (step :: rest) = .ok place ↔ t.node? here = some .directory ∧
      ((Path.isIdle step = true ∧ t.walk jump here rest = .ok place) ∨
        (Path.isIdle step = false ∧ step = ".." ∧ t.walk jump here.dropLast rest = .ok place) ∨
        (Path.isIdle step = false ∧ step ≠ ".." ∧ step.utf8ByteSize ≤ maxName ∧
          ∃ node, t.node? (here ++ [step]) = some node ∧
            ((∃ target, node = .link target ∧
                jump (startOf here target) (stepsOf target ++ rest) = .ok place) ∨
              (node.isLink = false ∧ t.walk jump (here ++ [step]) rest = .ok place)))) := by
  rw [walk]
  rcases hhere : t.node? here with _ | _ | _ | _
  case some.directory =>
    cases hidle : Path.isIdle step with
    | true => simp
    | false =>
        by_cases hup : step = ".."
        · simp [hup]
        · by_cases hlen : maxName < step.utf8ByteSize
          · simp [hup, hlen, Nat.not_le.2 hlen]
          · rcases hnode : t.node? (here ++ [step]) with _ | _ | _ | _ <;>
              simp [hup, hlen, Node.isLink, Nat.not_lt.1 hlen]
  all_goals simp

/-- Steps that lead to a place lead to something. -/
theorem isSome_of_walk {jump : Place → List String → Except Fault Place}
    (hjump : ∀ here steps, jump here steps = .ok place → (t.node? place).isSome)
    {steps : List String} {here : Place} (h : t.walk jump here steps = .ok place) :
    (t.node? place).isSome := by
  induction steps generalizing here with
  | nil =>
      rw [walk] at h
      split at h
      · obtain rfl := Except.ok.inj h
        assumption
      · cases h
  | cons step rest ih =>
      obtain ⟨-, ⟨-, hrest⟩ | ⟨-, -, hrest⟩ | ⟨-, -, -, node, -, ⟨target, -, hrest⟩ | ⟨-, hrest⟩⟩⟩ :=
        walk_cons_ok.1 h
      · exact ih hrest
      · exact ih hrest
      · exact hjump _ _ hrest
      · exact ih hrest

theorem isSome_of_follow {links : Nat} {here : Place} {steps : List String}
    (h : t.follow links here steps = .ok place) : (t.node? place).isSome := by
  induction links generalizing here steps with
  | zero => exact isSome_of_walk (fun _ _ hjump => by cases hjump) h
  | succ links ih => exact isSome_of_walk (fun _ _ hjump => ih hjump) h

/-- **A path that can be resolved** leads to something. -/
theorem isSome_of_resolve (h : t.resolve p = .ok place) : (t.node? place).isSome := by
  rw [resolve] at h
  split at h
  · cases h
  · exact isSome_of_follow h

/-- **A later tree spares** directories and links: files may have other contents, or be gone. -/
structure Spares (t t' : FileTree) : Prop where
  /-- The working directory is the same. -/
  cwd : t'.cwd = t.cwd
  /-- What stands at a place. -/
  node : ∀ place node, t.node? place = some node →
    t'.node? place = some node ∨
      (node.isFile = true ∧ ∀ node', t'.node? place = some node' → node'.isFile = true)

theorem Spares.directory (h : Spares t t') (hdir : t.node? place = some .directory) :
    t'.node? place = some .directory := by
  rcases h.node place _ hdir with h | ⟨hfile, -⟩
  · exact h
  · simp [Node.isFile] at hfile

theorem Spares.link (h : Spares t t') {target : Path}
    (hlink : t.node? place = some (.link target)) : t'.node? place = some (.link target) := by
  rcases h.node place _ hlink with h | ⟨hfile, -⟩
  · exact h
  · simp [Node.isFile] at hfile

/-- What is no link is no link, if it is still there. -/
theorem Spares.isLink_eq_false (h : Spares t t') {node node' : Node}
    (hnode : t.node? place = some node) (hlink : node.isLink = false)
    (hnode' : t'.node? place = some node') : node'.isLink = false := by
  rcases h.node place _ hnode with h | ⟨-, h⟩
  · rwa [Option.some.inj (hnode'.symm.trans h)]
  · have hfile := h node' hnode'
    cases node' with
    | file c x => rfl
    | directory => rfl
    | link target => simp [Node.isFile] at hfile

/-- Steps that lead to a place still lead to it, if it is still there. -/
theorem Spares.walk (h : Spares t t') (hthere : (t'.node? place).isSome = true)
    {jump jump' : Place → List String → Except Fault Place}
    (hjump : ∀ here steps, jump here steps = .ok place → jump' here steps = .ok place)
    {steps : List String} {here : Place} (hwalk : t.walk jump here steps = .ok place) :
    t'.walk jump' here steps = .ok place := by
  induction steps generalizing here with
  | nil =>
      rw [FileTree.walk] at hwalk ⊢
      split at hwalk
      · obtain rfl := Except.ok.inj hwalk
        rw [if_pos hthere]
      · cases hwalk
  | cons step rest ih =>
      obtain ⟨hhere, hstep⟩ := walk_cons_ok.1 hwalk
      refine walk_cons_ok.2 ⟨h.directory hhere, ?_⟩
      rcases hstep with ⟨hidle, hrest⟩ | ⟨hidle, hup, hrest⟩ |
        ⟨hidle, hup, hlen, node, hnode, ⟨target, rfl, hrest⟩ | ⟨hlink, hrest⟩⟩
      · exact Or.inl ⟨hidle, ih hrest⟩
      · exact Or.inr (Or.inl ⟨hidle, hup, ih hrest⟩)
      · exact Or.inr (Or.inr ⟨hidle, hup, hlen, _, h.link hnode,
          Or.inl ⟨target, rfl, hjump _ _ hrest⟩⟩)
      · -- What the step leads to is the end of the way, or a directory.
        have hnext : ∃ node', t'.node? (here ++ [step]) = some node' := by
          cases rest with
          | nil =>
              rw [FileTree.walk] at hrest
              split at hrest
              · obtain rfl := Except.ok.inj hrest
                exact Option.isSome_iff_exists.1 hthere
              · cases hrest
          | cons next rest => exact ⟨_, h.directory (walk_cons_ok.1 hrest).1⟩
        obtain ⟨node', hnode'⟩ := hnext
        exact Or.inr (Or.inr ⟨hidle, hup, hlen, node', hnode',
          Or.inr ⟨h.isLink_eq_false hnode hlink hnode', ih hrest⟩⟩)

/-- **A way to something that is still there** is still there. -/
theorem Spares.follow (h : Spares t t') (hthere : (t'.node? place).isSome = true) {links : Nat}
    {here : Place} {steps : List String} (hfollow : t.follow links here steps = .ok place) :
    t'.follow links here steps = .ok place := by
  induction links generalizing here steps with
  | zero => exact h.walk hthere (fun _ _ hjump => by cases hjump) hfollow
  | succ links ih => exact h.walk hthere (fun _ _ hjump => ih hjump) hfollow

theorem Spares.resolve_eq (h : Spares t t') (hthere : (t'.node? place).isSome = true)
    (hresolve : t.resolve p = .ok place) : t'.resolve p = .ok place := by
  rw [resolve] at hresolve ⊢
  split at hresolve
  · cases hresolve
  · rw [h.cwd]
    exact h.follow hthere hresolve

/-- **A later tree has what an earlier one has,** but files may have other contents. -/
structure Retains (t t' : FileTree) : Prop where
  /-- The working directory is the same. -/
  cwd : t'.cwd = t.cwd
  /-- What stands at a place. -/
  node : ∀ place node, t.node? place = some node →
    t'.node? place = some node ∨
      (node.isFile = true ∧ ∃ node', t'.node? place = some node' ∧ node'.isFile = true)

theorem Retains.spares (h : Retains t t') : Spares t t' where
  cwd := h.cwd
  node := by
    intro place node hnode
    refine (h.node place node hnode).imp_right ?_
    rintro ⟨hfile, node', hnode', hfile'⟩
    refine ⟨hfile, fun other hother => ?_⟩
    rwa [Option.some.inj (hother.symm.trans hnode')]

theorem Retains.directory (h : Retains t t') (hdir : t.node? place = some .directory) :
    t'.node? place = some .directory :=
  h.spares.directory hdir

/-- What is there stays there. -/
theorem Retains.isSome (h : Retains t t') (hthere : (t.node? place).isSome = true) :
    (t'.node? place).isSome = true := by
  obtain ⟨node, hnode⟩ := Option.isSome_iff_exists.1 hthere
  rcases h.node place node hnode with h | ⟨-, node', h, -⟩ <;> simp [h]

/-- **A way that is there stays there.** -/
theorem Retains.follow (h : Retains t t') {links : Nat} {here : Place} {steps : List String}
    (hfollow : t.follow links here steps = .ok place) :
    t'.follow links here steps = .ok place :=
  h.spares.follow (h.isSome (isSome_of_follow hfollow)) hfollow

theorem Retains.resolve_eq (h : Retains t t') (hresolve : t.resolve p = .ok place) :
    t'.resolve p = .ok place :=
  h.spares.resolve_eq (h.isSome (isSome_of_resolve hresolve)) hresolve

/-! ### Writing again -/

/-- A place to write to: nothing or a file is there, or a link that leads to it. -/
def IsWritable (t : FileTree) (links : Nat) (dir : Place) (name : String) (place : Place) :
    Prop :=
  (place = dir ++ [name] ∧ ∀ node, t.node? place = some node → node.isFile = true) ∨
    ∃ n target, links = n + 1 ∧ t.node? (dir ++ [name]) = some (.link target) ∧
      t.writePlace n (startOf dir target) (stepsOf target) = .ok place

/-- **A write goes to a name** in a directory that is there. -/
theorem writePlace_ok {links : Nat} {here : Place} {steps : List String}
    (h : t.writePlace links here steps = .ok place) :
    ∃ before name dir, lastName? steps = some (before, name, false) ∧
      t.follow maxLinks here before = .ok dir ∧ t.node? dir = some .directory ∧
      name.utf8ByteSize ≤ maxName ∧ t.IsWritable links dir name place := by
  rw [writePlace.eq_def] at h
  rcases hlast : lastName? steps with _ | ⟨before, name, slash⟩
  · simp only [hlast] at h
    cases hfollow : t.follow maxLinks here steps <;> simp [hfollow, Except.bind] at h
  · simp only [hlast] at h
    cases hfollow : t.follow maxLinks here before with
    | error fault => simp [hfollow] at h
    | ok dir =>
        simp only [hfollow, Bool.not_eq_true'] at h
        split at h
        · cases h
        · rename_i hdir
          split at h
          · cases h
          · rename_i hslash
            split at h
            · cases h
            · rename_i hlen
              have hslash : slash = false := by simpa using hslash
              refine ⟨before, name, dir, by rw [hslash], hfollow,
                by simpa [isDirectoryAt] using hdir, Nat.not_lt.1 hlen, ?_⟩
              rcases hnode : t.node? (dir ++ [name]) with _ | _ | _ | target
              · rw [hnode] at h
                obtain rfl := Except.ok.inj h
                exact Or.inl ⟨rfl, by simp [hnode]⟩
              · rw [hnode] at h
                cases h
              · rw [hnode] at h
                obtain rfl := Except.ok.inj h
                exact Or.inl ⟨rfl, by simp [hnode, Node.isFile]⟩
              · rw [hnode] at h
                cases links with
                | zero => cases h
                | succ n => exact Or.inr ⟨n, target, rfl, hnode, h⟩

/-- The way to a place to write to. -/
theorem writePlace_of_isWritable {links : Nat} {here dir : Place} {steps before : List String}
    {name : String} (hlast : lastName? steps = some (before, name, false))
    (hfollow : t.follow maxLinks here before = .ok dir) (hdir : t.node? dir = some .directory)
    (hlen : name.utf8ByteSize ≤ maxName) (h : t.IsWritable links dir name place) :
    t.writePlace links here steps = .ok place := by
  rw [writePlace.eq_def]
  simp only [hlast, hfollow, isDirectoryAt, hdir, beq_self_eq_true, Bool.not_true,
    Bool.false_eq_true, if_false, Nat.not_lt.2 hlen]
  rcases h with ⟨rfl, hfile⟩ | ⟨n, target, rfl, hlink, hrest⟩
  · rcases hnode : t.node? (dir ++ [name]) with _ | node
    · rfl
    · have hisFile := hfile node hnode
      cases node with
      | file c x => rfl
      | directory => simp [Node.isFile] at hisFile
      | link target => simp [Node.isFile] at hisFile
  · rw [hlink]
    exact hrest

/-- The place that a path to write to leads to. -/
theorem resolveWrite_of_isWritable {p : Path} {before : List String} (dir : Place) (name : String)
    (hrefusal : refusal? p = none) (hlast : lastName? (stepsOf p) = some (before, name, false))
    (hfollow : t.follow maxLinks (startOf t.cwd p) before = .ok dir)
    (hdir : t.node? dir = some .directory) (hlen : name.utf8ByteSize ≤ maxName)
    (h : t.IsWritable maxLinks dir name place) : t.resolveWrite p = .ok place := by
  rw [resolveWrite, hrefusal]
  exact writePlace_of_isWritable hlast hfollow hdir hlen h

/-- **A write to a new name** in a directory that is there. -/
theorem write_of_new {p : Path} {before : List String} (dir : Place) (name : String) (c : Content)
    (hrefusal : refusal? p = none) (hlast : lastName? (stepsOf p) = some (before, name, false))
    (hfollow : t.follow maxLinks (startOf t.cwd p) before = .ok dir)
    (hdir : t.node? dir = some .directory) (hlen : name.utf8ByteSize ≤ maxName)
    (hnone : t.node? (dir ++ [name]) = none) :
    t.write p c = .ok (t.setContent (dir ++ [name]) c) := by
  have hplace := resolveWrite_of_isWritable dir name hrefusal hlast hfollow hdir hlen
    (Or.inl ⟨rfl, by simp [hnone]⟩)
  rw [write, hplace]
  rfl

/-- A tree that was written to retains what was there. -/
theorem retains_setContent {c : Content} (hplace : place ≠ [])
    (hfile : ∀ node, t.node? place = some node → node.isFile = true) :
    Retains t (t.setContent place c) where
  cwd := rfl
  node := by
    intro other node hnode
    rw [setContent, node?_put t hplace]
    by_cases h : other = place
    · subst h
      exact Or.inr ⟨hfile node hnode, _, if_pos rfl, rfl⟩
    · exact Or.inl ((if_neg h).trans hnode)

/-- The way to a file that was written to is still there. -/
theorem writePlace_setContent {c : Content} {links : Nat} {here : Place} {steps : List String}
    (h : t.writePlace links here steps = .ok place) :
    place ≠ [] ∧ (∀ node, t.node? place = some node → node.isFile = true) ∧
      (t.setContent place c).writePlace links here steps = .ok place := by
  induction links using Nat.strongRecOn generalizing here steps with
  | ind links ih =>
      obtain ⟨before, name, dir, hlast, hfollow, hdir, hlen, hend⟩ := writePlace_ok h
      rcases hend with ⟨hplace, hfile⟩ | ⟨n, target, hlinks, hlink, hrest⟩
      · have hroot : place ≠ [] := by simp [hplace]
        have hretains := retains_setContent (c := c) hroot hfile
        refine ⟨hroot, hfile, writePlace_of_isWritable hlast (hretains.follow hfollow)
          (hretains.directory hdir) hlen (Or.inl ⟨hplace, ?_⟩)⟩
        intro node hnode
        rw [setContent, node?_put t hroot, if_pos rfl] at hnode
        obtain rfl := Option.some.inj hnode
        rfl
      · obtain ⟨hroot, hfile, hagain⟩ := ih n (by omega) hrest
        have hretains := retains_setContent (c := c) hroot hfile
        exact ⟨hroot, hfile, writePlace_of_isWritable hlast (hretains.follow hfollow)
          (hretains.directory hdir) hlen (Or.inr ⟨n, target, hlinks, hretains.spares.link hlink, hagain⟩)⟩

/-- **A write** puts the content at the place that the path leads to, and it still leads there
afterwards. -/
theorem write_ok {p : Path} {c : Content} (h : t.write p c = .ok t') :
    ∃ place, place ≠ [] ∧ t.resolveWrite p = .ok place ∧ t' = t.setContent place c ∧
      t'.resolveWrite p = .ok place := by
  rw [write] at h
  cases hplace : t.resolveWrite p with
  | error fault => simp [hplace, Except.map] at h
  | ok place =>
      obtain rfl : t.setContent place c = t' := by simpa [hplace, Except.map] using h
      rw [resolveWrite] at hplace
      cases hrefusal : refusal? p with
      | some fault => simp [hrefusal] at hplace
      | none =>
          rw [hrefusal] at hplace
          obtain ⟨hroot, -, hagain⟩ := writePlace_setContent (c := c) hplace
          refine ⟨place, hroot, rfl, rfl, ?_⟩
          rw [resolveWrite, hrefusal]
          exact hagain

/-- **A file that has been written can be written again.** -/
theorem write_again {p : Path} {c : Content} (c' : Content) (h : t.write p c = .ok t') :
    ∃ t'', t'.write p c' = .ok t'' := by
  obtain ⟨place, -, -, -, hagain⟩ := write_ok h
  exact ⟨t'.setContent place c', by simp [write, hagain, Except.map]⟩

/-! ### Files that stay -/

theorem Retains.refl (t : FileTree) : Retains t t :=
  ⟨rfl, fun _ _ h => Or.inl h⟩

theorem Retains.trans {t'' : FileTree} (h : Retains t t') (h' : Retains t' t'') :
    Retains t t'' where
  cwd := h'.cwd.trans h.cwd
  node := by
    intro place node hnode
    rcases h.node place node hnode with hnode' | ⟨hfile, node', hnode', hfile'⟩
    · exact h'.node place node hnode'
    · rcases h'.node place node' hnode' with hnode'' | ⟨-, hlast⟩
      · exact Or.inr ⟨hfile, node', hnode'', hfile'⟩
      · exact Or.inr ⟨hfile, hlast⟩

theorem isDirectory_iff {p : Path} :
    t.isDirectory p = true ↔ ∃ place, t.find p = .ok (place, .directory) := by
  rw [isDirectory]
  constructor
  · intro h
    split at h
    · rename_i place hfind
      exact ⟨place, hfind⟩
    · cases h
  · rintro ⟨place, hfind⟩
    rw [hfind]

/-- **A directory that is there** stays there. -/
theorem Retains.find_directory (h : Retains t t') {p : Path}
    (hfind : t.find p = .ok (place, .directory)) : t'.find p = .ok (place, .directory) := by
  rw [find, resolve] at hfind ⊢
  cases hrefusal : refusal? p with
  | some fault => simp [hrefusal] at hfind
  | none =>
      simp only [hrefusal, h.cwd] at hfind ⊢
      cases hplace : t.follow maxLinks (startOf t.cwd p) (stepsOf p) with
      | error fault => simp [hplace] at hfind
      | ok other =>
          simp only [hplace, h.follow hplace] at hfind ⊢
          cases hnode : t.node? other with
          | none => simp [hnode] at hfind
          | some node =>
              simp only [hnode, Except.ok.injEq, Prod.mk.injEq] at hfind
              obtain ⟨rfl, rfl⟩ := hfind
              rw [h.directory hnode]

/-- A write puts the content at the place that the path leads to. -/
theorem exists_setContent {p : Path} {c : Content} (h : t.write p c = .ok t') :
    ∃ place, t.writePlace maxLinks (startOf t.cwd p) (stepsOf p) = .ok place ∧
      t' = t.setContent place c := by
  rw [write, resolveWrite] at h
  cases hrefusal : refusal? p with
  | some fault => simp [hrefusal, Except.map] at h
  | none =>
      simp only [hrefusal] at h
      cases hplace : t.writePlace maxLinks (startOf t.cwd p) (stepsOf p) with
      | error fault => simp [hplace, Except.map] at h
      | ok place => exact ⟨place, rfl, by simpa [hplace, Except.map, eq_comm] using h⟩

/-- **Writing a file** leaves all others as they are. -/
theorem retains_write {p : Path} {c : Content} (h : t.write p c = .ok t') : Retains t t' := by
  obtain ⟨place, hplace, rfl⟩ := exists_setContent h
  obtain ⟨hroot, hfile, -⟩ := writePlace_setContent (c := c) hplace
  exact retains_setContent hroot hfile

/-- A tree with an entry at a place where nothing was retains what was there. -/
theorem retains_put {e : Entry} (hplace : place ≠ []) (hnone : t.node? place = none) :
    Retains t (t.put place e) where
  cwd := rfl
  node := by
    intro other node hnode
    have hne : other ≠ place := by
      rintro rfl
      rw [hnone] at hnode
      cases hnode
    rw [node?_put t hplace, if_neg hne]
    exact Or.inl hnode

/-- **A directory that could be made:** its parent is there, and nothing was at its place. -/
theorem makeDirectory_ok {p : Path} (h : t.makeDirectory p = .ok t') :
    ∃ before name slash dir, refusal? p = none ∧
      lastName? (stepsOf p) = some (before, name, slash) ∧
      t.follow maxLinks (startOf t.cwd p) before = .ok dir ∧ t.node? dir = some .directory ∧
      name.utf8ByteSize ≤ maxName ∧ t.node? (dir ++ [name]) = none ∧
      t' = t.put (dir ++ [name]) ⟨.directory, t.clock⟩ := by
  rw [makeDirectory] at h
  cases hrefusal : refusal? p with
  | some fault => simp [hrefusal] at h
  | none =>
      rw [hrefusal] at h
      dsimp only at h
      split at h
      · cases hplace : t.resolve p <;> simp [hplace, Except.bind] at h
      next before name slash hlast =>
        cases hdir : t.follow maxLinks (startOf t.cwd p) before with
        | error fault => simp [hdir] at h
        | ok dir =>
            rw [hdir] at h
            dsimp only at h
            split at h
            · cases h
            next hdirectory =>
              split at h
              · cases h
              next hlen =>
                split at h
                · cases h
                next hthere =>
                  exact ⟨before, name, slash, dir, rfl, hlast, hdir,
                    by simpa [isDirectoryAt] using hdirectory,
                    Nat.not_lt.1 hlen, by simpa using hthere, (Except.ok.inj h).symm⟩

/-- **Making a directory** leaves all files as they are. -/
theorem retains_makeDirectory {p : Path} (h : t.makeDirectory p = .ok t') : Retains t t' := by
  obtain ⟨before, name, slash, dir, -, -, -, -, -, hnone, rfl⟩ := makeDirectory_ok h
  exact retains_put (by simp) hnone

theorem retains_ensureDirectory {p : Path} (h : t.ensureDirectory p = .ok t') : Retains t t' := by
  rw [ensureDirectory] at h
  split at h
  · rename_i hmade
    obtain rfl := Except.ok.inj h
    exact retains_makeDirectory hmade
  · split at h
    · obtain rfl := Except.ok.inj h
      exact Retains.refl t
    · cases h

/-- The tree behind the making of directories, whether all of them could be made or not. -/
def behind : Except (Fault × FileTree) FileTree → FileTree
  | .ok t => t
  | .error (_, t) => t

/-- **The tree behind** the making of a directory with its ancestors. -/
def afterDirectories (t : FileTree) (p : Path) : FileTree :=
  behind (t.makeBelow p p.ancestors)

theorem makeDirectories_eq_ok {p : Path} :
    t.makeDirectories p = .ok t' ↔ t.makeBelow p p.ancestors = .ok t' := by
  rw [makeDirectories]
  cases t.makeBelow p p.ancestors <;> simp [Except.mapError]

theorem afterDirectories_of_ok {p : Path} (h : t.makeDirectories p = .ok t') :
    t.afterDirectories p = t' := by
  rw [afterDirectories, makeDirectories_eq_ok.1 h]
  rfl

theorem retains_makeBelow {p : Path} {above : List Path} (h : t.makeBelow p above = .ok t') :
    Retains t t' := by
  induction above generalizing p t' with
  | nil =>
      rw [makeBelow] at h
      split at h
      · obtain rfl := Except.ok.inj h
        exact Retains.refl t
      · split at h
        · rename_i hmade
          obtain rfl := Except.ok.inj h
          exact retains_makeDirectory hmade
        · cases h
        · split at h
          · obtain rfl := Except.ok.inj h
            exact Retains.refl t
          · cases h
  | cons next above ih =>
      rw [makeBelow] at h
      split at h
      · obtain rfl := Except.ok.inj h
        exact Retains.refl t
      · split at h
        · rename_i hmade
          obtain rfl := Except.ok.inj h
          exact retains_makeDirectory hmade
        · split at h
          · cases h
          next t₁ hbelow =>
            cases hlast : t₁.ensureDirectory p with
            | error e => simp [hlast, Except.mapError] at h
            | ok t₂ =>
                rw [hlast] at h
                obtain rfl := Except.ok.inj h
                exact (ih hbelow).trans (retains_ensureDirectory hlast)
        · split at h
          · obtain rfl := Except.ok.inj h
            exact Retains.refl t
          · cases h

/-- **Making a directory with its ancestors** leaves all files as they are. -/
theorem retains_makeDirectories {p : Path} (h : t.makeDirectories p = .ok t') : Retains t t' :=
  retains_makeBelow (makeDirectories_eq_ok.1 h)

/-! ### Files below directories -/

/-- The files below a place are among the entries. -/
theorem mem_filesBelow {steps : List String} :
    steps ∈ t.filesBelow place ↔
      steps ≠ [] ∧ ∃ e, (place ++ steps, e) ∈ t.entries ∧ e.node.isFile = true := by
  rw [filesBelow, below]
  simp only [List.mem_filterMap, mem_sortedBy, List.mem_filter, Option.map_eq_some_iff,
    List.isPrefixOf?_eq_some_iff_append_eq]
  constructor
  · rintro ⟨⟨steps', node⟩, ⟨⟨⟨other, e⟩, hmem, steps'', hprefix, hpair⟩, hne⟩, hfile⟩
    obtain ⟨rfl, rfl⟩ := Prod.mk.inj hpair
    dsimp only at hprefix hfile
    subst hprefix
    split at hfile
    · rename_i hnode
      obtain rfl := Option.some.inj hfile
      exact ⟨by simpa using hne, e, hmem, by rw [hnode]; rfl⟩
    · cases hfile
  · rintro ⟨hne, e, hmem, hfile⟩
    refine ⟨(steps, e.node), ⟨⟨(place ++ steps, e), hmem, steps, rfl, rfl⟩, by simpa using hne⟩, ?_⟩
    obtain ⟨node, time⟩ := e
    cases node with
    | file c x => rfl
    | directory => cases hfile
    | link target => cases hfile

/-- **Files below a directory** are still there when a file is written. -/
theorem filesBelow_write {p : Path} {c : Content} {steps : List String}
    (h : t.write p c = .ok t') (hsteps : steps ∈ t.filesBelow place) :
    steps ∈ t'.filesBelow place := by
  obtain ⟨hne, e, hmem, hfile⟩ := mem_filesBelow.1 hsteps
  obtain ⟨written, -, rfl⟩ := exists_setContent h
  rw [mem_filesBelow]
  by_cases hplace : place ++ steps = written
  · exact ⟨hne, _, List.mem_cons.2 (Or.inl (Prod.ext hplace rfl)), rfl⟩
  · exact ⟨hne, e, List.mem_cons_of_mem _ (List.mem_filter.2 ⟨hmem, by simpa using hplace⟩), hfile⟩

section

variable {written : Place} {e e' : Entry} {others : List (Place × Entry)}

/-- What stands below a place when one entry is replaced. -/
theorem below_replaced (ht : t.entries = (written, e) :: others)
    (ht' : t'.entries = (written, e') :: others) (hothers : ∀ x ∈ others, x.1 ≠ written) :
    t'.below place = (t.below place).map (fun x =>
      (x.1, if place ++ x.1 = written then e'.node else x.2)) := by
  have hfound : t'.entries.filterMap (fun x => (place.isPrefixOf? x.1).map (fun steps =>
        (steps, x.2.node))) =
      (t.entries.filterMap (fun x => (place.isPrefixOf? x.1).map (fun steps =>
        (steps, x.2.node)))).map (fun x =>
          (x.1, if place ++ x.1 = written then e'.node else x.2)) := by
    rw [ht, ht', List.map_filterMap, List.filterMap_cons, List.filterMap_cons]
    have hrest : others.filterMap (fun x => (place.isPrefixOf? x.1).map (fun steps =>
          (steps, x.2.node))) =
        others.filterMap (fun x => ((place.isPrefixOf? x.1).map (fun steps =>
          (steps, x.2.node))).map (fun x =>
            (x.1, if place ++ x.1 = written then e'.node else x.2))) := by
      refine List.filterMap_congr fun x hx => ?_
      cases hsteps : place.isPrefixOf? x.1 with
      | none => rfl
      | some steps =>
          have hplace : place ++ steps = x.1 := List.isPrefixOf?_eq_some_iff_append_eq.1 hsteps
          simp [hplace, hothers x hx]
    rw [hrest]
    cases hsteps : place.isPrefixOf? written with
    | none => rfl
    | some steps =>
        have hplace : place ++ steps = written := List.isPrefixOf?_eq_some_iff_append_eq.1 hsteps
        simp [hplace]
  rw [below, below, hfound, List.filter_map]
  exact sortedBy_map (fun x => (x.1, if place ++ x.1 = written then e'.node else x.2))
    (fun _ _ => rfl) _

/-- **The same files are below a place** when a file is replaced by another one. -/
theorem filesBelow_replaced (ht : t.entries = (written, e) :: others)
    (ht' : t'.entries = (written, e') :: others) (hothers : ∀ x ∈ others, x.1 ≠ written)
    (hfile : e.node.isFile = true) (hfile' : e'.node.isFile = true) :
    t'.filesBelow place = t.filesBelow place := by
  rw [filesBelow, filesBelow, below_replaced ht ht' hothers, List.filterMap_map]
  refine List.filterMap_congr fun x hx => ?_
  by_cases hplace : place ++ x.1 = written
  · -- The entry that is replaced is a file before and afterwards.
    have hx : x.2.isFile = true := by
      rw [below, mem_sortedBy, List.mem_filter, List.mem_filterMap, ht] at hx
      obtain ⟨⟨y, hy, hsteps⟩, -⟩ := hx
      obtain ⟨steps, hprefix, rfl⟩ := Option.map_eq_some_iff.1 hsteps
      have hyplace := List.isPrefixOf?_eq_some_iff_append_eq.1 hprefix
      rcases List.mem_cons.1 hy with rfl | hy
      · exact hfile
      · exact absurd (hyplace.symm.trans hplace) (hothers y hy)
    obtain ⟨steps, node⟩ := x
    cases node with
    | file c executable =>
        cases hnode' : e'.node with
        | file c' executable' => simp [hplace]
        | directory => simp [hnode', Node.isFile] at hfile'
        | link target => simp [hnode', Node.isFile] at hfile'
    | directory => simp [Node.isFile] at hx
    | link target => simp [Node.isFile] at hx
  · simp [hplace]

end

/-- **The same files are below a directory** when a file is written again. -/
theorem filesBelow_write_again {t'' : FileTree} {p : Path} {c c' : Content}
    (h : t.write p c = .ok t') (h' : t'.write p c' = .ok t'') (place : Place) :
    t''.filesBelow place = t'.filesBelow place := by
  obtain ⟨written, -, -, rfl, hagain⟩ := write_ok h
  obtain ⟨written', -, hplace, rfl, -⟩ := write_ok h'
  obtain rfl : written = written' := Except.ok.inj (hagain.symm.trans hplace)
  have hothers : ∀ x ∈ t.entries.filter (fun x => x.1 != written), x.1 ≠ written := by
    intro x hx
    simpa using (List.mem_filter.1 hx).2
  have hentries : (t.setContent written c).entries =
      (written, ⟨.file c (t.isExecutableAt written), t.clock⟩) ::
        t.entries.filter (fun x => x.1 != written) := rfl
  have hentries' : ((t.setContent written c).setContent written c').entries =
      (written, ⟨.file c' ((t.setContent written c).isExecutableAt written), t.clock⟩) ::
        t.entries.filter (fun x => x.1 != written) := by
    simp [setContent, put, List.filter_filter]
  exact filesBelow_replaced hentries hentries' hothers rfl rfl

/-- **A tree holds a file below a directory,** both given by their paths. -/
def HoldsBelow (t : FileTree) (directory file : Path) : Prop :=
  ∃ place steps, t.find directory = .ok (place, .directory) ∧ steps ∈ t.filesBelow place ∧
    file = steps.foldl Path.child directory

theorem HoldsBelow.write {directory file p : Path} {c : Content} (h : t.HoldsBelow directory file)
    (hwrite : t.write p c = .ok t') : t'.HoldsBelow directory file := by
  obtain ⟨place, steps, hfind, hsteps, hfile⟩ := h
  exact ⟨place, steps, (retains_write hwrite).find_directory hfind,
    filesBelow_write hwrite hsteps, hfile⟩

end FileTree

end GoPlanner

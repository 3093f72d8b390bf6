import GoPlanner.Project.File
import GoPlanner.Proofs.FileTree.Found
import GoPlanner.Proofs.FileTree.Spelled
import Mathlib.Data.List.Chain

/-!
# The Nearest Directory Above

The search for a project file tries a path and its ancestors, as they are written. From one of them
to the next the place that is spelled loses a name, or gets one back where two dots were. So every
directory above the input is tried, from the nearest one on, and perhaps other directories between
them. If no link is on the way, the search is right unless it ends in one of those.

## Main definitions

* `FileTree.Holds`: a directory that holds a file.
* `FileTree.IsNearest`: the nearest directory above a place that holds a file.
* `FileTree.FindsNearest`: a search that finds it, if there is one.

## Main results

* `FileTree.mem_of_isChain_spell`: every directory above is tried.
* `FileTree.isFile_child_iff_holds`: what is tried is whether a directory holds the file.
* `FileTree.findsNearest_projectRoot`: when the search for a project file is right.
-/

namespace GoPlanner

/-! ### Ancestors of an absolute path -/

namespace Path

variable {p : Path} {steps before : List String}

/-- **An absolute path** is the path of the pieces behind its slash. -/
theorem eq_path_body (hp : p.isAbsolute = true) : p = Place.path p.body := by
  obtain ⟨cs, hcs⟩ := List.isPrefixOf_iff_prefix.1 hp
  have hbody : p.body = (cs.splitOn '/').map String.ofList := by
    have hanchor : p.anchor.length = "/".toList.length := by
      rw [anchor, if_pos hp]
      rfl
    rw [body, hanchor, ← hcs, List.drop_left, pieces, String.toList_ofList]
  have hslash : "/".toList = ['/'] := rfl
  refine eq_of_text (String.toList_inj.1 ?_)
  rw [Place.path, hbody, String.toList_append, String.toList_intercalate, List.map_map, ← hcs]
  simp [hslash, List.intercalate_splitOn, Function.comp_def]

theorem text_ne_of_isAbsolute (hp : p.isAbsolute = true) : p.text ≠ "" := by
  rw [eq_path_body hp]
  exact Place.text_path_ne _

/-- The pieces behind the slash have none. -/
theorem slash_notMem_body {piece : String} (h : piece ∈ p.body) : '/' ∉ piece.toList :=
  slash_notMem_of_mem_pieces h

theorem body_ne_nil (p : Path) : p.body ≠ [] :=
  pieces_ne_nil _

theorem ancestors_of_isAbsolute (hp : p.isAbsolute = true) :
    p.ancestors = (shortened p.body.reverse).map Place.path := by
  have hanchor : p.anchor = "/" := by rw [anchor, if_pos hp]
  rw [ancestors, hanchor, if_neg (by decide), List.append_nil]
  rfl

/-- **A shortened path** is a beginning of the path, and does not end in an idle step. -/
theorem exists_of_mem_shortened (h : steps ∈ shortened before) :
    ∃ rest, rest ≠ [] ∧ before.reverse = steps ++ rest ∧
      ∀ last ∈ steps.getLast?, isIdle last = false := by
  induction before with
  | nil => cases h
  | cons piece before ih =>
      have hlonger (h : steps ∈ shortened before) : ∃ rest, rest ≠ [] ∧
          (piece :: before).reverse = steps ++ rest ∧
            ∀ last ∈ steps.getLast?, isIdle last = false := by
        obtain ⟨rest, -, heq, hlast⟩ := ih h
        exact ⟨rest ++ [piece], by simp, by simp [heq], hlast⟩
      rw [shortened] at h
      split at h
      · exact hlonger h
      · rcases List.mem_cons.1 h with rfl | h
        · refine ⟨(before.takeWhile isIdle).reverse ++ [piece], by simp, ?_, fun last hlast => ?_⟩
          · rw [← List.append_assoc, ← List.reverse_append, List.takeWhile_append_dropWhile,
              List.reverse_cons]
          · rw [List.getLast?_reverse] at hlast
            have hhead := List.head?_dropWhile_not isIdle before
            rw [Option.mem_def.1 hlast] at hhead
            simpa using hhead
        · exact hlonger h

end Path

namespace FileTree

variable {t : FileTree} {p a : Path} {place dir : Place} {places : List Place} {name : String}

/-! ### Places that are tried -/

theorem spelled_reverse_dropWhile (before : List String) :
    spelled (before.dropWhile Path.isIdle).reverse = spelled before.reverse := by
  induction before with
  | nil => rfl
  | cons step before ih =>
      rw [List.dropWhile_cons]
      split
      next hidle => rw [ih, List.reverse_cons, spelled_append_singleton, spell_of_isIdle hidle]
      next => rfl

/-- **From one path to the next** one step less is spelled. -/
theorem isChain_spelled (before : List String) :
    ((before.reverse :: Path.shortened before).map spelled).IsChain
      (fun place above => ∃ step, place = spell above step) := by
  induction before with
  | nil => simp [Path.shortened]
  | cons step before ih =>
      rw [Path.shortened, List.map_cons, List.reverse_cons, spelled_append_singleton]
      split
      next hidle => rwa [spell_of_isIdle hidle, ← List.map_cons]
      next =>
        rw [List.map_cons, spelled_reverse_dropWhile, List.isChain_cons_cons, ← List.map_cons]
        exact ⟨⟨step, rfl⟩, ih⟩

/-- **The last path** spells the root. -/
theorem getLast?_spelled (before : List String) :
    ((before.reverse :: Path.shortened before).map spelled).getLast? = some [] := by
  induction before with
  | nil => rfl
  | cons step before ih =>
      rw [Path.shortened, List.map_cons, List.reverse_cons, spelled_append_singleton]
      split
      next hidle => rwa [spell_of_isIdle hidle, ← List.map_cons]
      next =>
        rw [List.map_cons, spelled_reverse_dropWhile, List.getLast?_cons_cons, ← List.map_cons]
        exact ih

/-- **No directory above is left out:** it is one of the places, or above all of them. -/
theorem mem_of_isChain_spell
    (hchain : (place :: places).IsChain (fun place above => ∃ step, place = spell above step))
    (hdir : dir <+: place) : dir ∈ place :: places ∨ ∀ other ∈ place :: places, dir <+: other := by
  induction places generalizing place with
  | nil => exact .inr (by simpa using hdir)
  | cons next places ih =>
      obtain ⟨⟨step, rfl⟩, hnexts⟩ := List.isChain_cons_cons.1 hchain
      have hgoes : dir = spell next step ∨ dir <+: next := by
        rw [spell] at hdir ⊢
        split at hdir
        · exact .inr hdir
        · split at hdir
          · exact .inr (hdir.trans (List.dropLast_prefix next))
          · simpa [*] using List.prefix_concat_iff.1 hdir
      rcases hgoes with rfl | hnext
      · exact .inl List.mem_cons_self
      · rcases ih hnexts hnext with hmem | hall
        · exact .inl (List.mem_cons_of_mem _ hmem)
        · exact .inr (List.forall_mem_cons.2 ⟨hdir, hall⟩)

/-- **A directory above** is tried before a place is reached, unless it is above that, too. -/
theorem mem_or_prefix_of_isChain_spell {tried : List Place} {other : Place}
    (hchain : (tried ++ [dir]).IsChain (fun place above => ∃ step, place = spell above step))
    (hhead : (tried ++ [dir]).head? = some place) (hother : other <+: place) :
    other ∈ tried ∨ other <+: dir := by
  obtain ⟨places, hplaces⟩ := List.head?_eq_some_iff.1 hhead
  have hdir : dir ∈ place :: places := hplaces ▸ List.mem_append_right tried List.mem_cons_self
  rcases mem_of_isChain_spell (hplaces ▸ hchain) hother with hmem | hall
  · rw [← hplaces, List.mem_append, List.mem_singleton] at hmem
    refine hmem.imp_right ?_
    rintro rfl
    exact List.prefix_rfl
  · exact .inr (hall dir hdir)

/-! ### Directories that hold a file -/

/-- **A directory holds a file** under a name, itself or by a link. -/
def Holds (t : FileTree) (name : String) (directory : Place) : Prop :=
  ∃ place node, t.follow maxLinks directory [name] = .ok place ∧ t.node? place = some node ∧
    node.isFile = true

/-- **The nearest directory** at a place or above it that holds a file. -/
structure IsNearest (t : FileTree) (name : String) (place directory : Place) : Prop where
  /-- It is the place, or above it. -/
  above : directory <+: place
  /-- It holds the file. -/
  holds : t.Holds name directory
  /-- No other one that holds the file is nearer. -/
  nearest : ∀ other, other <+: place → t.Holds name other → other <+: directory

/-- **A search finds the nearest directory** that holds a file, and nothing if there is none. -/
structure FindsNearest (t : FileTree) (name : String) (place : Place) (found : Option Path) :
    Prop where
  /-- What is found leads to the nearest directory. -/
  some : ∀ root, found = some root → ∃ directory, t.resolve root = .ok directory ∧
    t.IsNearest name place directory
  /-- Nothing is found exactly if no directory above holds the file. -/
  none : found = none ↔ ∀ directory, directory <+: place → ¬ t.Holds name directory

theorem holds_iff : t.Holds name dir ↔ ((t.follow maxLinks dir [name]).toOption.any
    (fun place => (t.node? place).any Node.isFile)) = true := by
  rw [Holds]
  cases t.follow maxLinks dir [name] with
  | error fault => simp [Except.toOption]
  | ok place => simp [Except.toOption, Option.any_eq_true]

instance (t : FileTree) (name : String) (dir : Place) : Decidable (t.Holds name dir) :=
  decidable_of_iff _ holds_iff.symm

/-- Only a directory can hold a file. -/
theorem Holds.node?_eq (h : t.Holds name dir) : t.node? dir = some .directory := by
  obtain ⟨place, node, hfollow, -⟩ := h
  obtain ⟨jump, hjump⟩ := t.exists_follow_eq_walk maxLinks
  rw [hjump] at hfollow
  exact (walk_cons_ok.1 hfollow).1

/-! ### Paths that are tried -/

/-- **An absolute path** is followed from the root. -/
theorem resolve_eq_ok_iff (hp : p.isAbsolute = true) : t.resolve p = .ok place ↔
    refusal? p = none ∧ t.follow maxLinks [] (stepsOf p) = .ok place := by
  rw [resolve, startOf, if_pos hp]
  cases refusal? p <;> simp

/-- A path can name something if less stands before its name than in one that can. -/
theorem refusal?_append_of_prefix {x y : String} (hx : x.toList <+: y.toList) (hname : name ≠ "")
    (h : refusal? ⟨y ++ name⟩ = none) : refusal? ⟨x ++ name⟩ = none := by
  obtain ⟨rest, hrest⟩ := hx
  have hy : y = x ++ String.ofList rest := by
    rw [← String.toList_inj, String.toList_append, String.toList_ofList, hrest]
  subst hy
  simp only [refusal?, String.toList_append, List.contains_eq_mem, List.mem_append,
    decide_eq_true_eq, String.utf8ByteSize_append, String.append_eq_empty_iff] at h ⊢
  split at h
  · cases h
  next hnull =>
    split at h
    · cases h
    next hlength => rw [if_neg (by tauto), if_neg (by omega), if_neg (by tauto)]

/-- The path of an entry is that of its directory, perhaps a slash, and the name. -/
theorem exists_text_child (hp : p.text ≠ "") (hname : '/' ∉ name.toList) :
    ∃ start : String, (p.child name).text = start ++ name ∧ p.text.toList <+: start.toList := by
  rw [Path.child, Path.join, Path.not_isAbsolute_of_slash hname]
  simp only [Bool.false_or, beq_iff_eq, hp, if_false]
  split
  · exact ⟨p.text, rfl, List.prefix_rfl⟩
  · exact ⟨p.text ++ "/", rfl, by simp⟩

/-- **A path that is tried** has steps of the path that is searched from, and then the name. -/
theorem exists_stepsOf_upward (hp : p.isAbsolute = true) (hname : IsPlain name)
    (hrefusal : refusal? (p.child name) = none) (ha : a ∈ p :: p.ancestors) :
    ∃ before, before <+: stepsOf p ∧ (stepsOf a = before ∨ stepsOf a = before ++ [""]) ∧
      stepsOf (a.child name) = before ++ [name] ∧ a.isAbsolute = true ∧
      refusal? (a.child name) = none := by
  have htext := Path.text_ne_of_isAbsolute hp
  rcases List.mem_cons.1 ha with rfl | ha
  · obtain ⟨before, -, hpieces, hchild, -⟩ := Path.exists_pieces_child htext hname.slash
    refine ⟨before, ?_, hpieces, hchild, hp, hrefusal⟩
    rcases hpieces with hpieces | hpieces
    · subst hpieces
      exact List.prefix_rfl
    · rw [stepsOf, hpieces]
      exact List.prefix_append before [""]
  rw [Path.ancestors_of_isAbsolute hp] at ha
  obtain ⟨steps, hsteps, rfl⟩ := List.mem_map.1 ha
  obtain ⟨rest, hrest, hbody, hlast⟩ := Path.exists_of_mem_shortened hsteps
  rw [List.reverse_reverse] at hbody
  have hslash : ∀ step ∈ steps, '/' ∉ step.toList := fun step hstep =>
    Path.slash_notMem_body (hbody ▸ List.mem_append_left rest hstep)
  have hchild : (Place.path steps).child name = Place.path (steps ++ [name]) := by
    refine Place.path_child (fun last hend => ⟨hslash last (List.mem_of_getLast? hend), ?_⟩)
      hname.slash
    rintro rfl
    exact absurd (hlast "" hend) (by decide)
  refine ⟨"" :: steps, ?_, ?_, ?_, Place.isAbsolute_path steps, ?_⟩
  · have hpieces : stepsOf p = "" :: p.body := by
      conv_lhs => rw [Path.eq_path_body hp]
      exact pieces_path p.body_ne_nil fun _ => Path.slash_notMem_body
    rw [hpieces, hbody]
    exact (List.prefix_cons_inj "").2 (List.prefix_append steps rest)
  · by_cases hnil : steps = []
    · subst hnil
      exact .inr (by decide)
    · exact .inl (pieces_path hnil hslash)
  · rw [hchild]
    refine pieces_path (by simp) (List.forall_mem_append.2 ⟨hslash, ?_⟩)
    simpa using hname.slash
  · -- What stands before the name is in front of the path that is searched from.
    obtain ⟨start, hstart⟩ := Place.exists_text_path steps
    obtain ⟨longer, hlonger, hprefix⟩ := exists_text_child htext hname.slash
    rw [show p.child name = ⟨longer ++ name⟩ from Path.eq_of_text hlonger] at hrefusal
    have hentry : (Place.path steps).child name = ⟨start ++ name⟩ := by
      refine Path.eq_of_text ?_
      rw [hchild, hstart [name] (by simp), String.intercalate_singleton]
    rw [hentry]
    refine refusal?_append_of_prefix (List.IsPrefix.trans ?_ hprefix) hname.ne_empty hrefusal
    have hwhole : p.text = start ++ "/".intercalate rest := by
      conv_lhs => rw [Path.eq_path_body hp, hbody]
      exact hstart rest hrest
    rw [hwhole, String.toList_append]
    exact List.prefix_append _ _

section Search

variable (hp : p.isAbsolute = true) (hname : IsPlain name)
  (hrefusal : refusal? (p.child name) = none) (hplace : t.resolve p = .ok place)
  (hdirect : t.IsDirect (stepsOf p)) (ha : a ∈ p :: p.ancestors)

include hp

/-- **The places that are tried,** from the one of the path itself up to the root. -/
theorem map_spelled_upward : (p :: p.ancestors).map (fun a => spelled (stepsOf a)) =
    (p.body.reverse.reverse :: Path.shortened p.body.reverse).map spelled := by
  have hspelled (steps : List String) (h : ∀ step ∈ steps, step ∈ p.body) :
      spelled (stepsOf (Place.path steps)) = spelled steps :=
    spelled_stepsOf_path fun step hstep => Path.slash_notMem_body (h step hstep)
  have hstart : spelled (stepsOf p) = spelled p.body := by
    conv_lhs => rw [Path.eq_path_body hp]
    exact hspelled p.body fun _ => id
  rw [Path.ancestors_of_isAbsolute hp, List.map_cons, List.map_cons, List.map_map,
    List.reverse_reverse, hstart]
  refine congrArg (spelled p.body :: ·) (List.map_congr_left fun steps hsteps => ?_)
  · refine hspelled steps fun step hstep => ?_
    obtain ⟨rest, -, hbody, -⟩ := Path.exists_of_mem_shortened hsteps
    rw [List.reverse_reverse] at hbody
    exact hbody ▸ List.mem_append_left rest hstep

include hplace hdirect

/-- The path that is searched from leads to the place that it spells. -/
theorem eq_spelled_of_resolve : place = spelled (stepsOf p) :=
  eq_spelled_of_follow hdirect ((resolve_eq_ok_iff hp).1 hplace).2

include hname hrefusal ha

/-- **What is tried** is whether the directory that is spelled holds the file; if it does, the path
leads there. -/
theorem isFile_child_iff_holds :
    (t.isFile (a.child name) = true ↔ t.Holds name (spelled (stepsOf a))) ∧
      (t.Holds name (spelled (stepsOf a)) → t.resolve a = .ok (spelled (stepsOf a))) := by
  obtain ⟨before, hbefore, hsteps, hchild, ha, hrefusal⟩ :=
    exists_stepsOf_upward hp hname hrefusal ha
  have hspelled : spelled (stepsOf a) = spelled before := by
    rcases hsteps with hsteps | hsteps
    · rw [hsteps]
    · rw [hsteps, spelled_append_singleton, spell_of_isIdle rfl]
  have hfollow := follow_append_of_isDirect hdirect ((resolve_eq_ok_iff hp).1 hplace).2 hbefore
  rw [hspelled]
  refine ⟨?_, fun h => (resolve_eq_ok_iff ha).2 ⟨?_, ?_⟩⟩
  · rw [isFile_iff_resolve, Holds, ← hfollow [name], ← hchild]
    simp only [resolve_eq_ok_iff (Path.isAbsolute_child_of_left ha name), hrefusal, true_and]
  · have htext : a.text ≠ "" := Path.text_ne_of_isAbsolute ha
    exact refusal?_of_prefix htext (Path.prefix_child htext hname.slash) hrefusal
  · -- A slash at the end of the path needs a directory.
    rcases hsteps with hsteps | hsteps
    · rw [hsteps, ← List.append_nil before, hfollow, follow_nil_ok]
      simp [h.node?_eq]
    · obtain ⟨jump, hjump⟩ := t.exists_follow_eq_walk maxLinks
      rw [hsteps, hfollow, hjump, walk_cons_ok, ← hjump, follow_nil_ok]
      exact ⟨h.node?_eq, .inl ⟨rfl, rfl, by rw [h.node?_eq]; rfl⟩⟩

omit ha

/-- **When a search upward is right:** if what it finds is above the place that it starts from. -/
theorem findsNearest_upward?_iff : t.FindsNearest name place (t.upward? name p) ↔
    ∀ root dir, t.upward? name p = some root → t.resolve root = .ok dir → dir <+: place := by
  have htried {a : Path} (ha : a ∈ p :: p.ancestors) :=
    isFile_child_iff_holds hp hname hrefusal hplace hdirect ha
  -- The places that are tried begin with the one of the path, and end with the root.
  have hhead : ((p :: p.ancestors).map (fun a => spelled (stepsOf a))).head? = some place := by
    rw [List.map_cons, List.head?_cons, eq_spelled_of_resolve hp hplace hdirect]
  have hchain := isChain_spelled p.body.reverse
  have hlast := getLast?_spelled p.body.reverse
  rw [← map_spelled_upward hp] at hchain hlast
  rw [upward?_eq (Path.text_ne_of_isAbsolute hp) hname.slash hname.ne_empty]
  have hfound {root : Path} (h : (p :: p.ancestors).find? (fun a => t.isFile (a.child name)) =
      some root) : t.Holds name (spelled (stepsOf root)) ∧
        t.resolve root = .ok (spelled (stepsOf root)) := by
    obtain ⟨hfile, hresolve⟩ := htried (List.mem_of_find?_eq_some h)
    have hholds := hfile.1 (by simpa using List.find?_some h)
    exact ⟨hholds, hresolve hholds⟩
  refine ⟨fun h root dir hroot hdir => ?_, fun h => ⟨fun root hroot => ?_, fun hnone => ?_, ?_⟩⟩
  · obtain ⟨nearest, hnearest, habove⟩ := h.some root hroot
    obtain rfl := Except.ok.inj (hdir.symm.trans hnearest)
    exact habove.above
  · obtain ⟨hholds, hresolve⟩ := hfound hroot
    refine ⟨_, hresolve, h root _ hroot hresolve, hholds, fun other hother hthere => ?_⟩
    obtain ⟨-, before, after, hsplit, hbefore⟩ := List.find?_eq_some_iff_append.1 hroot
    rw [hsplit, List.map_append, List.map_cons, List.append_cons] at hchain hhead
    rw [List.head?_append_of_ne_nil _ (by simp)] at hhead
    refine (mem_or_prefix_of_isChain_spell hchain.left_of_append hhead hother).resolve_left ?_
    rintro hmem
    obtain ⟨a, ha, rfl⟩ := List.mem_map.1 hmem
    have hfile := (htried (hsplit ▸ List.mem_append_left _ ha)).1.2 hthere
    simpa [hfile] using hbefore a ha
  · intro other hother hthere
    obtain ⟨tried, hall⟩ := List.getLast?_eq_some_iff.1 hlast
    have hmem : other ∈ (p :: p.ancestors).map (fun a => spelled (stepsOf a)) := by
      rw [hall] at hchain hhead ⊢
      rcases mem_or_prefix_of_isChain_spell hchain hhead hother with hmem | hroot
      · exact List.mem_append_left _ hmem
      · rw [List.prefix_nil.1 hroot]
        simp
    obtain ⟨a, ha, rfl⟩ := List.mem_map.1 hmem
    exact List.find?_eq_none.1 hnone a ha ((htried ha).1.2 hthere)
  · intro hnone
    cases hroot : (p :: p.ancestors).find? (fun a => t.isFile (a.child name)) with
    | none => rfl
    | some root =>
        obtain ⟨hholds, hresolve⟩ := hfound hroot
        exact absurd hholds (hnone _ (h root _ hroot hresolve))

/-- **Without two dots** a search upward only tries directories above. -/
theorem prefix_of_upward? (hup : ".." ∉ stepsOf p) {root : Path} {dir : Place}
    (hfound : t.upward? name p = some root) (hroot : t.resolve root = .ok dir) : dir <+: place := by
  rw [upward?_eq (Path.text_ne_of_isAbsolute hp) hname.slash hname.ne_empty] at hfound
  have ha := List.mem_of_find?_eq_some hfound
  obtain ⟨hfile, hresolve⟩ := isFile_child_iff_holds hp hname hrefusal hplace hdirect ha
  have hholds := hfile.1 (by simpa using List.find?_some hfound)
  obtain rfl := Except.ok.inj (hroot.symm.trans (hresolve hholds))
  obtain ⟨before, hbefore, hsteps, -⟩ := exists_stepsOf_upward hp hname hrefusal ha
  rw [eq_spelled_of_resolve hp hplace hdirect]
  rcases hsteps with hsteps | hsteps
  · rw [hsteps]
    exact spelled_prefix hup hbefore
  · rw [hsteps, spelled_append_singleton, spell_of_isIdle rfl]
    exact spelled_prefix hup hbefore

end Search

/-! ### The project file -/

/-- **When the search for a project file is right.** From an input that is there and has no link on
its path, the search finds the nearest directory at or above the input that holds a project file,
and nothing if there is none, unless what it finds is not above the input. Only paths with two dots
lead to such a directory. -/
theorem findsNearest_projectRoot {cwd input : Path} (hcwd : cwd.isAbsolute = true)
    (hplace : t.resolve (cwd.join input) = .ok place)
    (hlength : refusal? ((cwd.join input).child projectFileName) = none)
    (hdirect : t.IsDirect (stepsOf (cwd.join input))) :
    (t.FindsNearest projectFileName place (t.projectRoot? (cwd.join input)) ↔
      ∀ root dir, t.projectRoot? (cwd.join input) = some root → t.resolve root = .ok dir →
        dir <+: place) ∧
    (".." ∉ stepsOf (cwd.join input) →
      t.FindsNearest projectFileName place (t.projectRoot? (cwd.join input))) := by
  have hp : (cwd.join input).isAbsolute = true := Path.isAbsolute_join_of_left hcwd
  have hname : IsPlain projectFileName :=
    isPlain_of_mem (c := 'g') (by decide) (by decide) (by decide)
  have hiff := findsNearest_upward?_iff hp hname hlength hplace hdirect
  exact ⟨hiff, fun hup => hiff.2 fun root dir =>
    prefix_of_upward? hp hname hlength hplace hdirect hup⟩

/-- Two packages of which one has a project file. -/
def projectTree : FileTree where
  entries :=
    [(["a"], ⟨.directory, 0⟩), (["a", "gplan.toml"], ⟨.file (.text "") false, 0⟩),
      (["a", "main.go"], ⟨.file (.text "package main\n") false, 0⟩), (["b"], ⟨.directory, 0⟩),
      (["b", "main.go"], ⟨.file (.text "package main\n") false, 0⟩)]

/-- A tree whose entries are no links has direct steps only. -/
theorem isDirect_of_no_links (h : t.entries.all (fun e => !e.2.node.isLink) = true)
    (steps : List String) : t.IsDirect steps :=
  fun _ _ target => node?_ne_link h _ target

/-- The project file beside an input is found. -/
theorem findsNearest_projectRoot_projectTree :
    Path.isAbsolute ⟨"/a"⟩ = true ∧ projectTree.resolve (Path.join ⟨"/a"⟩ ⟨"main.go"⟩) =
        .ok ["a", "main.go"] ∧
      projectTree.FindsNearest projectFileName ["a", "main.go"]
        (projectTree.projectRoot? (Path.join ⟨"/a"⟩ ⟨"main.go"⟩)) := by
  have hplace : projectTree.resolve (Path.join ⟨"/a"⟩ ⟨"main.go"⟩) = .ok ["a", "main.go"] := by
    decide +kernel
  exact ⟨by decide, hplace, (findsNearest_projectRoot (by decide) hplace (by decide +kernel)
    (isDirect_of_no_links (by decide) _)).2 (by decide +kernel)⟩

/-- **A project file of another package** is found if the input is reached by two dots. -/
theorem exists_projectRoot_beside : ∃ (t : FileTree) (cwd input root : Path) (place : Place),
    cwd.isAbsolute = true ∧ t.workingDirectory = .ok cwd ∧
      t.resolve (cwd.join input) = .ok place ∧ t.node? place = some .directory ∧
      t.projectRoot? (cwd.join input) = some root ∧ t.resolve root = .ok ["a"] ∧
      ¬ ["a"] <+: place ∧ ∀ dir, dir <+: place → ¬ t.Holds projectFileName dir := by
  refine ⟨{ projectTree with cwd := ["a"] }, ⟨"/a"⟩, ⟨"../b"⟩, ⟨"/a"⟩, ["b"], by decide, by decide,
    by decide +kernel, by decide, by decide +kernel, by decide +kernel, by decide, fun dir hdir => ?_⟩
  have hdirs : dir = [] ∨ dir = ["b"] := by
    have habove : dir <+: [] ++ ["b"] := hdir
    rcases List.prefix_concat_iff.1 habove with rfl | hroot
    · exact .inr rfl
    · exact .inl (List.prefix_nil.1 hroot)
  rcases hdirs with rfl | rfl <;> decide +kernel

end FileTree

end GoPlanner

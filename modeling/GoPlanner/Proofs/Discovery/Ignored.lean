import GoPlanner.Proofs.Discovery.Tolerates

/-!
# What Ignored Files Decide

Ignored files take no part in a build, but a graph is discovered with them only if every directory
that is read tolerates its own. Apart from archives, whose use is a matter of times, it is then
the graph that is discovered without them.

## Main definitions

* `Discovery.IsTolerant`: graphs whose packages tolerate ignored files.

## Main results

* `Discovery.Finds.isTolerant`, `Discovery.Finds.ignored`: a graph is found with other ignored
  files exactly if its packages tolerate them.
* `discover_ignored`: the graphs of an input.
-/

namespace GoPlanner

open Telling

/-! ### Runs -/

/-- The directory of a package as it is read. -/
def Package.toRead (p : Package) (isRoot : Bool) : SourceDirectory :=
  ⟨p.directory, p.importPath, p.isInternal, isRoot, none⟩

namespace Discovery

open PackageGraph

variable {c : Discovery} {t t' : FileTree} {start a : Arrival} {precompiled isRoot : Bool}
  {found found' g g' : PackageGraph} {id : PackageId} {p q : Package} {imports : List String}
  {way : Way}

/-- **The packages of a graph tolerate ignored files** in a file tree when the directories do that
they are read from. -/
def IsTolerant (c : Discovery) (t : FileTree) (g : PackageGraph) : Prop :=
  ∀ id p, g.package? id = some p → id = root ∨ ¬ c.IsArchived p.importPath p.directory →
    (p.toRead (id == root)).Tolerates t p.name

/-- Archives do not matter for that. -/
theorem IsTolerant.congr (h : c.IsTolerant t g) (hbare : g'.bare = g.bare) : c.IsTolerant t g' := by
  intro id p hp hsource
  obtain ⟨archive?, hq⟩ := exists_package_of_bare hbare.symm hp
  have htolerates := h id _ hq hsource
  exact htolerates

/-- What is read from a directory. -/
theorem Reads.toRead_eq (hread : c.Reads a isRoot p imports) (hall : a.onlyFile = none) :
    p.toRead isRoot = a.toRead isRoot := by
  obtain ⟨contents, -, rfl, -⟩ := hread
  rw [Package.toRead, Arrival.toRead, hall]
  rfl

theorem Reads.tolerates (hread : c.Reads a isRoot p imports) (hall : a.onlyFile = none) :
    (p.toRead isRoot).Tolerates c.tree p.name := by
  rw [hread.toRead_eq hall]
  obtain ⟨contents, hread, rfl, -⟩ := hread
  exact SourceDirectory.tolerates_of_read hread hall

/-- **Graphs that are found** tolerate the ignored files that are there. -/
theorem Finds.isTolerant (h : c.Finds start precompiled g) (hall : start.onlyFile = none) :
    c.IsTolerant c.tree g := by
  intro id p hp hsource
  obtain ⟨p', imports, hcomplete⟩ := h.complete (lt_size_of_package? hp)
  obtain rfl := Option.some.inj (hp.symm.trans hcomplete.package)
  obtain ⟨q, hstems, hevolves⟩ := hcomplete.stems
  rw [hevolves.directory, hevolves.importPath] at hsource
  have htolerates : (q.toRead (id == root)).Tolerates c.tree q.name := by
    cases hstems with
    | root hid hread =>
        subst hid
        exact hread.tolerates hall
    | source hid harrives hread =>
        rw [beq_false_of_ne hid]
        exact hread.tolerates harrives.onlyFile
    | archived hid hlocated => exact absurd ⟨_, hlocated⟩ (hsource.resolve_left hid)
  rw [hevolves.fields]
  exact htolerates

/-- **A package is read as before** from a directory that tolerates its ignored files. -/
theorem Reads.ignored (hread : c.Reads a isRoot p imports) (h : c.tree.DiffersInIgnored t')
    (ht : c.tree.IsWellFormed) (ht' : t'.IsWellFormed) (hall : a.onlyFile = none)
    (htolerates : (p.toRead isRoot).Tolerates t' p.name) :
    ∃ q, (c.inTree t').Reads a isRoot q imports ∧ q.bare = p.bare := by
  rw [hread.toRead_eq hall] at htolerates
  obtain ⟨contents, hread, rfl, rfl⟩ := hread
  refine ⟨(c.inTree t').packageOf a isRoot contents, ⟨contents, ?_, rfl, rfl⟩, ?_⟩
  · exact h.read_of_tolerates ht ht' hread hall htolerates
  · simp only [Package.bare, packageOf]

/-- **A run is made as before** if the packages that are found tolerate ignored files. -/
theorem Follows.ignored (hrun : c.Follows way id imports g g') (h : c.tree.DiffersInIgnored t')
    (ht : c.tree.IsWellFormed) (ht' : t'.IsWellFormed) (htolerant : c.IsTolerant t' found)
    (hgrows : g'.Grows found) (hid : id < g.size) {g₁ : PackageGraph} (hbare : g₁.bare = g.bare) :
    ∃ g₁', (c.inTree t').Follows way id imports g₁ g₁' ∧ g₁'.bare = g'.bare := by
  have halike := h.looksUpAlike
  induction hrun generalizing g₁ with
  | nil way id g => exact ⟨g₁, .nil way id g₁, hbare⟩
  | passed hpasses _ ih =>
      obtain ⟨g₂, hrest, hbare₂⟩ := ih hgrows hid hbare
      refine ⟨g₂, .passed ?_ hrest, hbare₂⟩
      rw [precompiled_eq_of_bare hbare]
      exact halike.passes_iff.2 hpasses
  | @again way id k s rest g g' directory hgoal hway hknown _ ih =>
      have hstep : ((g₁.addAlias k s).addImport id k).bare =
          ((g.addAlias k s).addImport id k).bare := by
        rw [bare_addImport, bare_addAlias, hbare, ← bare_addAlias, ← bare_addImport]
      have hstepGrows : g.Grows ((g.addAlias k s).addImport id k) :=
        grows_addAlias.trans grows_addImport
      obtain ⟨g₂, hrest, hbare₂⟩ := ih hgrows (hstepGrows.lt_size hid) hstep
      refine ⟨g₂, .again ?_ (hway.imp_right halike.isArchived_iff.2) ?_ hrest, hbare₂⟩
      · rw [precompiled_eq_of_bare hbare, halike.goal?_eq, hgoal]
      · rw [byDirectory?_eq_of_bare hbare, hknown]
  | @archived way id s rest g g' directory archive hlocated hnew _ ih =>
      have hsize := size_eq_of_bare hbare
      have hstep : ((g₁.extended (archivedPackage directory archive s)).addImport id g₁.size).bare =
          ((g.extended (archivedPackage directory archive s)).addImport id g.size).bare := by
        rw [hsize, bare_addImport, bare_extended, hbare, ← bare_extended, ← bare_addImport]
      have hstepGrows : g.Grows
          ((g.extended (archivedPackage directory archive s)).addImport id g.size) :=
        grows_extended.trans grows_addImport
      obtain ⟨g₂, hrest, hbare₂⟩ := ih hgrows (hstepGrows.lt_size hid) hstep
      refine ⟨g₂, .archived ((halike.locate s).trans hlocated) ?_ hrest, hbare₂⟩
      rw [byDirectory?_eq_of_bare hbare, hnew]
  | @entered way id s rest g g₃ g' a p imports harrives hway hnew hread hinner hrest ihinner ih =>
      have hsize := size_eq_of_bare hbare
      have hgrows₃ : (g₃.addImport id g.size).Grows found := hrest.grows.trans hgrows
      have hgrowsInner : g₃.Grows found := grows_addImport.trans hgrows₃
      -- What was read is still there in the graph that is found.
      have hp : (g.extended p).package? g.size = some p := by rw [package?_extended, if_pos rfl]
      obtain ⟨q, hq, hevolves⟩ := (hinner.grows.trans hgrowsInner).package _ _ hp
      rw [isEmpty_eq_false hid] at hread
      have hsource : ¬ c.IsArchived q.importPath q.directory := by
        rw [hevolves.importPath, hread.fields.2.1, harrives.importPath]
        exact harrives.not_isArchived
      have htolerates := htolerant g.size q hq (Or.inr hsource)
      rw [beq_false_of_ne (size_ne_root hid), hevolves.fields] at htolerates
      obtain ⟨p', hread', hbareRead⟩ := hread.ignored h ht ht' harrives.onlyFile htolerates
      have hstep : (g₁.extended p').bare = (g.extended p).bare := by
        rw [bare_extended, bare_extended, hbare, hbareRead]
      obtain ⟨g₂, hrun₂, hbare₂⟩ := ihinner hgrowsInner (by simp) hstep
      have hstep₂ : (g₂.addImport id g.size).bare = (g₃.addImport id g.size).bare := by
        rw [bare_addImport, hbare₂, ← bare_addImport]
      have hstepGrows : g.Grows (g₃.addImport id g.size) :=
        (grows_extended.trans hinner.grows).trans grows_addImport
      obtain ⟨g₄, hrest₄, hbare₄⟩ := ih hgrows (hstepGrows.lt_size hid) hstep₂
      rw [← hsize] at hrun₂ hrest₄
      rw [← isEmpty_eq_false (hsize ▸ hid : id < g₁.size)] at hread'
      refine ⟨g₄, .entered ?_ hway ?_ hread' hrun₂ hrest₄, hbare₄⟩
      · rw [precompiled_eq_of_bare hbare]
        exact halike.arrives_iff.2 harrives
      · rw [byDirectory?_eq_of_bare hbare, hnew]

/-- **A graph is found as before** if its packages tolerate ignored files. -/
theorem Finds.ignored (hfinds : c.Finds start precompiled found) (h : c.tree.DiffersInIgnored t')
    (ht : c.tree.IsWellFormed) (ht' : t'.IsWellFormed) (hall : start.onlyFile = none)
    (htolerant : c.IsTolerant t' found) :
    ∃ found', (c.inTree t').Finds start precompiled found' ∧ found'.bare = found.bare := by
  obtain ⟨p, imports, hread, hrun⟩ := hfinds
  obtain ⟨q, hq, hevolves⟩ := hrun.grows.package root p rfl
  have htolerates := htolerant root q hq (Or.inl rfl)
  rw [hevolves.fields] at htolerates
  obtain ⟨p', hread', hbare⟩ := hread.ignored h ht ht' hall htolerates
  have hstart : bare ⟨[p'], precompiled⟩ = bare ⟨[p], precompiled⟩ := by simp [bare, hbare]
  obtain ⟨found', hrun', hbare'⟩ :=
    hrun.ignored h ht ht' htolerant (Grows.refl found) Nat.zero_lt_one hstart
  exact ⟨found', ⟨p', imports, hread', hrun'⟩, hbare'⟩

end Discovery

open Discovery

/-! ### The graphs of an input -/

variable {c : Discovery} {t t' : FileTree} {input buildDir : Path} {target : Target}
  {g : PackageGraph}

/-- The discovery of an input in a tree that differs in ignored files. -/
theorem FileTree.DiffersInIgnored.isFor (h : t.DiffersInIgnored t')
    (hinput : t.isDirectory input = true) (hfor : IsFor c t input buildDir target) :
    IsFor (c.inTree t') t' input buildDir target := by
  obtain ⟨place, hplace, hnode⟩ := FileTree.isDirectory_iff_resolve.1 hinput
  exact hfor.inTree hplace (h.resolve_directory hplace hnode) (h.rootOf_eq place) (h.loadModule_eq _)

/-- **What ignored files decide:** in a tree that differs in ignored files from one in which a
graph is discovered, the same graph is discovered, apart from archives, exactly if its packages
tolerate the ignored files that are there. -/
theorem discover_ignored (h : t.DiffersInIgnored t') (ht : t.IsWellFormed) (ht' : t'.IsWellFormed)
    (hinput : t.isDirectory input = true) (hfor : IsFor c t input buildDir target)
    (hg : (discover t input buildDir target).outcome.1 = .ok g) :
    (∃ g', (discover t' input buildDir target).outcome.1 = .ok g' ∧ g'.bare = g.bare) ↔
      c.IsTolerant t' g := by
  obtain ⟨place, hplace, hnode⟩ := FileTree.isDirectory_iff_resolve.1 hinput
  obtain ⟨c', found, hfor', hsifts⟩ := sifts_of_resolve hplace hg
  obtain rfl := hfor.unique hfor'
  obtain rfl := hfor.tree_eq
  have hplace' := h.resolve_directory hplace hnode
  have hall : (rootOf c.tree place).onlyFile = none := by
    rw [rootOf, FileTree.isDirectoryAt, hnode]
    rfl
  constructor
  · rintro ⟨g', hg', hbare⟩
    obtain ⟨c', found', hfor', hsifts'⟩ := sifts_of_resolve hplace' hg'
    obtain rfl := (h.isFor hinput hfor).unique hfor'
    rw [h.rootOf_eq] at hsifts'
    have htolerant := (hsifts'.finds.isTolerant hall).congr (hsifts'.bare_eq.symm.trans hbare).symm
    intro id p hp hsource
    exact htolerant id p hp (hsource.imp_right fun hnot => hnot ∘ h.looksUpAlike.isArchived_iff.1)
  · intro htolerant
    obtain ⟨found', hfinds', hbare'⟩ :=
      hsifts.finds.ignored h ht ht' hall (htolerant.congr hsifts.bare_eq.symm)
    obtain ⟨g', hg', hbare⟩ := exists_discover_of_finds (h.isFor hinput hfor) hplace hplace'
      h.isDirectoryAt_eq h.isDirectory_eq hg hfinds'
      (PackageGraph.grounded_of_bare hbare' hsifts.rootGrounded)
    exact ⟨g', hg', hbare.trans (hbare'.trans hsifts.bare_eq.symm)⟩

/-! ### An ignored file beside a file of the root -/

/-- A file tree in which the directory of the root holds a given Go file, or a link, and perhaps
an ignored file with a given text. -/
def hidingTree (node : Node) (hidden : Option String) : FileTree where
  entries :=
    (hidden.map fun src => (["app", "_x.go"], ⟨.file (.text src) false, 0⟩)).toList ++
      [(["app"], ⟨.directory, 0⟩), (["app", "main.go"], ⟨node, 0⟩)]

/-- The node of a file with a text. -/
def sourceNode (src : String) : Node :=
  .file (.text src) false

theorem isWellFormed_hidingTree (node : Node) (hidden : Option String) :
    (hidingTree node hidden).IsWellFormed where
  nodup := by cases hidden <;> simp [hidingTree]
  slash := by cases hidden <;> simp [hidingTree]

/-- Such trees differ at the place of the ignored file. -/
theorem node?_hidingTree (node : Node) (hidden hidden' : Option String) (place : Place) :
    (hidingTree node hidden').node? place = (hidingTree node hidden).node? place ∨
      IsIgnoredPlace (hidingTree node hidden) (hidingTree node hidden') place := by
  have hnode {hidden : Option String} (hplace : place ≠ ["app", "_x.go"]) :
      (hidingTree node hidden).node? place = (hidingTree node none).node? place := by
    cases hidden <;>
      simp [hidingTree, FileTree.node?, FileTree.entry?, List.lookup_cons, beq_false_of_ne hplace]
  have hfile {hidden : Option String} (other : Node)
      (hother : (hidingTree node hidden).node? ["app", "_x.go"] = some other) :
      other.isFile = true := by
    cases hidden with
    | none => cases hother
    | some src =>
        obtain rfl := Option.some.inj hother
        rfl
  by_cases hplace : place = ["app", "_x.go"]
  · subst hplace
    exact Or.inr ⟨["app"], "_x.go", rfl, by decide +kernel, hfile, hfile⟩
  · exact Or.inl ((hnode hplace).trans (hnode hplace).symm)

/-- The trees differ in nothing else if there is no link. -/
theorem differsInIgnored_hidingTree (src : String) (hidden hidden' : Option String) :
    (hidingTree (sourceNode src) hidden).DiffersInIgnored
      (hidingTree (sourceNode src) hidden') := by
  refine ⟨rfl, node?_hidingTree _ hidden hidden', ?_⟩
  intro directory name place hname hignored hresolve
  have happend {hidden : Option String}
      (hplace : (hidingTree (sourceNode src) hidden).resolve (directory.child name) = .ok place) :
      ∃ above, place = above ++ [name] :=
    FileTree.exists_eq_append_of_resolve hname
      (FileTree.node?_ne_link (by cases hidden <;> rfl)) hplace
  obtain ⟨above, rfl⟩ := hresolve.elim happend happend
  refine (node?_hidingTree _ hidden hidden' _).resolve_right ?_
  rintro ⟨above', other, hplace, hother, -⟩
  obtain rfl : name = other := (List.cons.inj (List.append_inj' hplace rfl).2).1
  cases hignored.symm.trans hother

/-- A target without search paths. -/
def hidingTarget : Target :=
  { goroot := ⟨"/g"⟩ }

/-- A file of the package of the root, which imports what is nowhere. -/
def strayImport : String :=
  "package app\nimport \"nowhere\"\n"

/-- What is discovered in such a tree. -/
def discoverHiding (node : Node) (hidden : Option String) : Except BuildError PackageGraph :=
  (discover (hidingTree node hidden) ⟨"/app"⟩ ⟨"/b"⟩ hidingTarget).outcome.1

theorem exists_discoverHiding {node : Node} {hidden : Option String}
    (h : (discoverHiding node hidden).toOption.any (fun _ => true) = true) :
    ∃ g, discoverHiding node hidden = .ok g := by
  obtain ⟨g, told, hg, -⟩ := exists_ok_of_any h
  exact ⟨g, congrArg Prod.fst hg⟩

/-- **An ignored file matters** if it adds a package where none has the name that is expected, if
its header is malformed, or if a link gives it a name under which it is not ignored. -/
theorem exists_ignored_decisive :
    (∀ node hidden hidden' place,
      (hidingTree node hidden').node? place = (hidingTree node hidden).node? place ∨
        IsIgnoredPlace (hidingTree node hidden) (hidingTree node hidden') place) ∧
    (∃ g, discoverHiding (sourceNode "package app\n") none = .ok g) ∧
    discoverHiding (sourceNode "package app\n") (some "package other\n") =
      .error (.ambiguousPackage "main" ⟨"/app"⟩ ["app", "other"]) ∧
    discoverHiding (sourceNode "package app\n") (some "import\n") =
      .error (.malformed ⟨"/app/_x.go"⟩ "line 1: expected 'package'") ∧
    (∃ g, discoverHiding (.link ⟨"_x.go"⟩) (some "package app\n") = .ok g) ∧
    discoverHiding (.link ⟨"_x.go"⟩) (some strayImport) =
      .error (.importNotFound "nowhere" ⟨"/app"⟩) :=
  ⟨node?_hidingTree, exists_discoverHiding (by decide +kernel), by decide +kernel,
    by decide +kernel, exists_discoverHiding (by decide +kernel), by decide +kernel⟩

/-- The discovery of such a tree. -/
def hidingDiscovery (t : FileTree) : Discovery where
  tree := t
  target := hidingTarget
  locator := ⟨hidingTarget, ⟨"/app"⟩, none⟩
  layout := ⟨⟨"/b"⟩⟩

/-- The graph of such a tree. -/
def hidingGraph : PackageGraph where
  packages :=
    [{ directory := ⟨"/app"⟩, importPath := "main", name := "app", goFiles := ["main.go"] }]

theorem isTolerant_hidingGraph :
    (hidingDiscovery (hidingTree (sourceNode "package app\n") none)).IsTolerant
      (hidingTree (sourceNode "package app\n") (some strayImport)) hidingGraph := by
  have hlist : (hidingTree (sourceNode "package app\n") (some strayImport)).list ⟨"/app"⟩ =
      .ok (["app"], ["_x.go", "main.go"]) := by decide +kernel
  have hgoNames (name : String) : name ∈ (⟨⟨"/app"⟩, "main", false, true, none⟩ :
      SourceDirectory).namesOf (hidingTree (sourceNode "package app\n") (some strayImport)) .go
        ["_x.go", "main.go"] ↔ name ∈ ["_x.go", "main.go"] :=
    iff_of_eq (congrArg (name ∈ ·) (by decide +kernel))
  have hgo (name : String) (hname : name ∈ ["_x.go", "main.go"]) :
      ∃ file, (⟨⟨"/app"⟩, "main", false, true, none⟩ : SourceDirectory).goFile?
        (hidingTree (sourceNode "package app\n") (some strayImport)) name = some file ∧
          file.package = "app" := by
    have htest : ∀ name ∈ ["_x.go", "main.go"],
        ((⟨⟨"/app"⟩, "main", false, true, none⟩ : SourceDirectory).goFile?
          (hidingTree (sourceNode "package app\n") (some strayImport)) name).any
            (fun file => file.package == "app") = true := by decide +kernel
    obtain ⟨file, hfile, hpackage⟩ := Option.any_eq_true _ _ |>.1 (htest name hname)
    exact ⟨file, hfile, by simpa using hpackage⟩
  intro id p hp _
  rcases id with _ | id
  · obtain rfl := Option.some.inj hp
    refine ⟨?_, ?_⟩
    · rintro name ⟨place, names, hnames, hname⟩ -
      obtain ⟨rfl, rfl⟩ := Prod.mk.inj (Except.ok.inj (hlist.symm.trans hnames))
      obtain ⟨file, hfile, hpackage⟩ := hgo name ((hgoNames name).1 hname)
      exact ⟨file, hfile, fun _ => Or.inl hpackage⟩
    · obtain ⟨file, hfile, hpackage⟩ := hgo "main.go" (by simp)
      refine ⟨"main.go", file, ⟨_, _, hlist, ?_⟩, hfile, hpackage⟩
      exact (hgoNames _).2 (by simp)
  · cases hp

/-- The import of an ignored file is not followed. -/
theorem discover_ignored_hidingTree :
    ∃ g g', discoverHiding (sourceNode "package app\n") none = .ok g ∧
      discoverHiding (sourceNode "package app\n") (some strayImport) = .ok g' ∧
      g'.bare = g.bare := by
  have hfor : IsFor (hidingDiscovery (hidingTree (sourceNode "package app\n") none))
      (hidingTree (sourceNode "package app\n") none) ⟨"/app"⟩ ⟨"/b"⟩ hidingTarget :=
    ⟨["app"], none, by decide +kernel, ends_of_outcome (by decide +kernel), rfl⟩
  have hg : discoverHiding (sourceNode "package app\n") none = .ok hidingGraph := by decide +kernel
  obtain ⟨g', hg', hbare⟩ := (discover_ignored
    (differsInIgnored_hidingTree "package app\n" none (some strayImport))
    (isWellFormed_hidingTree _ _) (isWellFormed_hidingTree _ _) (by decide +kernel) hfor hg).2
      isTolerant_hidingGraph
  exact ⟨_, g', hg, hg', hbare⟩

end GoPlanner

import GoPlanner.Proofs.Build.Planned
import GoPlanner.Proofs.Discovery.Reading

/-!
# When Discovery Succeeds

The relation of runs has no errors, so a run in it is one that discovery makes: to show that
discovery succeeds it is enough to find a run. Its graph is then that of the input, unless there
is a circle in it.

## Main results

* `Discovery.Follows.answers`: runs are made.
* `Discovery.Finds.answers`: the graph of a run is discovered.
* `outcome_discover_of_finds`: the graph of an input, given a run.
-/

namespace GoPlanner

open Telling

namespace Discovery

variable {c : Discovery} {way : Way} {id k : PackageId} {g g' : PackageGraph} {s : String}
  {a : Arrival} {p : Package} {imports : List String} {isRoot precompiled : Bool}

/-! ### Single steps -/

/-- An arrival is a directory. -/
theorem Arrives.isDirectoryAt (h : c.Arrives precompiled s a) :
    c.tree.isDirectoryAt a.place = true := by
  obtain ⟨directory, hlocated, hplace⟩ := h.located
  have hthere : c.tree.isDirectory directory = true := Locator.isThere_of_locate hlocated
  obtain ⟨place, hfind⟩ := FileTree.isDirectory_iff.1 hthere
  rw [FileTree.find] at hfind
  rw [hplace] at hfind
  dsimp only at hfind
  split at hfind
  · rename_i node hnode
    obtain ⟨rfl, rfl⟩ := Prod.mk.inj (Except.ok.inj hfind)
    simp [FileTree.isDirectoryAt, hnode]
  · cases hfind

/-- **A package that is read** is the one that there is to read. -/
theorem Reads.answers (h : c.Reads a isRoot p imports) :
    (c.read a isRoot).Answers (.ok (p, imports)) := by
  obtain ⟨contents, hread, rfl, rfl⟩ := h
  obtain ⟨files, asmNames, hshows, hselects, hcontents⟩ := SourceDirectory.exists_of_read hread
  have hanswer := SourceDirectory.answers_read hshows hselects
  rw [← hcontents] at hanswer
  rw [read]
  refine hanswer.bind (Answers.tell_bind ?_)
  dsimp only
  split
  · exact Answers.tell_bind (answers_pure (_, _))
  · exact answers_pure _

/-- A package that is read is determined by the directory. -/
theorem Reads.unique {q : Package} {imports' : List String} (h : c.Reads a isRoot p imports)
    (h' : c.Reads a isRoot q imports') : p = q ∧ imports = imports' := by
  have heq := h.answers.eq_of_ends h'.answers.ends
  exact ⟨(congrArg Prod.fst (Except.ok.inj heq)).symm, (congrArg Prod.snd (Except.ok.inj heq)).symm⟩

section

variable {enter : Arrival → PackageGraph → Telling (PackageId × PackageGraph)} {importer : Path}

theorem answers_follow_of_passes (h : c.Passes g.precompiled s) :
    (c.follow enter importer s g).Answers (.ok (none, g)) := by
  rw [follow]
  rcases h with hlocated | ⟨directory, hlocated, hprecompiled⟩
  · rw [hlocated]
    refine Answers.tell_bind ?_
    exact answers_pure _
  · rw [hlocated]
    refine Answers.tell_bind ?_
    dsimp only
    rw [if_pos (by simp [hprecompiled])]
    exact Answers.tell_bind (answers_pure (none, g))

theorem answers_follow_of_known {directory archive : Path}
    (hlocated : c.locator.locate c.tree s = some (.archived directory archive))
    (hknown : g.byDirectory? directory = some k) :
    (c.follow enter importer s g).Answers (.ok (some k, g.addAlias k s)) := by
  rw [follow]
  rw [hlocated]
  refine Answers.tell_bind ?_
  simp only [hknown]
  exact answers_pure _

theorem answers_follow_of_new {directory archive : Path}
    (hlocated : c.locator.locate c.tree s = some (.archived directory archive))
    (hnew : g.byDirectory? directory = none) :
    (c.follow enter importer s g).Answers
      (.ok (some g.size, g.extended (archivedPackage directory archive s))) := by
  have hregister := PackageGraph.register_of_new (p := archivedPackage directory archive s) hnew
  rw [follow]
  rw [hlocated]
  refine Answers.tell_bind ?_
  simp only [hnew, hregister]
  exact answers_pure _

theorem answers_follow_of_arrives (h : c.Arrives g.precompiled s a)
    (henter : (enter a g).Answers (.ok (k, g'))) :
    (c.follow enter importer s g).Answers (.ok (some k, g')) := by
  obtain ⟨place, importPath, isInternal, onlyFile⟩ := a
  obtain ⟨⟨directory, hlocated, hplace⟩, hentered, rfl, rfl⟩ := h
  rw [follow]
  rw [hlocated]
  refine Answers.tell_bind ?_
  dsimp only
  rw [if_neg (by simpa using hentered)]
  refine (answers_orRefused_ok hplace).bind (henter.bind ?_)
  exact answers_pure _

/-- Following an import and recording it. -/
theorem answers_followFrom_some (b : Arrival) {id : PackageId}
    (h : (c.follow enter b.directory s g).Answers (.ok (some k, g'))) :
    (c.followFrom enter b id g s).Answers (.ok (g'.addImport id k)) := by
  rw [followFrom]
  refine Answers.tell_bind (h.bind ?_)
  exact answers_pure _

theorem answers_followFrom_none (b : Arrival) {id : PackageId}
    (h : (c.follow enter b.directory s g).Answers (.ok (none, g'))) :
    (c.followFrom enter b id g s).Answers (.ok g') := by
  rw [followFrom]
  refine Answers.tell_bind (h.bind ?_)
  exact answers_pure _

end

theorem answers_enter_of_known (hway : way.passes a.directory = false)
    (hknown : g.byDirectory? a.directory = some k) :
    (c.enter way a g).Answers (.ok (k, g.addAlias k a.importPath)) := by
  rw [enter, dif_neg (by simp [hway]), hknown]
  exact answers_pure _

theorem answers_enter_of_new (hway : way.passes a.directory = false)
    (hnew : g.byDirectory? a.directory = none) (hdir : c.tree.isDirectoryAt a.place = true)
    (hread : c.Reads a g.isEmpty p imports)
    (hinner : (imports.foldlM (c.followFrom (fun b g =>
      c.enter (way ++ [(a.directory, a.importPath)]) b g) a g.size) (g.extended p)).Answers
        (.ok g')) :
    (c.enter way a g).Answers (.ok (g.size, g')) := by
  have hnew' : g.byDirectory? p.directory = none := by rwa [hread.fields.1]
  rw [enter, dif_neg (by simp [hway]), hnew]
  simp only [dif_pos hdir]
  refine hread.answers.bind ?_
  simp only [PackageGraph.register_of_new hnew']
  refine hinner.bind ?_
  exact answers_pure _

/-! ### Runs -/

/-- **Runs are made.** -/
theorem Follows.answers (h : c.Follows way id imports g g') (b : Arrival) :
    (imports.foldlM (c.followFrom (fun b g => c.enter way b g) b id) g).Answers (.ok g') := by
  induction h generalizing b with
  | nil => exact answers_pure _
  | passed hpasses _ ih =>
      rw [List.foldlM_cons]
      exact (answers_followFrom_none b (answers_follow_of_passes hpasses)).bind (ih b)
  | @again way id k s rest g g' directory hgoal hway hknown _ ih =>
      rw [List.foldlM_cons]
      refine Answers.bind (answers_followFrom_some b ?_) (ih b)
      rcases cases_of_goal? hgoal with ⟨archive, hlocated⟩ | ⟨a, harrives, rfl⟩
      · exact answers_follow_of_known hlocated hknown
      · have hoff : way.passes a.directory = false := by
          refine hway.resolve_right ?_
          rintro ⟨archive, harchived⟩
          obtain ⟨other, hlocated, -⟩ := harrives.located
          cases hlocated.symm.trans harchived
        have henter := answers_enter_of_known (c := c) hoff hknown
        rw [harrives.importPath] at henter
        exact answers_follow_of_arrives harrives henter
  | archived hlocated hnew _ ih =>
      rw [List.foldlM_cons]
      exact (answers_followFrom_some b (answers_follow_of_new hlocated hnew)).bind (ih b)
  | @entered way id s rest g g₁ g' a p imports harrives hway hnew hread _ _ ihinner ih =>
      rw [List.foldlM_cons]
      have hinner := ihinner a
      rw [← harrives.importPath] at hinner
      have henter := answers_enter_of_new hway hnew harrives.isDirectoryAt hread hinner
      exact (answers_followFrom_some b (answers_follow_of_arrives harrives henter)).bind (ih b)

/-! ### From an input -/

/-- The module of an input is looked up without a fault. -/
theorem exists_answers_moduleOf (t : FileTree) (root : Path) :
    ∃ module?, (moduleOf t root).Answers (.ok module?) := by
  rw [moduleOf]
  split
  · exact ⟨none, Answers.tell_bind (answers_pure none)⟩
  · exact ⟨none, answers_pure none⟩
  · exact ⟨some _, Answers.tell_bind (answers_pure _)⟩

/-- The module of an input is found or not, whatever was told. -/
theorem answers_moduleOf {t : FileTree} {root : Path} {module? : Option Module}
    (h : (moduleOf t root).Ends (.ok module?)) : (moduleOf t root).Answers (.ok module?) := by
  obtain ⟨found, hfound⟩ := exists_answers_moduleOf t root
  obtain rfl := Except.ok.inj (hfound.eq_of_ends h)
  exact hfound

variable {t : FileTree} {input buildDir : Path} {target : Target} {place : Place}

/-- An input has one discovery. -/
theorem IsFor.unique {c' : Discovery} (h : c.IsFor t input buildDir target)
    (h' : c'.IsFor t input buildDir target) : c = c' := by
  obtain ⟨place, module?, hplace, hmodule, rfl⟩ := h
  obtain ⟨place', module?', hplace', hmodule', rfl⟩ := h'
  obtain rfl := Except.ok.inj (hplace.symm.trans hplace')
  obtain rfl := Except.ok.inj ((answers_moduleOf hmodule').eq_of_ends hmodule)
  rfl

/-- **The graph of a run** is discovered. -/
theorem Finds.answers (hfor : c.IsFor t input buildDir target) (hplace : t.resolve input = .ok place)
    (hdir : t.isDirectoryAt (rootOf t place).place = true)
    (h : c.Finds (rootOf t place) (t.isDirectory target.archiveDir) g) :
    (discoverAll t input buildDir target).Answers (.ok g) := by
  obtain ⟨place', module?, hplace', hmodule, rfl⟩ := hfor
  obtain rfl := Except.ok.inj (hplace.symm.trans hplace')
  obtain ⟨p, imports, hread, hrun⟩ := h
  rw [discoverAll]
  refine (answers_orRefused_ok hplace).bind ((answers_moduleOf hmodule).bind (Answers.tell_bind ?_))
  have hpasses : Way.passes [] (rootOf t place).directory = false := rfl
  have hnew : PackageGraph.byDirectory? ⟨[], t.isDirectory target.archiveDir⟩
      (rootOf t place).directory = none := rfl
  have henter := answers_enter_of_new hpasses hnew hdir hread (hrun.answers (rootOf t place))
  refine henter.bind ?_
  exact answers_pure g

/-- The root of an input whose packages are discovered is a directory. -/
theorem isDirectoryAt_of_discoverAll (hplace : t.resolve input = .ok place)
    (h : (discoverAll t input buildDir target).Ends (.ok g)) :
    t.isDirectoryAt (rootOf t place).place = true := by
  rw [discoverAll] at h
  obtain ⟨place', hplace', h⟩ := h.bind
  obtain rfl := Except.ok.inj (hplace.symm.trans (ends_orRefused.1 hplace'))
  obtain ⟨module?, -, h⟩ := h.bind
  obtain ⟨⟨k, g₁⟩, henter, -⟩ := h.of_tell.bind
  by_contra hdir
  rw [enter, dif_neg (by simp [Way.passes])] at henter
  simp only [PackageGraph.byDirectory?, List.findIdx?_nil, dif_neg hdir] at henter
  simp at henter

end Discovery

open Discovery

/-- **The graph of an input,** given a run. -/
theorem outcome_discover_of_finds {c : Discovery} {t : FileTree} {input buildDir : Path}
    {target : Target} {place : Place} {found : PackageGraph}
    (hfor : c.IsFor t input buildDir target) (hplace : t.resolve input = .ok place)
    (hdir : t.isDirectoryAt (rootOf t place).place = true)
    (h : c.Finds (rootOf t place) (t.isDirectory target.archiveDir) found)
    (hgrounded : found.Grounded PackageGraph.root) :
    (discover t input buildDir target).outcome.1 =
      .ok (found.withoutArchives (found.lostAmong found.buildOrder)) :=
  outcome_discover (h.answers hfor hplace hdir).outcome hgrounded

end GoPlanner

import GoPlanner.Proofs.Build.Linked
import GoPlanner.Proofs.FileTree.Child

/-!
# Builds Over Time

A history of a build directory consists of edits and runs. An edit writes a file in some
directory, and a run plans a build and performs some of its compilations in order, all of them
or those before one that fails. Every edit and every compilation has a time of its own, later
than all before. What is in the build directory reflects the history: an archive that is there
has the time at which it was compiled last.

## Main definitions

* `Event`, `Past`: what happens, and what has happened so far.
* `Past.next?`, `Past.after?`: one event, and several ones.
* `Past.lastCompiled?`: when an archive was compiled last.
* `Reflects`, `InOrder`: what the files say about the past, and the times of events.

## Main results

* `Reflects.compileEach`: what compilations do to the files.
* `Past.Sound.next`, `Past.Sound.after`: the files reflect the past after every history.
-/

namespace GoPlanner

open Acting PackageGraph Discovery

/-! ### Histories -/

/-- **What stays the same** in a history. -/
structure Setup where
  /-- The build directory, as it is named. -/
  buildDir : Path
  /-- The build directory, by its absolute path. -/
  layout : Layout
  /-- The target. -/
  target : Target

/-- **What happens** in a history. -/
inductive Event where
  /-- A file of a directory is written or added. -/
  | edit (directory : Place) (name : String) (content : Content) (time : Int)
  /-- A build is planned, and its first compilations are performed. -/
  | run (input : Path) (start : Int) (outputs : List (Int × Content))

/-- **A run:** a build, and when its first compilations were performed. -/
structure Run where
  /-- The build. -/
  build : Build
  /-- The times. -/
  times : List Int

/-- The compilations that were performed. -/
def Run.compiled (r : Run) : List (Invocation × Int) :=
  r.build.plan.compilations.zip r.times

/-- **What has happened** so far. -/
structure Past where
  /-- The files. -/
  tree : FileTree
  /-- The time of the last event. -/
  now : Int
  /-- The directories that were edited. -/
  edits : List (Place × Int) := []
  /-- The runs. -/
  runs : List Run := []

/-- When an archive was compiled last, of some compilations. -/
def lastTime? (compiled : List (Invocation × Int)) (archive : Path) : Option Int :=
  (compiled.reverse.find? (fun c => c.1.operand? "-o" == some archive.text)).map (·.2)

/-- **Compilations** are performed one after the other: each writes its archive. -/
def compileEach (t : FileTree) (now : Int) :
    List (Invocation × Int × Content) → Option (FileTree × Int)
  | [] => some (t, now)
  | (i, time, content) :: rest =>
    match i.operand? "-o" with
    | none => none
    | some output =>
      if now < time then
        match FileTree.write { t with clock := time } ⟨output⟩ content with
        | .ok t' => compileEach t' time rest
        | .error _ => none
      else none

namespace Past

variable (u : Setup) (past : Past)

/-- The compilations that were performed, in order. -/
def compiled : List (Invocation × Int) :=
  past.runs.flatMap Run.compiled

/-- **When an archive was compiled last.** -/
def lastCompiled? (archive : Path) : Option Int :=
  lastTime? past.compiled archive

/-- **An edit.** A file is written, or added where nothing is. Archives in the build directory
are not edited. -/
def edit? (directory : Place) (name : String) (content : Content) (time : Int) : Option Past :=
  let place := directory ++ [name]
  if past.now < time ∧ past.tree.isDirectoryAt directory = true ∧
      (past.tree.node? place).all Node.isFile = true ∧
      ¬ (endsWith ".a" name = true ∧
        (past.tree.resolve u.layout.base).toOption = some directory) then
    some { past with
      tree := FileTree.setContent { past.tree with clock := time } place content
      now := time
      edits := past.edits ++ [(directory, time)] }
  else none

/-- **A run.** If no build can be planned, nothing is compiled. -/
def run? (input : Path) (start : Int) (outputs : List (Int × Content)) : Option Past :=
  if past.now < start then
    match (planBuild input u.buildDir u.target).outcome ⟨{ past.tree with clock := start }, []⟩ with
    | (.ok b, s) =>
      if outputs.length ≤ b.plan.compilations.length then
        (compileEach s.tree start (b.plan.compilations.zip outputs)).map fun (tree, now) =>
          { past with tree := tree, now := now, runs := past.runs ++ [⟨b, outputs.map (·.1)⟩] }
      else none
    | (.error _, s) =>
      if outputs = [] then some { past with tree := s.tree, now := start } else none
  else none

/-- **One event.** -/
def next? : Event → Option Past
  | .edit directory name content time => past.edit? u directory name content time
  | .run input start outputs => past.run? u input start outputs

/-- **A history:** one event after the other. -/
def after? (events : List Event) : Option Past :=
  events.foldlM (fun past event => past.next? u event) past

/-- **The beginning:** nothing has happened, and the build directory is empty. -/
structure IsBeginning : Prop where
  /-- The build directory is given by its absolute path as well. -/
  absolute : ((absolutePath u.buildDir).outcome ⟨past.tree, []⟩).1 = .ok u.layout.base
  /-- It is empty. -/
  empty : ∃ place, past.tree.list u.layout.base = .ok (place, [])
  /-- There was no edit. -/
  edits : past.edits = []
  /-- There was no run. -/
  runs : past.runs = []

end Past

/-! ### Last compilations -/

section

variable {compiled : List (Invocation × Int)} {archive : Path} {i : Invocation} {time : Int}

/-- What was compiled last counts. -/
theorem lastTime?_append :
    lastTime? (compiled ++ [(i, time)]) archive =
      if i.operand? "-o" = some archive.text then some time else lastTime? compiled archive := by
  rw [lastTime?, lastTime?, List.reverse_append, List.reverse_singleton, List.singleton_append,
    List.find?_cons]
  by_cases h : i.operand? "-o" = some archive.text
  · simp [h]
  · simp [h, beq_false_of_ne h]

theorem mem_of_lastTime? (h : lastTime? compiled archive = some time) :
    ∃ i, (i, time) ∈ compiled ∧ i.operand? "-o" = some archive.text := by
  obtain ⟨⟨i, time'⟩, hfind, rfl⟩ := Option.map_eq_some_iff.1 h
  have houtput := List.find?_some hfind
  exact ⟨i, List.mem_reverse.1 (List.mem_of_find?_eq_some hfind), by simpa using houtput⟩

/-- **No later compilation** writes the archive. -/
theorem le_lastTime? (hincreasing : compiled.Pairwise (fun c c' => c.2 < c'.2)) {last : Int}
    (hlast : lastTime? compiled archive = some last) (hmem : (i, time) ∈ compiled)
    (houtput : i.operand? "-o" = some archive.text) : time ≤ last := by
  obtain ⟨⟨j, time'⟩, hfind, rfl⟩ := Option.map_eq_some_iff.1 hlast
  obtain ⟨-, later, earlier, hsplit, hnone⟩ := List.find?_eq_some_iff_append.1 hfind
  rw [← List.mem_reverse, hsplit] at hmem
  have hreverse := List.pairwise_reverse.2 hincreasing
  rw [hsplit] at hreverse
  rcases List.mem_append.1 hmem with hmem | hmem
  · have := hnone _ hmem
    simp [houtput] at this
  · rcases List.mem_cons.1 hmem with heq | hmem
    · exact Int.le_of_eq (congrArg Prod.snd heq)
    · have hpair := (List.pairwise_append.1 hreverse).2.1
      exact Int.le_of_lt (List.rel_of_pairwise_cons hpair hmem)

end

/-! ### What the files say -/

/-- **The times of a history** are in order. -/
structure InOrder (now : Int) (edits : List (Place × Int)) (compiled : List (Invocation × Int)) :
    Prop where
  /-- No two compilations have one time. -/
  increasing : compiled.Pairwise (fun c c' => c.2 < c'.2)
  /-- Compilations are over. -/
  compiled_le : ∀ c ∈ compiled, c.2 ≤ now
  /-- Edits are over. -/
  edits_le : ∀ e ∈ edits, e.2 ≤ now
  /-- No edit has the time of a compilation. -/
  apart : ∀ e ∈ edits, ∀ c ∈ compiled, e.2 ≠ c.2

namespace InOrder

variable {now time : Int} {edits : List (Place × Int)} {compiled : List (Invocation × Int)}

theorem later (h : InOrder now edits compiled) (hlater : now < time) :
    InOrder time edits compiled where
  increasing := h.increasing
  compiled_le := fun c hc => Int.le_of_lt (Int.lt_of_le_of_lt (h.compiled_le c hc) hlater)
  edits_le := fun e he => Int.le_of_lt (Int.lt_of_le_of_lt (h.edits_le e he) hlater)
  apart := h.apart

theorem edit (h : InOrder now edits compiled) (hlater : now < time) (directory : Place) :
    InOrder time (edits ++ [(directory, time)]) compiled where
  increasing := h.increasing
  compiled_le := (h.later hlater).compiled_le
  edits_le := by
    intro e he
    rcases List.mem_append.1 he with he | he
    · exact (h.later hlater).edits_le e he
    · exact Int.le_of_eq (congrArg Prod.snd (List.mem_singleton.1 he))
  apart := by
    intro e he c hc
    rcases List.mem_append.1 he with he | he
    · exact h.apart e he c hc
    · rw [List.mem_singleton.1 he]
      exact (Int.ne_of_lt (Int.lt_of_le_of_lt (h.compiled_le c hc) hlater)).symm

theorem compile (h : InOrder now edits compiled) (hlater : now < time) (i : Invocation) :
    InOrder time edits (compiled ++ [(i, time)]) where
  increasing := by
    refine List.pairwise_append.2 ⟨h.increasing, List.pairwise_singleton _ _, fun c hc c' hc' => ?_⟩
    rw [List.mem_singleton.1 hc']
    exact Int.lt_of_le_of_lt (h.compiled_le c hc) hlater
  compiled_le := by
    intro c hc
    rcases List.mem_append.1 hc with hc | hc
    · exact (h.later hlater).compiled_le c hc
    · exact Int.le_of_eq (congrArg Prod.snd (List.mem_singleton.1 hc))
  edits_le := (h.later hlater).edits_le
  apart := by
    intro e he c hc
    rcases List.mem_append.1 hc with hc | hc
    · exact h.apart e he c hc
    · rw [List.mem_singleton.1 hc]
      exact Int.ne_of_lt (Int.lt_of_le_of_lt (h.edits_le e he) hlater)

end InOrder

/-- **The files reflect a history.** The build directory, at its place, holds files only, and the
time of an archive is that of its last compilation. Every edit has left a file that has not
become older. -/
structure Reflects (u : Setup) (place : Place) (edits : List (Place × Int))
    (compiled : List (Invocation × Int)) (t : FileTree) : Prop where
  /-- The build directory has the same absolute path. -/
  absolute : ((absolutePath u.buildDir).outcome ⟨t, []⟩).1 = .ok u.layout.base
  /-- It is there. -/
  base : t.find u.layout.base = .ok (place, .directory)
  /-- It holds files only. -/
  files : ∀ name node, t.node? (place ++ [name]) = some node → node.isFile = true
  /-- Archives have the times of their last compilations. -/
  archives : ∀ s e, t.entry? (place ++ [(Artifact.archive s).name]) = some e →
    lastTime? compiled (u.layout.archive s) = some e.modified
  /-- Edits have left files. -/
  edited : ∀ d ∈ edits, ∃ name e, t.entry? (d.1 ++ [name]) = some e ∧ d.2 ≤ e.modified

namespace Reflects

open FileTree

variable {u : Setup} {place written directory : Place} {edits : List (Place × Int)}
  {compiled compiled' : List (Invocation × Int)} {t t' : FileTree} {content : Content}
  {s name : String} {i : Invocation} {now now' : Int}

/-! ### Changes of files -/

/-- A change of the clock retains all files. -/
theorem retains_withClock (t : FileTree) (time : Int) : Retains t { t with clock := time } :=
  ⟨rfl, fun _ _ h => Or.inl h⟩

/-- The absolute form of a path depends on the working directory only. -/
theorem outcome_absolutePath_of_retains (h : Retains t t') {p q : Path} {told told' : List Output}
    (hq : ((absolutePath p).outcome ⟨t, told⟩).1 = .ok q) :
    ((absolutePath p).outcome ⟨t', told'⟩).1 = .ok q := by
  rw [absolutePath] at hq ⊢
  split
  · rename_i habsolute
    rw [if_pos habsolute] at hq
    exact hq
  · rename_i habsolute
    rw [if_neg habsolute, outcome_bind_of_ok (outcome_files _)] at hq
    rw [outcome_bind_of_ok (outcome_files _)]
    dsimp only at hq ⊢
    by_cases hdir : t.isDirectoryAt t.cwd = true
    · have hdir' : t'.isDirectoryAt t'.cwd = true := by
        rw [isDirectoryAt, beq_iff_eq] at hdir ⊢
        rw [h.cwd, h.directory hdir]
      rw [workingDirectory, if_pos hdir] at hq
      rw [workingDirectory, if_pos hdir', h.cwd]
      exact hq
    · rw [workingDirectory, if_neg hdir] at hq
      cases hq

theorem withClock (h : Reflects u place edits compiled t) (time : Int) :
    Reflects u place edits compiled { t with clock := time } where
  absolute := outcome_absolutePath_of_retains (retains_withClock t time) h.absolute
  base := (retains_withClock t time).find_directory h.base
  files := h.files
  archives := h.archives
  edited := h.edited

/-- **A file is written,** and what its place says about archives is known. -/
theorem setContent (h : Reflects u place edits compiled t) (hroot : written ≠ [])
    (hfile : ∀ node, t.node? written = some node → node.isFile = true)
    (hclock : ∀ d ∈ edits, d.2 ≤ t.clock)
    (harchives : ∀ s e,
      FileTree.entry? (t.setContent written content) (place ++ [(Artifact.archive s).name]) =
          some e →
        lastTime? compiled' (u.layout.archive s) = some e.modified) :
    Reflects u place edits compiled' (t.setContent written content) where
  absolute := outcome_absolutePath_of_retains (retains_setContent hroot hfile) h.absolute
  base := (retains_setContent hroot hfile).find_directory h.base
  files := by
    intro name node hnode
    rw [FileTree.setContent, node?_put t hroot] at hnode
    split at hnode
    · obtain rfl := Option.some.inj hnode
      rfl
    · exact h.files name node hnode
  archives := harchives
  edited := by
    intro d hd
    obtain ⟨name, e, he, hle⟩ := h.edited d hd
    by_cases hplace : d.1 ++ [name] = written
    · exact ⟨name, _, by rw [FileTree.setContent, entry?_put, if_pos hplace], hclock d hd⟩
    · exact ⟨name, e, by rw [FileTree.setContent, entry?_put, if_neg hplace, he], hle⟩

/-- A file that is no archive is written. -/
theorem setContent_other (h : Reflects u place edits compiled t) (hroot : written ≠ [])
    (hfile : ∀ node, t.node? written = some node → node.isFile = true)
    (hclock : ∀ d ∈ edits, d.2 ≤ t.clock)
    (hother : ∀ s, place ++ [(Artifact.archive s).name] ≠ written) :
    Reflects u place edits compiled (t.setContent written content) := by
  refine h.setContent hroot hfile hclock fun s e he => ?_
  rw [FileTree.setContent, entry?_put, if_neg (hother s)] at he
  exact h.archives s e he

/-- **An edit** leaves its file. -/
theorem edit (h : Reflects u place edits compiled t)
    (hfile : ∀ node, t.node? (directory ++ [name]) = some node → node.isFile = true)
    (hclock : ∀ d ∈ edits, d.2 ≤ t.clock)
    (hother : ∀ s, place ++ [(Artifact.archive s).name] ≠ directory ++ [name]) :
    Reflects u place (edits ++ [(directory, t.clock)]) compiled
      (t.setContent (directory ++ [name]) content) := by
  have hkept : Reflects u place edits compiled (t.setContent (directory ++ [name]) content) :=
    h.setContent_other (by simp) hfile hclock hother
  refine ⟨hkept.absolute, hkept.base, hkept.files, hkept.archives, fun d hd => ?_⟩
  rcases List.mem_append.1 hd with hd | hd
  · exact hkept.edited d hd
  · rw [List.mem_singleton.1 hd]
    exact ⟨name, _, by rw [FileTree.setContent, entry?_put, if_pos rfl], Int.le_refl t.clock⟩

/-- What is in the build directory is no link. -/
theorem isLink_eq_false (h : Reflects u place edits compiled t) (node : Node)
    (hnode : t.node? (place ++ [name]) = some node) : node.isLink = false := by
  have hfile := h.files name node hnode
  cases node with
  | file c x => rfl
  | directory => rfl
  | link target => simp [Node.isFile] at hfile

/-- The import configuration is written. -/
theorem write_importcfg (h : Reflects u place edits compiled t)
    (hclock : ∀ d ∈ edits, d.2 ≤ t.clock) (hwrite : t.write u.layout.importcfg content = .ok t') :
    Reflects u place edits compiled t' := by
  obtain ⟨written, hroot, hplace, rfl, -⟩ := write_ok hwrite
  have hname : IsPlain "importcfg" := isPlain_of_mem (c := 'i') (by decide) (by decide) (by decide)
  obtain rfl := resolveWrite_child h.base hname h.isLink_eq_false hplace
  refine h.setContent_other hroot (h.files _) hclock fun s heq => ?_
  have hlast := (Artifact.archive s).getLast?_name
  rw [List.singleton_inj.1 (List.append_cancel_left heq)] at hlast
  cases hlast

/-- **A build is planned.** -/
theorem planBuild (h : Reflects u place edits compiled t) (hclock : ∀ d ∈ edits, d.2 ≤ t.clock)
    (input : Path) (told : List Output) :
    Reflects u place edits compiled
      ((GoPlanner.planBuild input u.buildDir u.target).outcome ⟨t, told⟩).2.tree := by
  refine (planBuild_keeps (P := fun t' => Reflects u place edits compiled t' ∧ t'.clock = t.clock)
    (outcome_absolutePath_of_retains (Retains.refl t) h.absolute) ?_ ?_ ⟨h, rfl⟩).1
  · rintro t₁ ⟨h₁, htime⟩
    rw [afterDirectories_of_ok (makeDirectories_of_directory h₁.base)]
    exact ⟨h₁, htime⟩
  · rintro t₁ t₂ text ⟨h₁, htime⟩ hwrite
    refine ⟨h₁.write_importcfg (htime ▸ hclock) hwrite, ?_⟩
    obtain ⟨written, -, -, rfl, -⟩ := write_ok hwrite
    exact htime

/-! ### Compilations -/

/-- Archives of one name have one path. -/
theorem archive_text_iff {layout : Layout} {s s' : String} :
    (layout.archive s).text = (layout.archive s').text ↔
      (Artifact.archive s).name = (Artifact.archive s').name := by
  rw [← Artifact.path_archive, ← Artifact.path_archive]
  constructor
  · intro h
    rw [Artifact.name_eq_iff, ← Artifact.same_path_iff layout (Artifact.isPlain_name (by simp))
      (Artifact.isPlain_name (by simp)), Path.eq_of_text h, Path.same_self]
  · intro h
    rw [Artifact.path, Artifact.path, h]

/-- **A compilation** writes its archive. -/
theorem compile (h : Reflects u place edits compiled t) (hclock : ∀ d ∈ edits, d.2 ≤ t.clock)
    (houtput : i.operand? "-o" = some (u.layout.archive s).text)
    (hwrite : t.write (u.layout.archive s) content = .ok t') :
    Reflects u place edits (compiled ++ [(i, t.clock)]) t' := by
  obtain ⟨written, hroot, hplace, rfl, -⟩ := write_ok hwrite
  have hname : IsPlain (Artifact.archive s).name := Artifact.isPlain_name (by simp)
  obtain rfl := resolveWrite_child h.base hname h.isLink_eq_false hplace
  refine h.setContent hroot (h.files _) hclock fun s' e he => ?_
  rw [FileTree.setContent, entry?_put] at he
  have houtput' : i.operand? "-o" = some (u.layout.archive s').text ↔
      (Artifact.archive s).name = (Artifact.archive s').name := by
    rw [houtput, Option.some.injEq, archive_text_iff]
  rw [lastTime?_append]
  split at he
  · rename_i hsame
    obtain rfl := Option.some.inj he
    rw [if_pos (houtput'.2 (List.singleton_inj.1 (List.append_cancel_left hsame)).symm)]
  · rename_i hother
    rw [if_neg fun heq => hother (by rw [houtput'.1 heq])]
    exact h.archives s' e he

/-- **Compilations** are told by the archives that they write. -/
theorem compileEach {compilations : List (Invocation × Int × Content)}
    (h : Reflects u place edits compiled t) (horder : InOrder now edits compiled)
    (houtputs : ∀ c ∈ compilations, ∃ s, c.1.operand? "-o" = some (u.layout.archive s).text)
    (hrun : GoPlanner.compileEach t now compilations = some (t', now')) :
    Reflects u place edits (compiled ++ compilations.map (fun c => (c.1, c.2.1))) t' ∧
      InOrder now' edits (compiled ++ compilations.map (fun c => (c.1, c.2.1))) := by
  induction compilations generalizing t now compiled with
  | nil =>
      obtain ⟨rfl, rfl⟩ := Prod.mk.inj (Option.some.inj hrun)
      simpa using ⟨h, horder⟩
  | cons c rest ih =>
      obtain ⟨i, time, content⟩ := c
      obtain ⟨s, houtput⟩ := houtputs _ List.mem_cons_self
      rw [GoPlanner.compileEach, houtput] at hrun
      dsimp only at hrun
      split at hrun
      · rename_i hlater
        split at hrun
        · rename_i t₁ hwrite
          have hpath (p : Path) : Path.mk p.text = p := rfl
          rw [hpath] at hwrite
          have hclock : ∀ d ∈ edits, d.2 ≤ time := (horder.later hlater).edits_le
          have hstep := (h.withClock time).compile hclock houtput hwrite
          have hrest := ih hstep (horder.compile hlater i)
            (fun c hc => houtputs c (List.mem_cons_of_mem _ hc)) hrun
          rwa [List.append_assoc] at hrest
        · cases hrun
      · cases hrun

end Reflects

/-! ### Histories -/

/-- The compilations of a build that is planned. -/
theorem Planned.compilations_eq {t t' : FileTree} {input : Path} {target : Target} {b : Build}
    (h : Planned t input target b t') :
    b.plan.compilations =
      (b.graph.toBuild.filterMap b.graph.package?).map (Block.compile ⟨b.layout, target⟩) := by
  obtain ⟨archives, importPath, -, -, hplan, -⟩ := h.exists_final
  rw [hplan]
  exact Plan.compilations_final ⟨b.layout, target⟩ b.graph archives importPath

/-- **A run of a history** has a build that was planned, and performed some of its
compilations. -/
structure Run.IsPlanned (u : Setup) (r : Run) : Prop where
  /-- The build was planned. -/
  planned : ∃ t t' input, Planned t input u.target r.build t'
  /-- Its build directory is that of the history. -/
  layout : r.build.layout = u.layout
  /-- No more compilations were performed than there are. -/
  times : r.times.length ≤ r.build.plan.compilations.length

namespace Past

variable {u : Setup} {past past' : Past} {place : Place}

/-- **A sound past** is reflected by the files. -/
structure Sound (u : Setup) (place : Place) (past : Past) : Prop where
  /-- The files reflect it. -/
  reflects : Reflects u place past.edits past.compiled past.tree
  /-- The times are in order. -/
  inOrder : InOrder past.now past.edits past.compiled
  /-- The builds were planned. -/
  planned : ∀ r ∈ past.runs, r.IsPlanned u

/-- **What an edit is.** -/
theorem edit?_eq_some {directory : Place} {name : String} {content : Content} {time : Int}
    (h : past.edit? u directory name content time = some past') :
    past.now < time ∧
      (∀ node, past.tree.node? (directory ++ [name]) = some node → node.isFile = true) ∧
      ¬ (endsWith ".a" name = true ∧
        (past.tree.resolve u.layout.base).toOption = some directory) ∧
      past' = { past with
        tree := FileTree.setContent { past.tree with clock := time } (directory ++ [name]) content
        now := time
        edits := past.edits ++ [(directory, time)] } := by
  rw [edit?] at h
  dsimp only at h
  split at h
  · rename_i hguard
    obtain ⟨hlater, -, hfile, harchive⟩ := hguard
    refine ⟨hlater, fun node hnode => ?_, harchive, (Option.some.inj h).symm⟩
    simpa [hnode] using hfile
  · cases h

/-- **What a run is.** -/
theorem run?_eq_some {input : Path} {start : Int} {outputs : List (Int × Content)}
    (h : past.run? u input start outputs = some past') :
    past.now < start ∧
      ((∃ e s, (planBuild input u.buildDir u.target).outcome
          ⟨{ past.tree with clock := start }, []⟩ = (.error e, s) ∧
        past' = { past with tree := s.tree, now := start }) ∨
      ∃ b s tree now, (planBuild input u.buildDir u.target).outcome
          ⟨{ past.tree with clock := start }, []⟩ = (.ok b, s) ∧
        outputs.length ≤ b.plan.compilations.length ∧
        compileEach s.tree start (b.plan.compilations.zip outputs) = some (tree, now) ∧
        past' = { past with
          tree := tree, now := now, runs := past.runs ++ [⟨b, outputs.map (·.1)⟩] }) := by
  rw [run?] at h
  split at h
  · rename_i hlater
    refine ⟨hlater, ?_⟩
    split at h
    · rename_i b s houtcome
      split at h
      · rename_i hlength
        obtain ⟨⟨tree, now⟩, hcompile, rfl⟩ := Option.map_eq_some_iff.1 h
        exact Or.inr ⟨b, s, tree, now, houtcome, hlength, hcompile, rfl⟩
      · cases h
    · rename_i e s houtcome
      split at h
      · exact Or.inl ⟨e, s, houtcome, (Option.some.inj h).symm⟩
      · cases h
  · cases h

theorem endsWith_archive (s : String) : endsWith ".a" (Artifact.archive s).name = true := by
  rw [endsWith, List.isSuffixOf_iff_suffix, Artifact.name, String.toList_append]
  exact List.suffix_append _ _

/-- A past stays sound in an edit. -/
theorem Sound.edit (h : past.Sound u place) {directory : Place} {name : String} {content : Content}
    {time : Int} (hedit : past.edit? u directory name content time = some past') :
    past'.Sound u place := by
  obtain ⟨hlater, hfile, harchive, rfl⟩ := edit?_eq_some hedit
  have hclock := (h.inOrder.later hlater).edits_le
  have hother (s : String) : place ++ [(Artifact.archive s).name] ≠ directory ++ [name] := by
    intro heq
    obtain ⟨rfl, hname⟩ := List.append_inj' heq (by simp)
    obtain rfl := List.singleton_inj.1 hname
    obtain ⟨hrefusal, hfollow, -⟩ := FileTree.find_ok h.reflects.base
    refine harchive ⟨endsWith_archive s, ?_⟩
    rw [FileTree.resolve, hrefusal]
    simp [hfollow, Except.toOption]
  exact ⟨(h.reflects.withClock time).edit hfile hclock hother, h.inOrder.edit hlater directory,
    h.planned⟩

/-- A past stays sound in a run. -/
theorem Sound.run (h : past.Sound u place) {input : Path} {start : Int}
    {outputs : List (Int × Content)} (hrun : past.run? u input start outputs = some past') :
    past'.Sound u place := by
  obtain ⟨hlater, hcases⟩ := run?_eq_some hrun
  have horder := h.inOrder.later hlater
  have hplan := (h.reflects.withClock start).planBuild horder.edits_le input []
  rcases hcases with ⟨e, s, houtcome, rfl⟩ | ⟨b, s, tree, now, houtcome, hlength, hcompile, rfl⟩
  · rw [houtcome] at hplan
    exact ⟨hplan, horder, h.planned⟩
  · rw [houtcome] at hplan
    have hplanned := planBuild_ok houtcome
    have hlayout : b.layout = u.layout := by
      have hbase := planBuild_base houtcome
      rw [(h.reflects.withClock start).absolute] at hbase
      exact congrArg Layout.mk (Except.ok.inj hbase).symm
    have houtputs : ∀ c ∈ b.plan.compilations.zip outputs,
        ∃ s, c.1.operand? "-o" = some (u.layout.archive s).text := by
      intro c hc
      have hmem := (List.of_mem_zip hc).1
      rw [hplanned.compilations_eq, hlayout] at hmem
      obtain ⟨p, -, hp⟩ := List.mem_map.1 hmem
      exact ⟨p.importPath, hp ▸ (Block.operands_compile _ p).2⟩
    have hdone := hplan.compileEach horder houtputs hcompile
    have hcompiled : (b.plan.compilations.zip outputs).map (fun c => (c.1, c.2.1)) =
        Run.compiled ⟨b, outputs.map (·.1)⟩ := by
      rw [Run.compiled, List.zip_map_right]
      rfl
    have hall : past.compiled ++ Run.compiled ⟨b, outputs.map (·.1)⟩ =
        (past.runs ++ [(⟨b, outputs.map (·.1)⟩ : Run)]).flatMap Run.compiled := by
      simp [compiled]
    rw [hcompiled, hall] at hdone
    refine ⟨hdone.1, hdone.2, fun r hr => ?_⟩
    rcases List.mem_append.1 hr with hr | hr
    · exact h.planned r hr
    · rw [List.mem_singleton.1 hr]
      exact ⟨⟨_, _, input, hplanned⟩, hlayout, by simpa using hlength⟩

/-- **One event** keeps a past sound. -/
theorem Sound.next (h : past.Sound u place) {event : Event}
    (hnext : past.next? u event = some past') : past'.Sound u place := by
  cases event with
  | edit directory name content time => exact h.edit hnext
  | run input start outputs => exact h.run hnext

/-- **A history** keeps a past sound. -/
theorem Sound.after (h : past.Sound u place) {events : List Event}
    (hafter : past.after? u events = some past') : past'.Sound u place := by
  induction events generalizing past with
  | nil =>
      obtain rfl := Option.some.inj hafter
      exact h
  | cons event events ih =>
      rw [after?, List.foldlM_cons] at hafter
      obtain ⟨middle, hnext, hrest⟩ := Option.bind_eq_some_iff.1 hafter
      exact ih (h.next hnext) hrest

/-- **The beginning** is sound. -/
theorem IsBeginning.sound (h : past.IsBeginning u) : ∃ place, past.Sound u place := by
  obtain ⟨place, hlist⟩ := h.empty
  have hbase := FileTree.find_of_list hlist
  have hnone (name : String) : past.tree.entry? (place ++ [name]) = none := by
    cases hentry : past.tree.entry? (place ++ [name]) with
    | none => rfl
    | some e =>
        have hmem : name ∈ past.tree.names place := by
          rw [FileTree.mem_names_iff]
          obtain ⟨before, after, hsplit, -⟩ := List.lookup_eq_some_iff.1 hentry
          exact ⟨(place ++ [name], e), by simp [hsplit], rfl⟩
        rw [← FileTree.names_of_list hlist] at hmem
        cases hmem
  have hcompiled : past.compiled = [] := by rw [compiled, h.runs]; rfl
  refine ⟨place, ⟨h.absolute, hbase, ?_, ?_, ?_⟩, ?_, ?_⟩
  · intro name node hnode
    rw [FileTree.node?, if_neg (by simp), hnone] at hnode
    cases hnode
  · intro s e he
    rw [hnone] at he
    cases he
  · simp [h.edits]
  · rw [h.edits, hcompiled]
    exact ⟨List.Pairwise.nil, by simp, by simp, by simp⟩
  · simp [h.runs]

end Past

end GoPlanner

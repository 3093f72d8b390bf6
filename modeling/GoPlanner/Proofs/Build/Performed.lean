import GoPlanner.Proofs.Build.Closure
import GoPlanner.Proofs.Build.Effects

/-!
# What a Run Leaves Behind

A run plans, shows the commands one after another, executes each of them if asked to, and
records the plan at last. The first command that fails ends it: its error is that of the run, and
the files are those that it has left.

## Main definitions

* `Launched.error?`: the error of a command that was executed.
* `launches`: commands that are executed one after another.
* `Runs`: the commands of a plan that are shown, and those that are executed.

## Main results

* `exists_runs_forM`: what becomes of the commands of a plan.
* `runBuild_effects`: the files and the output behind a run, wherever it ends.
-/

namespace GoPlanner

open Acting PackageGraph

/-! ### Commands that are executed -/

/-- **The line that shows a command.** -/
def Invocation.shown (i : Invocation) : Output :=
  .printed ("Command: " ++ i.display ++ "\n")

/-- The notice about a command that is executed. -/
def Invocation.executed (i : Invocation) (goTool : String) : Output :=
  .notice (.ofPart .exec (goTool ++ " tool " ++ i.display))

/-- **The error of a command** that could not be started, or that did not end well. -/
def Launched.error? (l : Launched) (goTool : String) (i : Invocation) : Option BuildError :=
  match l.ending with
  | .error fault => some (.refused ⟨goTool⟩ fault)
  | .ok (.status 0) => none
  | .ok (.status code) => some (.commandFailed i.display (some code))
  | .ok .killed => some (.commandFailed i.display none)

/-- **Commands that are executed** one after another, each in the files that the one before it
has left, with what became of them. -/
def launches (launch : Launcher) (base : Path) (goTool : String) :
    FileTree → List Invocation → List (Invocation × Launched)
  | _, [] => []
  | t, i :: is =>
    let l := launch t base goTool ("tool" :: i.argv)
    (i, l) :: launches launch base goTool l.tree is

/-- The error of the last command that was executed. -/
def failure? (goTool : String) (started : List (Invocation × Launched)) : Option BuildError :=
  started.getLast?.bind (fun x => x.2.error? goTool x.1)

/-- The files behind commands that were executed. -/
def filesBehind (t : FileTree) (started : List (Invocation × Launched)) : FileTree :=
  started.foldl (fun _ x => x.2.tree) t

/-- **What is printed** about commands: their lines, and behind the line of a command that is
executed what the command prints. -/
def transcript (options : Options) (shown : List Invocation)
    (started : List (Invocation × Launched)) : List Output :=
  if options.execute then
    started.flatMap (fun x => x.1.shown :: x.1.executed options.goTool :: x.2.output)
  else shown.map Invocation.shown

/-- **A run of commands:** those that are shown, and those that are executed, which are the same
if execution is asked for, and none otherwise. -/
structure Runs (launch : Launcher) (base : Path) (options : Options) (commands : List Invocation)
    (t : FileTree) (shown : List Invocation) (started : List (Invocation × Launched)) : Prop where
  /-- The commands are shown in order from the first one on. -/
  inOrder : shown <+: commands
  /-- What is executed. -/
  started_eq : started =
    if options.execute then launches launch base options.goTool t shown else []
  /-- No command is shown after one that has failed. -/
  earlier : ∀ x ∈ started.dropLast, x.2.error? options.goTool x.1 = none
  /-- All commands are shown, unless one has failed. -/
  complete : failure? options.goTool started = none → shown = commands

variable {launch : Launcher} {layout : Layout} {options : Options} {i : Invocation}
  {commands shown : List Invocation} {started : List (Invocation × Launched)} {t : FileTree}
  {base : Path} {goTool : String} {l : Launched}

theorem failure?_cons (h : l.error? goTool i = none) :
    failure? goTool ((i, l) :: started) = failure? goTool started := by
  cases started with
  | nil => simpa [failure?] using h
  | cons x started => simp [failure?]

/-- A command that does not fail stands before commands of which only the last one may fail. -/
theorem earlier_cons (h : l.error? goTool i = none)
    (hearlier : ∀ x ∈ started.dropLast, x.2.error? goTool x.1 = none) :
    ∀ x ∈ ((i, l) :: started).dropLast, x.2.error? goTool x.1 = none := by
  cases started with
  | nil => simp
  | cons y started =>
      rw [List.dropLast_cons_cons]
      exact List.forall_mem_cons.2 ⟨h, hearlier⟩

/-! ### One command after another -/

theorem outcome_modify (f : Session → Session) (s : Session) :
    (modify f : Acting Unit).outcome s = (.ok (), f s) :=
  rfl

theorem outcome_print (text : String) (s : Session) :
    (print text).outcome s = (.ok (), { s with output := s.output ++ [.printed text] }) :=
  rfl

/-- **Executing a command** leaves the files and the output that the program has left. -/
theorem outcome_execute (launch : Launcher) (layout : Layout) (goTool : String) (i : Invocation)
    (s : Session) :
    (execute launch layout goTool i).outcome s =
      (match (launch s.tree layout.base goTool ("tool" :: i.argv)).error? goTool i with
        | none => .ok ()
        | some e => .error e,
        ⟨(launch s.tree layout.base goTool ("tool" :: i.argv)).tree,
          s.output ++ (i.executed goTool ::
            (launch s.tree layout.base goTool ("tool" :: i.argv)).output)⟩) := by
  rw [execute]
  rw [outcome_bind_of_ok (outcome_tell _ _), outcome_bind_of_ok (outcome_files _)]
  dsimp only
  generalize launch s.tree layout.base goTool ("tool" :: i.argv) = l
  rw [outcome_bind_of_ok (outcome_modify _ _), Launched.error?,
    List.append_cons s.output (i.executed goTool)]
  rcases l.ending with fault | (_ | _) | _ <;> rfl

/-- **Performing a command** that is not executed only shows it. -/
theorem outcome_perform_of_not (hexecute : options.execute = false) (s : Session) :
    (perform launch layout options i).outcome s =
      (.ok (), { s with output := s.output ++ [i.shown] }) := by
  rw [perform]
  rw [outcome_bind_of_ok (outcome_print _ _), if_neg (by simp [hexecute])]
  rfl

theorem outcome_perform (hexecute : options.execute = true) (s : Session) :
    (perform launch layout options i).outcome s =
      (match (launch s.tree layout.base options.goTool ("tool" :: i.argv)).error?
          options.goTool i with
        | none => .ok ()
        | some e => .error e,
        ⟨(launch s.tree layout.base options.goTool ("tool" :: i.argv)).tree,
          s.output ++ (i.shown :: i.executed options.goTool ::
            (launch s.tree layout.base options.goTool ("tool" :: i.argv)).output)⟩) := by
  rw [perform]
  rw [outcome_bind_of_ok (outcome_print _ _), if_pos hexecute, outcome_execute, List.append_assoc]
  rfl

/-- **What becomes of the commands** of a plan: they are shown, and executed if asked to, up to
the first one that fails. -/
theorem exists_runs_forM (launch : Launcher) (layout : Layout) (options : Options)
    (commands : List Invocation) (s : Session) :
    ∃ shown started, Runs launch layout.base options commands s.tree shown started ∧
      (commands.forM (perform launch layout options)).outcome s =
        (match failure? options.goTool started with
          | none => .ok ()
          | some e => .error e,
          ⟨filesBehind s.tree started, s.output ++ transcript options shown started⟩) := by
  induction commands generalizing s with
  | nil =>
      refine ⟨[], [], ⟨List.nil_prefix, by simp [launches], by simp, fun _ => rfl⟩, ?_⟩
      simp [transcript, failure?, filesBehind]
  | cons i commands ih =>
      have hcons : (i :: commands).forM (perform launch layout options) =
          (perform launch layout options i >>= fun _ =>
            commands.forM (perform launch layout options)) := rfl
      rw [hcons]
      cases hexecute : options.execute with
      | false =>
          rw [outcome_bind_of_ok (outcome_perform_of_not hexecute s)]
          obtain ⟨shown, started, hruns, houtcome⟩ := ih { s with output := s.output ++ [i.shown] }
          have hstarted : started = [] := by simpa [hexecute] using hruns.started_eq
          subst hstarted
          refine ⟨i :: shown, [], ⟨?_, by simp [hexecute], by simp, fun h => ?_⟩, ?_⟩
          · exact (List.prefix_cons_inj i).2 hruns.inOrder
          · rw [hruns.complete h]
          · rw [houtcome]
            simp [transcript, hexecute]
      | true =>
          have hperform : (perform launch layout options i).outcome s = _ :=
            outcome_perform hexecute s
          generalize hl : launch s.tree layout.base options.goTool ("tool" :: i.argv) = l at hperform
          cases herror : l.error? options.goTool i with
          | some e =>
              rw [herror] at hperform
              rw [outcome_bind_of_error _ hperform]
              have hfailure : failure? options.goTool [(i, l)] = some e := by simpa [failure?]
              refine ⟨[i], [(i, l)], ⟨by simp, by simp [hexecute, launches, hl], by simp, ?_⟩, ?_⟩
              · simp [hfailure]
              · simp [hfailure, transcript, hexecute, filesBehind]
          | none =>
              rw [herror] at hperform
              rw [outcome_bind_of_ok hperform]
              obtain ⟨shown, started, hruns, houtcome⟩ := ih _
              rw [houtcome]
              refine ⟨i :: shown, (i, l) :: started, ⟨?_, ?_, ?_, ?_⟩, ?_⟩
              · exact (List.prefix_cons_inj i).2 hruns.inOrder
              · rw [hruns.started_eq]
                simp [hexecute, launches, hl]
              · exact earlier_cons herror hruns.earlier
              · rw [failure?_cons herror]
                exact fun h => congrArg (i :: ·) (hruns.complete h)
              · rw [failure?_cons herror]
                simp [transcript, hexecute, filesBehind]

/-! ### The whole run -/

/-- **The reports** that are printed before the commands. -/
def reports (b : Build) (options : Options) : List Output :=
  (if options.wants .packages then [.printed b.graph.table] else []) ++
    if options.wants .importcfg then
      [.notice (.step (b.plan.importcfg.path.text ++ " (" ++ toString b.plan.importcfg.size ++
        " packages)")), .printed b.plan.importcfg.render]
    else []

theorem outcome_printReports (b : Build) (options : Options) (s : Session) :
    (printReports b options).outcome s =
      (.ok (), { s with output := s.output ++ reports b options }) := by
  rw [printReports, reports]
  -- The import configuration is printed after the table, if there is one.
  have himportcfg (s : Session) : (if options.wants .importcfg = true then do
        tell (.step (b.plan.importcfg.path.text ++ " (" ++ toString b.plan.importcfg.size ++
          " packages)"))
        print b.plan.importcfg.render
      else pure () : Acting Unit).outcome s =
      (.ok (), { s with output := s.output ++
        if options.wants .importcfg then
          [.notice (.step (b.plan.importcfg.path.text ++ " (" ++
            toString b.plan.importcfg.size ++ " packages)")), .printed b.plan.importcfg.render]
        else [] }) := by
    split
    · rw [outcome_bind_of_ok (outcome_tell _ _), outcome_print, List.append_assoc]
      rfl
    · rw [List.append_nil]
      rfl
  split
  · rw [outcome_bind_of_ok (outcome_print _ _), himportcfg, List.append_assoc]
  · rw [himportcfg, List.nil_append]

/-- **How a run ends** that has been planned: the session before it is the one behind planning. -/
structure Finishes (launch : Launcher) (options : Options) (b : Build) (s : Session)
    (shown : List Invocation) (started : List (Invocation × Launched))
    (r : Except BuildError Build) (s' : Session) : Prop where
  /-- The commands are shown and executed. -/
  runs : Runs launch b.layout.base options b.plan.invocations s.tree shown started
  /-- The error of a command that failed is that of the run, and nothing is done after it. -/
  failed : ∀ e, failure? options.goTool started = some e →
    r = .error e ∧ s'.tree = filesBehind s.tree started ∧
      s'.output = s.output ++ reports b options ++ transcript options shown started
  /-- If no command failed, the plan is recorded. -/
  recorded : failure? options.goTool started = none → ∀ t,
    (filesBehind s.tree started).write b.layout.commands
        (.text (Json.indented (b.plan.invocations.map Invocation.argv))) = .ok t →
      r = .ok b ∧ s'.tree = t ∧
        s'.output = s.output ++ reports b options ++ transcript options shown started ++
          [.notice (.done (toString b.plan.invocations.length ++ " commands written to " ++
            b.layout.commands.text))]
  /-- If it cannot be recorded, the files stay as the commands have left them. -/
  unrecorded : failure? options.goTool started = none → ∀ fault,
    (filesBehind s.tree started).write b.layout.commands
        (.text (Json.indented (b.plan.invocations.map Invocation.argv))) = .error fault →
      r = .error (.refused b.layout.commands fault) ∧ s'.tree = filesBehind s.tree started ∧
        s'.output = s.output ++ reports b options ++ transcript options shown started

/-- **A run that has been planned** ends in this way. -/
theorem exists_finishes (launch : Launcher) (options : Options) {input buildDir : Path}
    {target : Target} {b : Build} {s s₁ : Session}
    (h : (planBuild input buildDir target).outcome s = (.ok b, s₁)) :
    ∃ shown started r s', (runBuild launch input buildDir target options).outcome s = (r, s') ∧
      Finishes launch options b s₁ shown started r s' := by
  rw [runBuild]
  rw [outcome_bind_of_ok h, outcome_bind_of_ok (outcome_printReports b options s₁)]
  obtain ⟨shown, started, hruns, houtcome⟩ := exists_runs_forM launch b.layout options
    b.plan.invocations { s₁ with output := s₁.output ++ reports b options }
  cases hfailure : failure? options.goTool started with
  | some e =>
      rw [hfailure] at houtcome
      refine ⟨shown, started, _, _, outcome_bind_of_error _ houtcome, hruns, ?_, ?_, ?_⟩
      · rintro e' he
        obtain rfl := Option.some.inj (hfailure.symm.trans he)
        exact ⟨rfl, rfl, rfl⟩
      · simp [hfailure]
      · simp [hfailure]
  | none =>
      rw [hfailure] at houtcome
      have hrecord := outcome_changeFiles b.layout.commands (fun t => t.write b.layout.commands
        (.text (Json.indented (b.plan.invocations.map Invocation.argv))))
        ⟨filesBehind s₁.tree started,
          s₁.output ++ reports b options ++ transcript options shown started⟩
      cases hwrite : (filesBehind s₁.tree started).write b.layout.commands
          (.text (Json.indented (b.plan.invocations.map Invocation.argv))) with
      | error fault =>
          simp only [hwrite] at hrecord
          refine ⟨shown, started, .error (.refused b.layout.commands fault),
            ⟨filesBehind s₁.tree started,
              s₁.output ++ reports b options ++ transcript options shown started⟩,
            ?_, hruns, ?_, ?_, ?_⟩
          · rw [outcome_bind_of_ok houtcome]
            exact outcome_bind_of_error _ hrecord
          · simp [hfailure]
          · simp [hwrite]
          · intro _ fault' h
            obtain rfl := Except.error.inj (hwrite.symm.trans h)
            exact ⟨rfl, rfl, rfl⟩
      | ok t =>
          simp only [hwrite] at hrecord
          refine ⟨shown, started, .ok b,
            ⟨t, s₁.output ++ reports b options ++ transcript options shown started ++
              [.notice (.done (toString b.plan.invocations.length ++ " commands written to " ++
                b.layout.commands.text))]⟩,
            ?_, hruns, ?_, ?_, ?_⟩
          · rw [outcome_bind_of_ok houtcome]
            refine (outcome_bind_of_ok hrecord).trans ?_
            rw [outcome_bind_of_ok (outcome_tell _ _), outcome_pure]
          · simp [hfailure]
          · intro _ t' h
            obtain rfl := Except.ok.inj (hwrite.symm.trans h)
            exact ⟨rfl, rfl, rfl⟩
          · simp [hwrite]

theorem runBuild_of_planBuild_error {input buildDir : Path} {target : Target} {s s' : Session}
    {e : BuildError} (h : (planBuild input buildDir target).outcome s = (.error e, s')) :
    (runBuild launch input buildDir target options).outcome s = (.error e, s') ∧
      s'.stdout = s.stdout := by
  have hstdout := (quiet_planBuild input buildDir target).stdout_eq s
  rw [h] at hstdout
  rw [runBuild]
  exact ⟨outcome_bind_of_error _ h, hstdout⟩

/-- **What a run leaves behind,** wherever it ends. Without the absolute build directory or the
package graph nothing is printed and no file is changed. If the generation of the commands fails,
nothing is printed; the build directory may have been made with its missing ancestors, and the
file that the path of the import configuration leads to may have been emptied, but no other file
is changed. In all other cases the commands are shown, and executed if asked to, up to the first
one that fails, whose error is that of the run; if none fails, the plan is recorded. -/
theorem runBuild_effects (launch : Launcher) (input buildDir : Path) (target : Target)
    (options : Options) (s : Session) :
    (∀ e, ((absolutePath buildDir).outcome s).1 = .error e →
      (runBuild launch input buildDir target options).outcome s = (.error e, s)) ∧
    ∀ base, ((absolutePath buildDir).outcome s).1 = .ok base →
      (∀ e, (discover s.tree input base target).outcome.1 = .error e →
        ∃ s', (runBuild launch input buildDir target options).outcome s = (.error e, s') ∧
          s'.stdout = s.stdout ∧ s'.tree = s.tree) ∧
      ∀ g, (discover s.tree input base target).outcome.1 = .ok g →
        (∀ e, ((generate g base target).outcome s).1 = .error e →
          ∃ s', (runBuild launch input buildDir target options).outcome s = (.error e, s') ∧
            s'.stdout = s.stdout ∧ FileTree.Prepares base s.tree s'.tree ∧
            ∀ p place, s.tree.resolve p = .ok place → s'.tree.resolve p = .ok place ∧
              (s'.tree.resolveWrite (Layout.importcfg ⟨base⟩) ≠ .ok place →
                s'.tree.entry? place = s.tree.entry? place)) ∧
        ∀ plan, ((generate g base target).outcome s).1 = .ok plan →
          ∃ b s₁ shown started r s',
            (planBuild input buildDir target).outcome s = (.ok b, s₁) ∧ b.graph = g ∧
            b.layout = ⟨base⟩ ∧ s₁.stdout = s.stdout ∧
            (runBuild launch input buildDir target options).outcome s = (r, s') ∧
            Finishes launch options b s₁ shown started r s' := by
  refine ⟨fun e h => ?_, fun base hbase => ⟨fun e h => ?_, fun g hgraph => ⟨fun e h => ?_, ?_⟩⟩⟩
  · exact (runBuild_of_planBuild_error (planBuild_of_absolutePath_error h)).1
  · obtain ⟨s', hplan, htree⟩ := planBuild_of_discover_error hbase h
    obtain ⟨hrun, hstdout⟩ := runBuild_of_planBuild_error hplan
    exact ⟨s', hrun, hstdout, htree⟩
  · obtain ⟨s', hplan, htree⟩ := planBuild_of_generate_error hbase hgraph h
    obtain ⟨hrun, hstdout⟩ := runBuild_of_planBuild_error hplan
    have hprepares : FileTree.Prepares base s.tree s'.tree := by
      have hgenerate : (generate g base target).outcome s =
          (.error e, ((generate g base target).outcome s).2) := by rw [← h]
      rw [htree]
      exact prepares_generate hgenerate
    exact ⟨s', hrun, hstdout, hprepares, fun p place => hprepares.of_resolve⟩
  · intro plan h
    obtain ⟨b, s₁, hplan, hgraph', hlayout⟩ := planBuild_of_generate_ok hbase hgraph h
    obtain ⟨shown, started, r, s', hrun, hfinishes⟩ := exists_finishes launch options hplan
    have hstdout := (quiet_planBuild input buildDir target).stdout_eq s
    rw [hplan] at hstdout
    exact ⟨b, s₁, shown, started, r, s', hplan, hgraph', hlayout, hstdout, hrun, hfinishes⟩

/-! ### A package that is excluded -/

/-- A tree in which the root package has files for another target only, with the import
configuration that an earlier run has left. -/
def excludedTree (importcfg : Node) : FileTree where
  entries :=
    [(["app"], ⟨.directory, 0⟩),
      (["app", "main_windows.go"], ⟨.file (.text "package main\n") false, 0⟩),
      (["b"], ⟨.directory, 0⟩), (["b", "commands.json"], ⟨.file (.text "[]") false, 0⟩),
      (["b", "importcfg"], ⟨importcfg, 0⟩)]

/-- The root package. -/
def excludedRoot : Package :=
  { directory := ⟨"/app"⟩, importPath := "main", name := "main" }

/-- A file, as a run leaves it. -/
def plainImportcfg : Node :=
  .file (.text "packagefile main=/b/main.a\n") false

/-- A link to the recorded plan. -/
def linkedImportcfg : Node :=
  .link ⟨"commands.json"⟩

/-- The graph of the tree: the root has no files. -/
def excludedGraph : PackageGraph where
  packages := [excludedRoot]

theorem inBuildOrder_excludedGraph : excludedGraph.inBuildOrder = [excludedRoot] := by
  cbv

theorem isCached_excludedGraph (id : PackageId) : excludedGraph.isCached id = false := by
  match id with
  | 0 => rfl
  | _ + 1 => rfl

/-- **The generation fails** once the import configuration has been emptied. -/
theorem generate_excludedTree {importcfg : Node} {t : FileTree}
    (hwrite : (excludedTree importcfg).write (Layout.importcfg ⟨⟨"/b"⟩⟩) (.text "") = .ok t) :
    ((generate excludedGraph ⟨"/b"⟩ {}).outcome ⟨excludedTree importcfg, []⟩).1 =
      .error (.noCompilableSources "main") := by
  have hdirs : (excludedTree importcfg).makeDirectories ⟨"/b"⟩ = .ok (excludedTree importcfg) := rfl
  rw [outcome_generate (s := ⟨excludedTree importcfg, []⟩) excludedGraph {} hdirs hwrite,
    inBuildOrder_excludedGraph]
  rfl

theorem discover_plain : (discover (excludedTree plainImportcfg) ⟨"/app"⟩ ⟨"/b"⟩ {}).outcome.1 =
    .ok excludedGraph :=
  outcome_discover_of_kept (ok_of_toOption (by decide +kernel))
    (grounded_of_later (by decide) root) (by simp [isCached_excludedGraph])

theorem discover_linked : (discover (excludedTree linkedImportcfg) ⟨"/app"⟩ ⟨"/b"⟩ {}).outcome.1 =
    .ok excludedGraph :=
  outcome_discover_of_kept (ok_of_toOption (by decide +kernel))
    (grounded_of_later (by decide) root) (by simp [isCached_excludedGraph])

theorem write_plain : (excludedTree plainImportcfg).write (Layout.importcfg ⟨⟨"/b"⟩⟩) (.text "") =
    .ok ((excludedTree plainImportcfg).setContent ["b", "importcfg"] (.text "")) := by
  have hplace : (excludedTree plainImportcfg).resolveWrite (Layout.importcfg ⟨⟨"/b"⟩⟩) =
      .ok ["b", "importcfg"] :=
    FileTree.resolveWrite_of_isWritable ["b"] "importcfg" rfl rfl rfl rfl (by decide)
      (Or.inl ⟨rfl, by rintro node ⟨⟩; rfl⟩)
  rw [FileTree.write, hplace]
  rfl

theorem write_linked : (excludedTree linkedImportcfg).write (Layout.importcfg ⟨⟨"/b"⟩⟩) (.text "") =
    .ok ((excludedTree linkedImportcfg).setContent ["b", "commands.json"] (.text "")) := by
  have hlast : FileTree.lastName? (FileTree.stepsOf ⟨"commands.json"⟩) =
      some ([], "commands.json", false) := rfl
  have htarget : (excludedTree linkedImportcfg).writePlace 39 ["b"]
      (FileTree.stepsOf ⟨"commands.json"⟩) = .ok ["b", "commands.json"] :=
    FileTree.writePlace_of_isWritable hlast rfl rfl (by decide)
      (Or.inl ⟨rfl, by rintro node ⟨⟩; rfl⟩)
  have hplace : (excludedTree linkedImportcfg).resolveWrite (Layout.importcfg ⟨⟨"/b"⟩⟩) =
      .ok ["b", "commands.json"] :=
    FileTree.resolveWrite_of_isWritable ["b"] "importcfg" rfl rfl rfl rfl (by decide)
      (Or.inr ⟨39, ⟨"commands.json"⟩, rfl, rfl, htarget⟩)
  rw [FileTree.write, hplace]
  rfl

/-- A program that ends well and does nothing. -/
def idleLauncher : Launcher :=
  fun t _ _ _ => ⟨.ok (.status 0), t, []⟩

/-- The recorded plan stays as it is when the generation fails, and a run that is planned
finishes. -/
theorem runBuild_effects_excluded :
    (∃ s', (runBuild idleLauncher ⟨"/app"⟩ ⟨"/b"⟩ {} {}).outcome
          ⟨excludedTree plainImportcfg, []⟩ = (.error (.noCompilableSources "main"), s') ∧
        s'.stdout = "" ∧
        s'.tree.entry? ["b", "commands.json"] = some ⟨.file (.text "[]") false, 0⟩) ∧
      ∃ b s₁ shown started r s',
        (runBuild idleLauncher ⟨"/app"⟩ ⟨"/b"⟩ shadowTarget { execute := true }).outcome
          ⟨shadowTree, []⟩ = (r, s') ∧ s₁.stdout = "" ∧
        Finishes idleLauncher { execute := true } b s₁ shown started r s' := by
  have habsolute (t : FileTree) : ((absolutePath ⟨"/b"⟩).outcome ⟨t, []⟩).1 = .ok ⟨"/b"⟩ := rfl
  refine ⟨?_, ?_⟩
  · obtain ⟨s', hrun, hstdout, hprepares, hkept⟩ :=
      (((runBuild_effects idleLauncher ⟨"/app"⟩ ⟨"/b"⟩ {} {} ⟨excludedTree plainImportcfg, []⟩).2 _
        (habsolute _)).2 _ discover_plain).1 _ (generate_excludedTree write_plain)
    obtain ⟨-, hsame⟩ := hkept (Layout.commands ⟨⟨"/b"⟩⟩) ["b", "commands.json"] rfl
    refine ⟨s', hrun, hstdout, hsame fun hplace => ?_⟩
    -- The import configuration is a file, so its path leads to no other one.
    have hbase : s'.tree.find ⟨"/b"⟩ = .ok (["b"], .directory) :=
      hprepares.retains.find_directory rfl
    have hlink : ∀ node, s'.tree.node? (["b"] ++ ["importcfg"]) = some node →
        node.isLink = false := by
      have hthere : (excludedTree plainImportcfg).node? ["b", "importcfg"] = some plainImportcfg :=
        rfl
      exact fun node hnode => hprepares.retains.spares.isLink_eq_false hthere rfl hnode
    have hname : IsPlain "importcfg" := isPlain_of_mem (c := 'i') (by decide) (by decide) (by decide)
    have hother := FileTree.resolveWrite_child hbase hname hlink hplace
    exact absurd hother (by decide)
  · have hgenerate : ((generate shadowGraph ⟨"/b"⟩ shadowTarget).outcome ⟨shadowTree, []⟩).1 =
        .ok (Plan.final ⟨⟨⟨"/b"⟩⟩, shadowTarget⟩ shadowGraph []) := by
      have hsources : shadowGraph.inBuildOrder.find? Package.lacksSources = none := by
        rw [inBuildOrder_shadowGraph]
        rfl
      rw [outcome_generate (s := ⟨shadowTree, []⟩) shadowGraph shadowTarget
        makeDirectories_shadowTree write_shadowTree, hsources]
      simp only [standardArchives_of_not_precompiled (g := shadowGraph) rfl]
    have hgraph := outcome_discover_of_kept discoverAll_shadowTree
      (grounded_of_later (by decide) root) (by simp [isCached_shadowGraph])
    obtain ⟨b, s₁, shown, started, r, s', -, -, -, hstdout, hrun, hfinishes⟩ :=
      (((runBuild_effects idleLauncher ⟨"/app"⟩ ⟨"/b"⟩ shadowTarget { execute := true }
        ⟨shadowTree, []⟩).2 _ (habsolute _)).2 _ hgraph).2 _ hgenerate
    exact ⟨b, s₁, shown, started, r, s', hrun, hstdout, hfinishes⟩

/-- **The recorded plan is emptied** by a generation that fails, if the import configuration is a
link to it. -/
theorem exists_commands_emptied :
    ∃ (t : FileTree) (g : PackageGraph) (e : BuildError) (s' : Session),
      (discover t ⟨"/app"⟩ ⟨"/b"⟩ {}).outcome.1 = .ok g ∧
      ((generate g ⟨"/b"⟩ {}).outcome ⟨t, []⟩).1 = .error e ∧
      (∀ launch options, (runBuild launch ⟨"/app"⟩ ⟨"/b"⟩ {} options).outcome ⟨t, []⟩ =
        (.error e, s')) ∧
      t.resolve (Layout.commands ⟨⟨"/b"⟩⟩) = .ok ["b", "commands.json"] ∧
      t.node? ["b", "commands.json"] = some (.file (.text "[]") false) ∧
      s'.tree.node? ["b", "commands.json"] = some (.file (.text "") false) := by
  have herror := generate_excludedTree write_linked
  have hbase : ((absolutePath ⟨"/b"⟩).outcome ⟨excludedTree linkedImportcfg, []⟩).1 = .ok ⟨"/b"⟩ :=
    rfl
  obtain ⟨s', hplan, htree⟩ := planBuild_of_generate_error hbase discover_linked herror
  refine ⟨excludedTree linkedImportcfg, excludedGraph, _, s', discover_linked, herror,
    fun launch options => (runBuild_of_planBuild_error hplan).1, rfl, rfl, ?_⟩
  have hgenerate : (generate excludedGraph ⟨"/b"⟩ {}).outcome ⟨excludedTree linkedImportcfg, []⟩ =
      (.error (.noCompilableSources "main"),
        ((generate excludedGraph ⟨"/b"⟩ {}).outcome ⟨excludedTree linkedImportcfg, []⟩).2) := by
    rw [← herror]
  have hdirs : (excludedTree linkedImportcfg).makeDirectories ⟨"/b"⟩ =
      .ok (excludedTree linkedImportcfg) := rfl
  rw [htree]
  rcases generate_error hgenerate with ⟨fault, hmade⟩ | ⟨t₁, hdirs', ⟨-, fault, hfault⟩ | hwrite⟩
  · cases (FileTree.makeDirectories_eq_ok.1 hdirs).symm.trans hmade
  · obtain rfl := Except.ok.inj (hdirs.symm.trans hdirs')
    cases write_linked.symm.trans hfault
  · obtain rfl := Except.ok.inj (hdirs.symm.trans hdirs')
    rw [← Except.ok.inj (write_linked.symm.trans hwrite)]
    rfl

end GoPlanner

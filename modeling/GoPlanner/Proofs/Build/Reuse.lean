import GoPlanner.Proofs.Build.History

/-!
# Archives That Are Used Again

A package that keeps its archive leads to packages only that keep theirs, and each of these
archives was compiled after the last edit of the directory of its package. Whether a package
was compiled after the packages that it leads to is another matter. The files say nothing about
that, so it depends on the runs. In one run packages are compiled after those that they lead to.
A run that stops early, or that is one of another root, can compile the archive of an import
and leave the package itself out. Then the archive of the package is older than the archive of
the import, and it is still used.

## Main definitions

* `Run.LeavesOut`: runs that compile an import and not the package.

## Main results

* `Sifts.index_le_of_leads`: the order in which the packages of a run are compiled.
* `Past.Sound.exists_lastCompiled`: archives that are used were compiled after edits.
* `Past.upToDate_of_isCached`: the archives that are used after a history.
-/

namespace GoPlanner

open PackageGraph Discovery Relation

/-! ### The order of compilations -/

/-- The packages of some numbers, by their positions. -/
theorem getElem?_filterMap_of_isSome {α β : Type} {f : α → Option β} {l : List α}
    (h : ∀ a ∈ l, (f a).isSome) (j : Nat) : (l.filterMap f)[j]? = l[j]?.bind f := by
  induction l generalizing j with
  | nil => simp
  | cons a l ih =>
      obtain ⟨b, hb⟩ := Option.isSome_iff_exists.1 (h a List.mem_cons_self)
      rw [List.filterMap_cons_some hb]
      cases j with
      | zero => simp [hb]
      | succ j =>
          rw [List.getElem?_cons_succ, List.getElem?_cons_succ]
          exact ih (fun a ha => h a (List.mem_cons_of_mem _ ha)) j

/-- **The compilations of a build,** by the packages that it builds. -/
theorem Planned.getElem?_compilations {t t' : FileTree} {input : Path} {target : Target}
    {b : Build} (h : Planned t input target b t') (j : Nat) :
    b.plan.compilations[j]? = ((b.graph.toBuild[j]?).bind b.graph.package?).map
      (Block.compile ⟨b.layout, target⟩) := by
  rw [h.compilations_eq, List.getElem?_map, getElem?_filterMap_of_isSome]
  intro id hid
  obtain ⟨p, hp⟩ := exists_package (mem_toBuild.1 hid).1
  simp [hp]

namespace Sifts

variable {c : Discovery} {start : Arrival} {precompiled : Bool} {found g : PackageGraph}
  {id k : PackageId} {p : Package}

/-- **Packages stand before** those that lead to them. -/
theorem mem_before_of_leads (h : Sifts c start precompiled found g) (hleads : g.Leads id k)
    (hne : id ≠ k) {before after : List PackageId} (hsplit : g.buildOrder = before ++ id :: after) :
    k ∈ before := by
  induction hleads using ReflTransGen.head_induction_on generalizing before after with
  | refl => exact absurd rfl hne
  | head himports hrest ih =>
      rename_i id next
      have hsize : next < g.size := h.closed _ _ himports
      have hnext := mem_before_of_imports hsplit (h.grounded himports.importer_lt) himports hsize
      by_cases heq : next = k
      · exact heq ▸ hnext
      · obtain ⟨first, second, rfl⟩ := List.append_of_mem hnext
        have horder : g.buildOrder = first ++ next :: (second ++ id :: after) := by simp [hsplit]
        exact List.mem_append_left _ (ih heq horder)

/-- **Packages are compiled before** those that lead to them. -/
theorem index_le_of_leads (h : Sifts c start precompiled found g) (hleads : g.Leads id k)
    {m j : Nat} (hm : g.toBuild[m]? = some id) (hj : g.toBuild[j]? = some k) : j ≤ m := by
  have hnodup := g.nodup_toBuild
  obtain ⟨hmlt, -⟩ := List.getElem?_eq_some_iff.1 hm
  obtain ⟨hjlt, -⟩ := List.getElem?_eq_some_iff.1 hj
  by_cases hne : id = k
  · subst hne
    exact Nat.le_of_eq ((List.getElem?_inj hjlt hnodup).1 (hj.trans hm.symm))
  · obtain ⟨before, after, hsplit⟩ := List.append_of_mem (List.mem_of_getElem? hm)
    obtain ⟨earlier, later, horder, rfl, -⟩ := exists_buildOrder_split hsplit
    have hkept := (mem_toBuild.1 (List.mem_of_getElem? hj)).2.2
    have hk : k ∈ earlier.filter (fun id => !g.isCached id) :=
      List.mem_filter.2 ⟨h.mem_before_of_leads hleads hne horder, by simp [hkept]⟩
    obtain ⟨i, hi⟩ := List.mem_iff_getElem?.1 hk
    obtain ⟨hilt, -⟩ := List.getElem?_eq_some_iff.1 hi
    have hij : j = i := by
      refine (List.getElem?_inj hjlt hnodup).1 ?_
      rw [hj, hsplit, List.getElem?_append_left hilt, hi]
    have hlast : m = (earlier.filter (fun id => !g.isCached id)).length := by
      refine (List.getElem?_inj hmlt hnodup).1 ?_
      rw [hm, hsplit, List.getElem?_append_right (Nat.le_refl _)]
      simp
    rw [hij, hlast]
    exact Nat.le_of_lt hilt

/-! ### Packages with archives -/

/-- **A package with an archive** leads to others with archives only. -/
theorem isCached_of_leads (h : Sifts c start precompiled found g) (hid : id < g.size)
    (hcached : g.isCached id = true) (hleads : g.Leads id k) : g.isCached k = true := by
  rw [h.isCached_iff hid] at hcached
  rw [h.isCached_iff (hleads.lt_size h.closed hid)]
  exact fun m hm => hcached m (hleads.trans hm)

/-- **A package that leads to one that is built** is built. -/
theorem mem_toBuild_of_leads (h : Sifts c start precompiled found g) (hid : id < g.size)
    (hleads : g.Leads id k) (hk : k ∈ g.toBuild) : id ∈ g.toBuild := by
  refine mem_toBuild.2 ⟨hid, h.leads hid, ?_⟩
  by_contra hcached
  rw [Bool.not_eq_false] at hcached
  have hkept := h.isCached_of_leads hid hcached hleads
  rw [(mem_toBuild.1 hk).2.2] at hkept
  cases hkept

/-- The directory of a package other than the root is there, unless it stands for an archive of
the standard library. -/
theorem exists_find (h : Sifts c start precompiled found g) (hp : g.package? id = some p)
    (hid : id ≠ root) (hsource : ¬ c.IsArchived p.importPath p.directory) :
    ∃ place, c.tree.find p.directory = .ok (place, .directory) := by
  obtain ⟨q, hq, hpq⟩ := h.exists_found hp
  obtain ⟨q', imports, hcomplete⟩ := h.finds.complete (lt_size_of_package? hq)
  obtain rfl : q = q' := Option.some.inj (hq.symm.trans hcomplete.package)
  obtain ⟨r, hstems, hrq⟩ := hcomplete.stems
  have hdirectory : p.directory = r.directory := by
    rw [hpq]
    exact hrq.directory
  have hpath : p.importPath = r.importPath := by
    rw [hpq]
    exact hrq.importPath
  rw [hdirectory, hpath] at hsource
  rw [hdirectory]
  cases hstems with
  | root hroot => exact absurd hroot hid
  | source _ harrives hread =>
      obtain ⟨⟨place, names⟩, hlist⟩ := hread.exists_list harrives.onlyFile
      rw [hread.fields.1]
      exact ⟨place, FileTree.find_of_list hlist⟩
  | archived _ hlocated => exact absurd ⟨_, hlocated⟩ hsource

end Sifts

namespace Past

variable {u : Setup} {past : Past} {place directory : Place} {s : String} {p : Path}

/-- **An archive that is not outdated** was compiled after all edits of the directory of its
package. -/
theorem Sound.exists_lastCompiled (h : past.Sound u place)
    (hfresh : ¬ IsOutdated past.tree u.layout s p)
    (hfind : past.tree.find p = .ok (directory, .directory)) :
    ∃ time, past.lastCompiled? (u.layout.archive s) = some time ∧
      ∀ e ∈ past.edits, e.1 = directory → e.2 < time := by
  obtain ⟨hpresent, hnewer⟩ := not_or.1 hfresh
  obtain ⟨archive, hresolve⟩ := FileTree.isPresent_iff.1 (by simpa using hpresent)
  have hplace : archive = place ++ [(Artifact.archive s).name] :=
    FileTree.resolve_child h.reflects.base (Artifact.isPlain_name (by simp))
      h.reflects.isLink_eq_false hresolve
  obtain ⟨node, hnode⟩ := Option.isSome_iff_exists.1 (FileTree.isSome_of_resolve hresolve)
  rw [hplace, FileTree.node?, if_neg (by simp)] at hnode
  obtain ⟨entry, hentry, -⟩ := Option.map_eq_some_iff.1 hnode
  have hmodified : past.tree.modified (u.layout.archive s) = .ok entry.modified := by
    rw [FileTree.modified, hresolve, hplace]
    simp [hentry]
  have hlast := h.reflects.archives s entry hentry
  refine ⟨entry.modified, hlast, ?_⟩
  rintro e he rfl
  obtain ⟨name, edited, hedited, hle⟩ := h.reflects.edited e he
  have hlist : past.tree.list p = .ok (e.1, past.tree.names e.1) := by
    rw [FileTree.list, hfind]
  have hname : name ∈ past.tree.names e.1 := by
    rw [FileTree.mem_names_iff]
    obtain ⟨before, after, hsplit, -⟩ := List.lookup_eq_some_iff.1 hedited
    exact ⟨(e.1 ++ [name], edited), by simp [hsplit], rfl⟩
  have hold : edited.modified ≤ entry.modified := by
    by_contra hnew
    exact hnewer ⟨_, _, _, hmodified, hlist, name, hname, edited, hedited, Int.not_le.1 hnew⟩
  obtain ⟨i, hi, -⟩ := mem_of_lastTime? hlast
  exact Int.lt_iff_le_and_ne.2 ⟨Int.le_trans hle hold, h.inOrder.apart e he _ hi⟩

end Past

/-- **A run leaves an archive out** when it compiles something at a time, and stops before all
packages with this archive that lead to what it compiles then. -/
def Run.LeavesOut (r : Run) (archive : Path) (time : Int) : Prop :=
  ∀ (j : Nat) (k id : PackageId) (p : Package), r.times[j]? = some time →
    r.build.graph.toBuild[j]? = some k → r.build.graph.package? id = some p →
    r.build.layout.archive p.importPath = archive → r.build.graph.Leads id k →
    id ∈ r.build.graph.toBuild.drop r.times.length

namespace Past

variable {u : Setup} {past : Past} {place : Place} {r : Run} {archive other : Path}
  {time last : Int}

/-- What a run has compiled at a position. -/
theorem mem_compiled (hr : r ∈ past.runs) {i : Invocation} {j : Nat}
    (hi : r.build.plan.compilations[j]? = some i) (htime : r.times[j]? = some time) :
    (i, time) ∈ past.compiled := by
  refine List.mem_flatMap.2 ⟨r, hr, List.mem_iff_getElem?.2 ⟨j, ?_⟩⟩
  rw [Run.compiled, List.getElem?_zip_eq_some]
  exact ⟨hi, htime⟩

/-- A run compiles one package after the other. -/
theorem Sound.times_le (h : past.Sound u place) (hr : r ∈ past.runs) {j m : Nat} (hjm : j ≤ m)
    (hj : r.times[j]? = some time) (hm : r.times[m]? = some last) : time ≤ last := by
  have hcompiled : r.compiled.Pairwise (fun c c' => c.2 < c'.2) :=
    (List.pairwise_flatMap.1 h.inOrder.increasing).1 r hr
  have htimes : r.compiled.map (·.2) = r.times := List.map_snd_zip (h.planned r hr).times
  have hpair : r.times.Pairwise (· < ·) := htimes ▸ List.pairwise_map.2 hcompiled
  obtain ⟨hjlt, rfl⟩ := List.getElem?_eq_some_iff.1 hj
  obtain ⟨hmlt, rfl⟩ := List.getElem?_eq_some_iff.1 hm
  rcases Nat.eq_or_lt_of_le hjm with rfl | hjm
  · exact Int.le_refl _
  · exact Int.le_of_lt (List.pairwise_iff_getElem.1 hpair j m hjlt hmlt hjm)

/-- **A run that compiles something after the last compilation of an archive** leaves that
archive out. -/
theorem Sound.leavesOut (h : past.Sound u place) (hr : r ∈ past.runs)
    (hlast : past.lastCompiled? archive = some last) (hlater : last < time) :
    r.LeavesOut archive time := by
  rintro j k id p hj hk hp rfl hleads
  have hrun := h.planned r hr
  obtain ⟨t, t', input, hplanned⟩ := hrun.planned
  obtain ⟨c, start, found, -, hsifts⟩ := sifts_of_discover hplanned.graph
  have hid : id ∈ r.build.graph.toBuild := hsifts.mem_toBuild_of_leads
    (lt_size_of_package? hp) hleads (List.mem_of_getElem? hk)
  rw [← List.take_append_drop r.times.length r.build.graph.toBuild, List.mem_append] at hid
  refine hid.resolve_left fun htaken => ?_
  obtain ⟨m, hm⟩ := List.mem_iff_getElem?.1 htaken
  rw [List.getElem?_take] at hm
  split at hm
  case isFalse => cases hm
  rename_i hmlt
  -- The package is compiled in this run, and not before what it leads to.
  have hjm : j ≤ m := hsifts.index_le_of_leads hleads hm hk
  have htime : r.times[m]? = some r.times[m] := List.getElem?_eq_getElem hmlt
  have hi : r.build.plan.compilations[m]? =
      some (Block.compile ⟨r.build.layout, u.target⟩ p) := by
    rw [hplanned.getElem?_compilations, hm]
    simp [hp]
  have hmem := mem_compiled hr hi htime
  have hle := le_lastTime? h.inOrder.increasing hlast hmem (Block.operands_compile _ p).2
  have hincreasing := h.times_le hr hjm hj htime
  exact absurd (Int.lt_of_lt_of_le hlater (Int.le_trans hincreasing hle)) (Int.lt_irrefl _)

/-- At one time only one archive is compiled. -/
theorem Sound.archive_eq (h : past.Sound u place) (harchive : past.lastCompiled? archive = some time)
    (hother : past.lastCompiled? other = some time) : archive = other := by
  obtain ⟨i, hi, houtput⟩ := mem_of_lastTime? harchive
  obtain ⟨j, hj, houtput'⟩ := mem_of_lastTime? hother
  have hnodup : (past.compiled.map (·.2)).Nodup :=
    List.pairwise_map.2 (h.inOrder.increasing.imp Int.ne_of_lt)
  obtain ⟨rfl, -⟩ := Prod.mk.inj (List.inj_on_of_nodup_map hnodup hi hj rfl)
  exact Path.eq_of_text (Option.some.inj (houtput.symm.trans houtput'))

/-- **After every history** of edits and runs, whole or broken off, a package that keeps its
archive leads to packages that keep theirs. Unless it is one of the standard library, the archive
of each of them was compiled last after the last edit of the directory of its package. It was
compiled before that of the first package, or the run that compiled it left the archive of the
first package out. -/
theorem upToDate_of_isCached {start : Past} {events : List Event} {input : Path}
    {g : PackageGraph} (hstart : start.IsBeginning u) (hafter : start.after? u events = some past)
    (hgraph : (discover past.tree input u.layout.base u.target).outcome.1 = .ok g) :
    ∃ c, IsFor c past.tree input u.layout.base u.target ∧
      ∀ id p, g.package? id = some p → p.isCached = true →
        ∀ k q, g.package? k = some q → g.Leads id k →
          q.isCached = true ∧ (¬ c.IsArchived q.importPath q.directory →
            ∃ time place, past.lastCompiled? (u.layout.archive q.importPath) = some time ∧
              past.tree.find q.directory = .ok (place, .directory) ∧
              (∀ e ∈ past.edits, e.1 = place → e.2 < time) ∧
              ∀ last, past.lastCompiled? (u.layout.archive p.importPath) = some last →
                time < last ∨ u.layout.archive q.importPath = u.layout.archive p.importPath ∨
                  ∃ r ∈ past.runs, time ∈ r.times ∧
                    r.LeavesOut (u.layout.archive p.importPath) time) := by
  obtain ⟨place, hsound⟩ := hstart.sound
  replace hsound := hsound.after hafter
  obtain ⟨c, start, found, hfor, hsifts⟩ := sifts_of_discover hgraph
  refine ⟨c, hfor, fun id p hp hcached k q hq hleads => ?_⟩
  have hkept : g.isCached k = true :=
    hsifts.isCached_of_leads (lt_size_of_package? hp) ((isCached_eq hp).trans hcached) hleads
  refine ⟨(isCached_eq hq).symm.trans hkept, fun hsource => ?_⟩
  obtain ⟨hroot, hfresh⟩ := not_or.1
    (mt (hsifts.isCached_eq_false_iff (lt_size_of_package? hq)).2 (by simp [hkept]))
  have hfresh : ¬ IsOutdated past.tree u.layout q.importPath q.directory := by
    intro houtdated
    refine hfresh ⟨k, ReflTransGen.refl, q, hq, hsource, ?_⟩
    rwa [hfor.tree_eq, hfor.layout_eq]
  obtain ⟨directory, hfind⟩ := hsifts.exists_find hq hroot hsource
  rw [hfor.tree_eq] at hfind
  obtain ⟨time, htime, hedits⟩ := hsound.exists_lastCompiled hfresh hfind
  refine ⟨time, directory, htime, hfind, hedits, fun last hlast => ?_⟩
  rcases Int.lt_trichotomy time last with hlt | rfl | hlater
  · exact Or.inl hlt
  · exact Or.inr (Or.inl (hsound.archive_eq htime hlast))
  · obtain ⟨i, hi, -⟩ := mem_of_lastTime? htime
    obtain ⟨r, hr, hi⟩ := List.mem_flatMap.1 hi
    exact Or.inr (Or.inr ⟨r, hr, (List.of_mem_zip hi).2, hsound.leavesOut hr hlast hlater⟩)

/-- A file tree in which the root package imports a package that imports another one. -/
def chainTree : FileTree where
  entries :=
    [(["app"], ⟨.directory, 0⟩),
      (["app", "main.go"], ⟨.file (.text "package main\nimport \"x\"\n") false, 0⟩),
      (["p"], ⟨.directory, 0⟩), (["p", "x"], ⟨.directory, 0⟩),
      (["p", "x", "x.go"], ⟨.file (.text "package x\nimport \"d\"\n") false, 0⟩),
      (["p", "d"], ⟨.directory, 0⟩),
      (["p", "d", "d.go"], ⟨.file (.text "package d\n") false, 0⟩), (["b"], ⟨.directory, 0⟩)]

/-- A history begins with this tree. -/
def chainStart : Past :=
  { tree := chainTree, now := 0 }

/-- The build directory and the target of this history. -/
def chainSetup : Setup :=
  ⟨⟨"/b"⟩, ⟨⟨"/b"⟩⟩, shadowTarget⟩

theorem isBeginning_chainStart : chainStart.IsBeginning chainSetup :=
  ⟨rfl, ⟨["b"], by decide +kernel⟩, rfl, rfl⟩

/-- The last import is edited, and then all is compiled. -/
def chainEvents : List Event :=
  [.edit ["p", "d"] "d.go" (.text "package d\n") 1,
    .run ⟨"/app"⟩ 2 [(3, .text ""), (4, .text ""), (5, .text "")]]

/-- The last import is used again, as its archive was compiled after the edit. -/
theorem upToDate_of_isCached_chain :
    ∃ past g, chainStart.after? chainSetup chainEvents = some past ∧
      (discover past.tree ⟨"/app"⟩ ⟨"/b"⟩ shadowTarget).outcome.1 = .ok g ∧
      past.edits = [(["p", "d"], 1)] ∧ (g.package? 2).map (·.importPath) = some "d" ∧
      ∃ time, past.lastCompiled? (chainSetup.layout.archive "d") = some time ∧ 1 < time := by
  have htest : (chainStart.after? chainSetup chainEvents).any (fun past =>
      (discover past.tree ⟨"/app"⟩ ⟨"/b"⟩ shadowTarget).outcome.1.toOption.any (fun g =>
        decide (past.edits = [(["p", "d"], 1)] ∧
          past.tree.resolve ⟨"/app"⟩ = .ok ["app"] ∧
          past.tree.loadModule (rootOf past.tree ["app"]).directory = .ok none ∧
          Locator.locate ⟨shadowTarget, (rootOf past.tree ["app"]).directory, none⟩ past.tree "d" =
            some (.source ⟨"/p/d"⟩ false) ∧
          2 ∈ g.importsOf 1 ∧ (∃ p ∈ g.package? 1, p.isCached = true) ∧
          ∃ q ∈ g.package? 2, q.importPath = "d" ∧
            past.tree.find q.directory = .ok (["p", "d"], .directory)))) = true := by
    decide +kernel
  obtain ⟨past, hafter, hgraph⟩ := (Option.any_eq_true _ _).1 htest
  obtain ⟨g, told, hgraph, hfacts⟩ := exists_ok_of_any hgraph
  obtain ⟨hedits, hinput, hmodule, hlocated, himports, ⟨p, hp, hcached⟩, q, hq, hpath, hfind⟩ :=
    of_decide_eq_true hfacts
  replace hgraph := congrArg Prod.fst hgraph
  obtain ⟨c, hfor, hkept⟩ := upToDate_of_isCached isBeginning_chainStart hafter hgraph
  have hsource : ¬ c.IsArchived q.importPath q.directory := by
    obtain ⟨place, module?, hplace, hends, rfl⟩ := hfor
    obtain rfl : ["app"] = place := Except.ok.inj (hinput.symm.trans hplace)
    rw [moduleOf, hmodule, Telling.ends_pure] at hends
    obtain rfl := Except.ok.inj hends
    rintro ⟨archive, harchive⟩
    rw [hpath] at harchive
    cases hlocated.symm.trans harchive
  obtain ⟨-, hlast⟩ := hkept 1 p hp hcached 2 q hq (ReflTransGen.single himports)
  obtain ⟨time, place, htime, hfind', hbefore, -⟩ := hlast hsource
  obtain ⟨rfl, -⟩ := Prod.mk.inj (Except.ok.inj (hfind.symm.trans hfind'))
  rw [hpath] at htime
  refine ⟨past, g, hafter, hgraph, hedits, by rw [hq]; exact congrArg some hpath, time, htime, ?_⟩
  exact hbefore (["p", "d"], 1) (by simp [hedits]) rfl

/-- All is compiled, the last import is edited, and a run is broken off when it has compiled
that import. -/
def brokenEvents : List Event :=
  [.run ⟨"/app"⟩ 1 [(2, .text ""), (3, .text ""), (4, .text "")],
    .edit ["p", "d"] "d.go" (.text "package d\n") 5, .run ⟨"/app"⟩ 6 [(7, .text "")]]

/-- **A package is used again although its import was compiled later,** after the run that was
broken off. -/
theorem exists_reused_before_import :
    ∃ past g, chainStart.IsBeginning chainSetup ∧
      chainStart.after? chainSetup brokenEvents = some past ∧
      (discover past.tree ⟨"/app"⟩ ⟨"/b"⟩ shadowTarget).outcome.1 = .ok g ∧
      g.packages.map (fun p => (p.importPath, p.imports, p.isCached)) =
        [("main", [1], false), ("x", [2], true), ("d", [], true)] ∧
      past.lastCompiled? (chainSetup.layout.archive "x") = some 3 ∧
      past.lastCompiled? (chainSetup.layout.archive "d") = some 7 := by
  have htest : (chainStart.after? chainSetup brokenEvents).any (fun past =>
      (discover past.tree ⟨"/app"⟩ ⟨"/b"⟩ shadowTarget).outcome.1.toOption.any (fun g =>
        decide (g.packages.map (fun p => (p.importPath, p.imports, p.isCached)) =
            [("main", [1], false), ("x", [2], true), ("d", [], true)] ∧
          past.lastCompiled? (chainSetup.layout.archive "x") = some 3 ∧
          past.lastCompiled? (chainSetup.layout.archive "d") = some 7))) = true := by
    decide +kernel
  obtain ⟨past, hafter, hgraph⟩ := (Option.any_eq_true _ _).1 htest
  obtain ⟨g, told, hgraph, hfacts⟩ := exists_ok_of_any hgraph
  exact ⟨past, g, isBeginning_chainStart, hafter, congrArg Prod.fst hgraph,
    of_decide_eq_true hfacts⟩

end Past

end GoPlanner

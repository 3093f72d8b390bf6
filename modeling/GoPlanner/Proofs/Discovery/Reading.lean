import GoPlanner.Proofs.Discovery.Contents

/-!
# When a Directory Can Be Read

Reading a directory succeeds exactly if every Go file in it has a header, one package is meant,
and the constraints of the files of this package and of the assembly files can be decided. So
what reading gives can be said without running it, and two directories can be compared.

## Main definitions

* `SourceDirectory.goFile?`: the Go file under a name.
* `SourceDirectory.Shows`: the files that are looked at.

## Main results

* `SourceDirectory.exists_of_read`, `SourceDirectory.answers_read`: what reading gives, and that it
  is given.
-/

namespace GoPlanner

open Telling

namespace SourceDirectory

variable {d : SourceDirectory} {t : FileTree} {target : Target} {contents : Contents}
  {name package src : String} {names asmNames : List String} {file : GoFile} {files : List GoFile}
  {seen : List GoFile × List String}

/-! ### Go files -/

/-- **The Go file under a name,** if it has a header. -/
def goFile? (d : SourceDirectory) (t : FileTree) (name : String) : Option GoFile :=
  (t.readSource (d.directory.child name)).toOption.bind fun src =>
    (scanHeader src).toOption.map fun header =>
      ⟨name, src, header.package, header.imports.map (·.path)⟩

theorem goFile?_eq_some_iff :
    d.goFile? t name = some file ↔ file.name = name ∧ d.Holds t file := by
  rw [goFile?, Option.bind_eq_some_iff]
  constructor
  · rintro ⟨src, hsrc, hfile⟩
    obtain ⟨header, hheader, rfl⟩ := Option.map_eq_some_iff.1 hfile
    exact ⟨rfl, header, ok_of_toOption hsrc, ok_of_toOption hheader, rfl, rfl⟩
  · rintro ⟨rfl, header, hsrc, hheader, hpackage, himports⟩
    refine ⟨file.src, by rw [hsrc]; rfl, Option.map_eq_some_iff.2 ⟨header, by rw [hheader]; rfl, ?_⟩⟩
    rw [← hpackage, ← himports]

theorem answers_goFile (h : d.goFile? t name = some file) :
    (d.goFile t name).Answers (.ok file) := by
  rw [goFile?, Option.bind_eq_some_iff] at h
  obtain ⟨src, hsrc, hfile⟩ := h
  obtain ⟨header, hheader, rfl⟩ := Option.map_eq_some_iff.1 hfile
  rw [goFile]
  refine (answers_orRefused_ok (ok_of_toOption hsrc)).bind ?_
  rw [ok_of_toOption hheader]
  exact answers_pure _

/-- **The Go files under a list of names** have these names and are as the directory holds them. -/
theorem map_some_eq_iff : files.map some = names.map (d.goFile? t) ↔
    files.map (·.name) = names ∧ ∀ file ∈ files, d.Holds t file := by
  constructor
  · intro hfiles
    induction names generalizing files with
    | nil =>
        obtain rfl := List.map_eq_nil_iff.1 hfiles
        exact ⟨rfl, by simp⟩
    | cons name names ih =>
        obtain ⟨file, rest, rfl, hfile, hrest⟩ := List.map_eq_cons_iff.1 hfiles
        obtain ⟨rfl, hholds⟩ := goFile?_eq_some_iff.1 hfile.symm
        obtain ⟨rfl, hall⟩ := ih hrest
        exact ⟨rfl, List.forall_mem_cons.2 ⟨hholds, hall⟩⟩
  · rintro ⟨rfl, hholds⟩
    rw [List.map_map]
    refine List.map_congr_left fun file hfile => ?_
    exact (goFile?_eq_some_iff.2 ⟨rfl, hholds file hfile⟩).symm

/-- There are Go files under a list of names if there is one under every name. -/
theorem exists_map_some (h : ∀ name ∈ names, ∃ file, d.goFile? t name = some file) :
    ∃ files : List GoFile, files.map some = names.map (d.goFile? t) := by
  choose! fileOf hfileOf using h
  refine ⟨names.map fileOf, ?_⟩
  rw [List.map_map]
  exact List.map_congr_left fun name hname => (hfileOf name hname).symm

theorem exists_goFile_of_mem (hfiles : files.map some = names.map (d.goFile? t))
    (hname : name ∈ names) : ∃ file ∈ files, d.goFile? t name = some file := by
  obtain ⟨rfl, hholds⟩ := map_some_eq_iff.1 hfiles
  obtain ⟨file, hfile, rfl⟩ := List.mem_map.1 hname
  exact ⟨file, hfile, goFile?_eq_some_iff.2 ⟨rfl, hholds file hfile⟩⟩

/-- The Go files that have been seen are those under their names. -/
theorem Sees.map_some (h : d.Sees t names seen) :
    seen.1.map some = (names.filter (fun name => FileKind.ofName name == .go)).map (d.goFile? t) :=
  map_some_eq_iff.2 ⟨h.goFiles, h.holds⟩

/-! ### Looking at files -/

/-- The names of the files of one kind. -/
def namesOf (d : SourceDirectory) (t : FileTree) (kind : FileKind) (names : List String) :
    List String :=
  names.filter (fun name => t.isFile (d.directory.child name) && FileKind.ofName name == kind)

/-- **What a directory shows:** the only file to be read, or all Go files and the names of all
assembly files. -/
inductive Shows (d : SourceDirectory) (t : FileTree) : List GoFile → List String → Prop
  | only {name : String} {file : GoFile} (honly : d.onlyFile = some name)
      (hfile : d.goFile? t name = some file) : Shows d t [{ file with package := mainPackage }] []
  | all {place : Place} {names : List String} {files : List GoFile} (hall : d.onlyFile = none)
      (hlist : t.list d.directory = .ok (place, names))
      (hfiles : files.map some = (d.namesOf t .go names).map (d.goFile? t)) :
      Shows d t files (d.namesOf t .assembly names)

theorem shows_of_look (h : (d.look t).Ends (.ok (files, asmNames))) : d.Shows t files asmNames := by
  rcases look_of_ends h with ⟨file, honly, hholds, hfound⟩ | ⟨hall, place, names, hlist, hsees⟩
  · obtain ⟨rfl, rfl⟩ := Prod.mk.inj hfound
    exact .only honly (goFile?_eq_some_iff.2 ⟨rfl, hholds⟩)
  · have hnames (kind : FileKind) :
        (names.filter (fun name => t.isFile (d.directory.child name))).filter
          (fun name => FileKind.ofName name == kind) = d.namesOf t kind names := by
      rw [namesOf, List.filter_filter]
      exact List.filter_congr fun name _ => Bool.and_comm _ _
    have hfiles := hsees.map_some
    have hasm := hsees.asmFiles
    rw [hnames] at hfiles hasm
    obtain rfl : asmNames = _ := hasm
    exact .all hall hlist hfiles

/-- One file can be looked at, unless it is a Go file without a header. -/
theorem exists_answers_lookAt
    (h : FileKind.ofName name = .go → ∃ file, d.goFile? t name = some file) :
    ∃ seen', (d.lookAt t seen name).Answers (.ok seen') := by
  rw [lookAt]
  cases hkind : FileKind.ofName name with
  | go =>
      obtain ⟨file, hfile⟩ := h hkind
      exact ⟨_, (answers_goFile hfile).bind (answers_pure _)⟩
  | assembly => exact ⟨_, answers_pure _⟩
  | unsupported =>
      refine ⟨seen, Answers.bind (a := ()) ?_ (answers_pure _)⟩
      rw [mentionUnsupported]
      split <;> exact answers_tell _
  | unrelated => exact ⟨_, answers_pure _⟩

/-- **Looking at a directory** succeeds when there is something that it shows. -/
theorem Shows.answers (h : d.Shows t files asmNames) :
    (d.look t).Answers (.ok (files, asmNames)) := by
  have hends {found : List GoFile × List String} (hlook : (d.look t).Answers (.ok found)) :
      d.Shows t found.1 found.2 := shows_of_look hlook.ends
  cases h with
  | only honly hfile =>
      rw [look, honly]
      exact (answers_goFile hfile).bind (answers_pure _)
  | @all place names _ hall hlist hfiles =>
      have hgo : ∀ name ∈ names.filter (fun name => t.isFile (d.directory.child name)),
          FileKind.ofName name = .go → ∃ file, d.goFile? t name = some file := by
        intro name hname hkind
        have hmem : name ∈ d.namesOf t .go names := by
          obtain ⟨hname, hfile⟩ := List.mem_filter.1 hname
          exact List.mem_filter.2 ⟨hname, by simp [hfile, hkind]⟩
        obtain ⟨file, -, hfile⟩ := exists_goFile_of_mem hfiles hmem
        exact ⟨file, hfile⟩
      obtain ⟨found, hfound⟩ := exists_answers_foldlM (f := d.lookAt t)
        (fun _ name hname => exists_answers_lookAt (hgo name hname)) ([], [])
      have hlook : (d.look t).Answers (.ok found) := by
        rw [look, hall]
        refine Answers.bind (a := names.filter (fun name => t.isFile (d.directory.child name)))
          ?_ hfound
        rw [fileNames]
        exact (answers_orRefused_ok hlist).bind (answers_pure _)
      -- What is shown is determined by the files.
      obtain ⟨found₁, found₂⟩ := found
      cases hends hlook with
      | only honly _ => cases hall.symm.trans honly
      | all _ hlist' hfiles' =>
          obtain ⟨rfl, rfl⟩ := Prod.mk.inj (Except.ok.inj (hlist.symm.trans hlist'))
          obtain rfl : files = found₁ :=
            List.map_injective_iff.2 (fun _ _ => Option.some.inj) (hfiles.trans hfiles'.symm)
          exact hlook

/-! ### Reading -/

theorem answers_admits (h : target.Decides name src) :
    (d.admits target name src).Answers (.ok (target.admits name src)) := by
  rw [admits, Target.admits]
  split
  · rename_i htest
    simpa [htest] using answers_pure false
  · rename_i htest
    obtain ⟨admitted, hincludes⟩ := h.resolve_left htest
    rw [hincludes]
    have hadmits : (!isTestFile name && (Except.ok admitted : Except ScanError Bool).toOption ==
        some true) = admitted := by
      simp [htest, Except.toOption]
    rw [hadmits]
    refine Answers.bind (a := ()) ?_ (answers_pure _)
    rw [tellIf]
    split
    · exact answers_tell _
    · exact answers_pure _

/-- **What reading gives:** the contents for a package that is selected among the files that are
shown. -/
theorem exists_of_read (h : (d.read t target).Ends (.ok contents)) :
    ∃ files asmNames, d.Shows t files asmNames ∧
      d.Selects t target files asmNames contents.name ∧
      contents = d.contentsOf t target files asmNames contents.name := by
  obtain ⟨files, asmNames, hlook, hread⟩ := read_of_ends h
  exact ⟨files, asmNames, shows_of_look hlook, hread⟩

/-- **Reading fails** when no package can be meant. -/
theorem answers_read_error {e : BuildError} (hshows : d.Shows t files asmNames)
    (hmeant : d.meantPackage (files.filter (fun file => d.canMean file.package)) = .error e) :
    (d.read t target).Answers (.error e) := by
  rw [read]
  refine hshows.answers.bind ?_
  dsimp only
  rw [hmeant]
  exact answers_throw e

/-- **Reading succeeds** when a package can be selected. -/
theorem answers_read (hshows : d.Shows t files asmNames)
    (hselects : d.Selects t target files asmNames package) :
    (d.read t target).Answers (.ok (d.contentsOf t target files asmNames package)) := by
  rw [read]
  refine hshows.answers.bind ?_
  dsimp only
  rw [hselects.meant]
  have hgo : Answers (((files.filter (fun file => d.canMean file.package)).filter
      (fun file => file.package == package)).filterM
        (fun file => d.admits target file.name file.src)) (.ok _) :=
    answers_filterM fun file hfile => by
      obtain ⟨hfile, hpackage⟩ := List.mem_filter.1 hfile
      have hmem := (List.mem_filter.1 hfile).1
      exact answers_admits (hselects.goFiles file hmem (by simpa using hpackage))
  obtain ⟨-, -, -, hmeans⟩ := hselects.exists_file
  rw [filter_candidates hmeans] at hgo
  have hasm : Answers (asmNames.filterM fun name => do
      let src ← d.source t name
      d.admits target name src) (.ok (asmNames.filter (t.admits target d.directory))) :=
    answers_filterM fun name hname => by
      obtain ⟨src, hsrc, hdecides⟩ := hselects.asmFiles name hname
      rw [FileTree.admits, hsrc]
      exact (answers_orRefused_ok hsrc).bind (answers_admits hdecides)
  exact hgo.bind (hasm.bind (answers_pure _))

end SourceDirectory

end GoPlanner

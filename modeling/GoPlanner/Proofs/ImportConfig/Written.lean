import GoPlanner.Proofs.Build.Planned
import GoPlanner.Proofs.ImportConfig
import GoPlanner.Proofs.Text.Lines
import Mathlib.Data.Finset.Card

/-!
# Import Configurations Read Back

An import configuration that starts without entries is a table of all that has been registered. Its
text says the same: if no import path contains an equals sign or a line feed, and no archive a line
feed, then each line is read as one entry. Written to its file, the text replaces what was there.

## Main definitions

* `ImportConfig.IsTableOf`: what an import configuration has of registrations.
* `ImportConfig.entriesOf`: the entries that are read from a text.

## Main results

* `ImportConfig.isTableOf_registerEach`: all that has been registered is in the table.
* `ImportConfig.entriesOf_render`: the text is read back.
* `ImportConfig.flush_ok`, `ImportConfig.flush_error`: what becomes of the file.
* `ImportConfig.registerEach_empty`: what has been registered, in the table and on disk.
-/

namespace GoPlanner

open Acting

namespace ImportConfig

variable {c : ImportConfig} {e : String × Path} {entries registrations : List (String × Path)}
  {importPath : String} {archive : Path}

/-! ### From no entries -/

theorem archive?_registerEach_empty (path : Path) :
    ((empty path).registerEach registrations).archive? importPath = some archive ↔
      IsLast registrations importPath archive := by
  have hnone : (empty path).archive? importPath = none := rfl
  rw [archive?_registerEach, hnone, Option.or_none, lookup_reverse_eq_some_iff]

theorem keys_registerEach_empty (path : Path) :
    ((empty path).registerEach registrations).keys = (registrations.map (·.1)).eraseDups := by
  have hnone : (empty path).keys = [] := rfl
  rw [keys_registerEach, hnone, List.nil_append, List.removeAll]
  simp

/-- **A table of registrations** has one entry for each import path, in the order of the first
registrations, with the archive of the last one. -/
structure IsTableOf (c : ImportConfig) (registrations : List (String × Path)) : Prop where
  /-- The import paths, each where it was registered first. -/
  keys_eq : c.keys = (registrations.map (·.1)).eraseDups
  /-- No import path is listed twice. -/
  nodup : c.keys.Nodup
  /-- The entries are the last registrations. -/
  mem_entries : ∀ e, e ∈ c.entries ↔ IsLast registrations e.1 e.2
  /-- The archive that is found is that of the last registration. -/
  found : ∀ importPath archive,
    c.archive? importPath = some archive ↔ IsLast registrations importPath archive
  /-- No archive is found for an import path that has not been registered. -/
  missing : ∀ importPath, c.archive? importPath = none ↔ ∀ e ∈ registrations, e.1 ≠ importPath
  /-- The size is the number of import paths. -/
  size_eq : c.size = (registrations.map (·.1)).toFinset.card
  /-- The index leads to entries that are there. -/
  index : ∀ e ∈ c.index, ∃ h : e.2 < c.entries.length, (c.entries.get ⟨e.2, h⟩).1 = e.1

/-- **All that has been registered** is in the table. -/
theorem isTableOf_registerEach (path : Path) (registrations : List (String × Path)) :
    ((empty path).registerEach registrations).IsTableOf registrations where
  keys_eq := keys_registerEach_empty path
  nodup := nodup_keys _
  mem_entries := fun _ => archive?_eq_some_iff.symm.trans (archive?_registerEach_empty path)
  found := fun _ _ => archive?_registerEach_empty path
  missing := by
    intro importPath
    rw [archive?_eq_none_iff, keys_registerEach_empty, List.mem_eraseDups, List.mem_map]
    push Not
    rfl
  size_eq := by
    have hkeys : (registrations.map (·.1)).toFinset =
        ((empty path).registerEach registrations).keys.toFinset := by
      ext importPath
      rw [keys_registerEach_empty, List.mem_toFinset, List.mem_toFinset, List.mem_eraseDups]
    rw [hkeys, List.toFinset_card_of_nodup (nodup_keys _), keys, List.length_map, size]
  index := by
    intro e he
    have hentry := ((empty path).registerEach registrations).indexed.entry e he
    obtain ⟨hlt, hget⟩ := List.getElem?_eq_some_iff.1 hentry
    rw [List.getElem_map] at hget
    exact ⟨by simpa using hlt, hget⟩

/-! ### The text -/

/-- The lines of a text that line feeds end. -/
def endedLines (cs : List Char) : List (List Char) :=
  (cs.splitOn '\n').dropLast

/-- The word that a line starts with. -/
def lineWord : List Char :=
  "packagefile ".toList

/-- **The entry of a line:** what is between the word and the first equals sign, and what is behind
the sign. -/
def entryOf? (line : List Char) : Option (String × Path) :=
  (lineWord.isPrefixOf? line).bind fun entry =>
    if '=' ∈ entry then
      some (String.ofList (entry.takeWhile (· ≠ '=')),
        ⟨String.ofList ((entry.dropWhile (· ≠ '=')).drop 1)⟩)
    else none

/-- **The entries of a text,** line by line. -/
def entriesOf (text : String) : List (Option (String × Path)) :=
  (endedLines text.toList).map entryOf?

/-- A line without the line feed that ends it. -/
def lineBody (e : String × Path) : List Char :=
  lineWord ++ (e.1.toList ++ '=' :: e.2.text.toList)

theorem toList_line (e : String × Path) : (line e).toList = lineBody e ++ ['\n'] := by
  have happend (word path sign archive feed : String) :
      (word ++ path ++ sign ++ archive ++ feed).toList =
        word.toList ++ (path.toList ++ (sign.toList ++ archive.toList)) ++ feed.toList := by
    simp only [String.toList_append, List.append_assoc]
  exact happend "packagefile " e.1 "=" e.2.text "\n"

/-- **An entry is read from its line** if there is no equals sign in its import path. -/
theorem entryOf?_lineBody (h : '=' ∉ e.1.toList) : entryOf? (lineBody e) = some e := by
  have hprefix : lineWord.isPrefixOf? (lineBody e) =
      some (e.1.toList ++ '=' :: e.2.text.toList) :=
    List.isPrefixOf?_eq_some_iff_append_eq.2 rfl
  have hpath : ∀ c ∈ e.1.toList, decide (c ≠ '=') = true := fun c hc =>
    decide_eq_true (ne_of_mem_of_not_mem hc h)
  rw [entryOf?, hprefix, Option.bind_some, if_pos (by simp),
    List.takeWhile_append_of_pos hpath, List.dropWhile_append_of_pos hpath]
  simp

/-- The lines of a text that is put together from lines. -/
theorem endedLines_flatMap {α : Type} {f : α → List Char} {xs : List α}
    (h : ∀ x ∈ xs, '\n' ∉ f x) : endedLines (xs.flatMap fun x => f x ++ ['\n']) = xs.map f := by
  induction xs with
  | nil => rfl
  | cons x xs ih =>
      obtain ⟨hx, hxs⟩ := List.forall_mem_cons.1 h
      obtain ⟨first, parts, hparts⟩ := List.exists_cons_of_ne_nil
        (List.splitOn_ne_nil '\n' (xs.flatMap fun x => f x ++ ['\n']))
      have hrest := ih hxs
      rw [endedLines, hparts] at hrest
      rw [endedLines, List.flatMap_cons, List.append_assoc, List.singleton_append,
        List.splitOn_append_cons_self, List.splitOn_eq_singleton hx, hparts, List.singleton_append,
        List.dropLast_cons_cons, hrest, List.map_cons]

/-- **The text is read back,** entry by entry. -/
theorem entriesOf_render (h : ∀ e ∈ c.entries,
    '=' ∉ e.1.toList ∧ '\n' ∉ e.1.toList ∧ '\n' ∉ e.2.text.toList) :
    entriesOf c.render = c.entries.map some := by
  have htext : c.render.toList = c.entries.flatMap fun e => lineBody e ++ ['\n'] := by
    rw [render]
    induction c.entries with
    | nil => rfl
    | cons e entries ih =>
        rw [List.map_cons, String.join_cons, String.toList_append, ih, toList_line,
          List.flatMap_cons]
  have hfeed : ∀ e ∈ c.entries, '\n' ∉ lineBody e := by
    intro e he
    obtain ⟨-, hpath, harchive⟩ := h e he
    have hword : '\n' ∉ lineWord := by decide
    rw [lineBody, List.mem_append, List.mem_append, List.mem_cons]
    rintro (hmem | hmem | hmem | hmem)
    · exact hword hmem
    · exact hpath hmem
    · cases hmem
    · exact harchive hmem
  rw [entriesOf, htext, endedLines_flatMap hfeed, List.map_map]
  exact List.map_congr_left fun e he => entryOf?_lineBody (h e he).1

/-! ### The file -/

/-- **The file holds the text** after it has been written, whatever was at its place. -/
theorem flush_ok {s : Session} {place : Place} {path : Path} (hpath : c.path = path)
    (h : s.tree.resolveWrite path = .ok place) :
    ∃ s', (flush c).outcome s = (.ok (), s') ∧ s'.output = s.output ∧
      s'.tree.resolveWrite path = .ok place ∧
      (∃ executable, s'.tree.node? place = some (.file (.text c.render) executable)) ∧
      (∀ p, s'.tree.resolve p = .ok place → s'.tree.readText p = .ok c.render) ∧
      ∀ other, other ≠ place → s'.tree.node? other = s.tree.node? other := by
  subst hpath
  have hwrite : s.tree.write c.path (.text c.render) =
      .ok (s.tree.setContent place (.text c.render)) := by
    rw [FileTree.write, h]
    rfl
  obtain ⟨place', hroot, hplace, -, hagain⟩ := FileTree.write_ok hwrite
  obtain rfl := Except.ok.inj (h.symm.trans hplace)
  have hnode (other : Place) := FileTree.node?_put s.tree hroot other
    ⟨.file (.text c.render) (s.tree.isExecutableAt place), s.tree.clock⟩
  have hfile := (hnode place).trans (if_pos rfl)
  refine ⟨_, outcome_flush hwrite, rfl, hagain, ⟨_, hfile⟩, ?_, ?_⟩
  · intro p hp
    rw [FileTree.readText, FileTree.content, FileTree.find, hp]
    dsimp only
    rw [FileTree.setContent, hfile]
    rfl
  · exact fun other hother => (hnode other).trans (if_neg hother)

/-- **Nothing changes** if there is no place for the file. -/
theorem flush_error {s : Session} {fault : Fault} {path : Path} (hpath : c.path = path)
    (h : s.tree.resolveWrite path = .error fault) :
    (flush c).outcome s = (.error (.refused path fault), s) := by
  subst hpath
  rw [flush, writeText, outcome_changeFiles, FileTree.write, h]
  rfl

/-- **What has been registered** is in the table, in its text, and on disk. -/
theorem registerEach_empty (path : Path) (registrations : List (String × Path)) :
    ∃ c, (empty path).registerEach registrations = c ∧ c.path = path ∧
      c.IsTableOf registrations ∧
      ((∀ e ∈ c.entries, '=' ∉ e.1.toList ∧ '\n' ∉ e.1.toList ∧ '\n' ∉ e.2.text.toList) →
        entriesOf c.render = c.entries.map some) ∧
      (∀ (s : Session) place, s.tree.resolveWrite path = .ok place →
        ∃ s', (flush c).outcome s = (.ok (), s') ∧ s'.output = s.output ∧
          s'.tree.resolveWrite path = .ok place ∧
          (∃ executable, s'.tree.node? place = some (.file (.text c.render) executable)) ∧
          (∀ p, s'.tree.resolve p = .ok place → s'.tree.readText p = .ok c.render) ∧
          ∀ other, other ≠ place → s'.tree.node? other = s.tree.node? other) ∧
      ∀ (s : Session) fault, s.tree.resolveWrite path = .error fault →
        (flush c).outcome s = (.error (.refused path fault), s) := by
  have hpath : ((empty path).registerEach registrations).path = path := path_registerEach
  exact ⟨_, rfl, hpath, isTableOf_registerEach path registrations, entriesOf_render,
    fun s place h => flush_ok hpath h, fun s fault h => flush_error hpath h⟩

/-- A file tree with an import configuration of an earlier run. -/
def staleTree : FileTree where
  entries := [(["importcfg"], ⟨.file (.text "packagefile stale=/nowhere.a\n") false, 0⟩)]

/-- Registrations of which the last one replaces the first one. -/
def replacing : List (String × Path) :=
  [("fmt", ⟨"/old/fmt.a"⟩), ("os", ⟨"/g/os.a"⟩), ("fmt", ⟨"/g/fmt.a"⟩)]

/-- An archive that is registered anew keeps its line, and a text of an earlier run is gone. -/
theorem registerEach_empty_replacing :
    ∃ c s', (empty ⟨"/importcfg"⟩).registerEach replacing = c ∧
      (∀ e ∈ c.entries, '=' ∉ e.1.toList ∧ '\n' ∉ e.1.toList ∧ '\n' ∉ e.2.text.toList) ∧
      staleTree.resolveWrite ⟨"/importcfg"⟩ = .ok ["importcfg"] ∧
      entriesOf c.render = [some ("fmt", ⟨"/g/fmt.a"⟩), some ("os", ⟨"/g/os.a"⟩)] ∧
      (flush c).outcome ⟨staleTree, []⟩ = (.ok (), s') ∧
      ∃ executable, s'.tree.node? ["importcfg"] = some (.file (.text c.render) executable) := by
  obtain ⟨c, rfl, -, -, hread, hwrite, -⟩ := registerEach_empty ⟨"/importcfg"⟩ replacing
  have hentries : ((empty ⟨"/importcfg"⟩).registerEach replacing).entries =
      [("fmt", ⟨"/g/fmt.a"⟩), ("os", ⟨"/g/os.a"⟩)] := by
    decide +kernel
  have hplace : staleTree.resolveWrite ⟨"/importcfg"⟩ = .ok ["importcfg"] := by decide +kernel
  obtain ⟨s', hflush, -, -, hfile, -⟩ := hwrite ⟨staleTree, []⟩ ["importcfg"] hplace
  rw [hentries] at hread
  exact ⟨_, s', rfl, by rw [hentries]; decide, hplace, hread (by decide), hflush, hfile⟩

end ImportConfig

end GoPlanner

import GoPlanner.Build
import GoPlanner.Proofs.FileTree.Write
import GoPlanner.Proofs.Json.Grammar
import GoPlanner.Proofs.Telling
import Mathlib.Data.List.Forall2

/-!
# Recorded Plans Read Back

What a plan is recorded as is a JSON text. By the grammar it stands for the array of the recorded
forms of the commands, in their order, and for nothing else, whatever the arguments contain.

A string is followed through its characters and an array through its entries: all that is known of
an entry is that it spells its value, so one lemma serves the rows and the array around them.

## Main results

* `Json.spells_quoted`: a string between quotation marks stands for itself.
* `Json.spells_lined`: entries on lines of their own stand for an array.
* `Json.isText_indented`: what an array of arrays of strings stands for.
* `record_reads`: the file of a recorded plan.
-/

namespace GoPlanner

open Acting

namespace Json

/-! ### Strings -/

/-- Control characters that have no short escape. -/
theorem unit?_hexDigit : ∀ n < 32,
    unit? ['0', '0', hexDigit (n / 16), hexDigit (n % 16)] = some n := by
  decide

/-- **A character** stands for itself in its escaped form. -/
theorem spellsChar_escaped (c : Char) : SpellsChar (escaped c) c := by
  fun_cases escaped c with
  | case1 | case2 | case3 | case4 | case5 | case6 | case7 =>
      subst_vars
      exact .short rfl
  | case8 _ _ _ _ _ _ _ hcontrol => exact .unit (unit?_hexDigit _ hcontrol)
  | case9 hquote hescape _ _ _ _ _ hprinted =>
      exact .plain (Nat.not_lt.1 hprinted) hquote hescape

theorem spellsChars_escaped (cs : List Char) : SpellsChars (cs.flatMap escaped) cs := by
  induction cs with
  | nil => exact .nil
  | cons c cs ih => exact .cons (spellsChar_escaped c) ih

/-- **A string** between quotation marks stands for itself. -/
theorem spells_quoted (s : String) : Spells (quoted s).toList (.string s) := by
  simpa [quoted] using Spells.string (spellsChars_escaped s.toList)

/-! ### Arrays -/

variable {indent outer : String} {entries : List String} {vs : List Value}

theorem isGap_nil : IsGap [] := by decide

theorem isGap_lineFeed : IsGap ['\n'] := by decide

/-- **Entries** behind blanks, with commas and line feeds between them. -/
theorem spellsItems_intercalate (hindent : IsGap indent.toList) {before after : List Char}
    (hbefore : IsGap before) (hafter : IsGap after) {e : String} {v : Value}
    (he : Spells e.toList v) (h : List.Forall₂ (fun e v => Spells e.toList v) entries vs) :
    SpellsItems (before ++ ((",\n".intercalate ((e :: entries).map (indent ++ ·))).toList ++ after))
      (v :: vs) := by
  have hgap {before : List Char} (hbefore : IsGap before) : IsGap (before ++ indent.toList) :=
    fun c hc => (List.mem_append.1 hc).elim (hbefore c) (hindent c)
  induction h generalizing before e v with
  | nil =>
      have hitem := SpellsItem.mk (hgap hbefore) he hafter
      simpa using SpellsItems.one hitem
  | cons he' _ ih =>
      have hitem := SpellsItem.mk (hgap hbefore) he isGap_nil
      have hrest := ih isGap_lineFeed he'
      simpa [String.intercalate_cons_cons] using SpellsItems.more hitem hrest

/-- **Entries on lines of their own** stand for an array. -/
theorem spells_lined (hindent : IsGap indent.toList) (houter : IsGap outer.toList)
    (h : List.Forall₂ (fun e v => Spells e.toList v) entries vs) :
    Spells (lined indent outer entries).toList (.array vs) := by
  cases h with
  | nil =>
      have hempty : (lined indent outer []).toList = '[' :: ([] ++ [']']) := by simp [lined]
      exact hempty ▸ .emptyArray isGap_nil
  | cons he h =>
      have hafter : IsGap ('\n' :: outer.toList) := by simpa [IsGap, isSpace] using houter
      have hitems := spellsItems_intercalate hindent isGap_lineFeed hafter he h
      simpa [lined] using Spells.array hitems

/-- **An array of arrays of strings** stands for what it was made from, and for nothing else. -/
theorem isText_indented (rows : List (List String)) (v : Value) :
    IsText (indented rows) v ↔ v = .array (rows.map fun row => .array (row.map .string)) := by
  have hrow (row : List String) :
      Spells (lined "        " "    " (row.map quoted)).toList (.array (row.map .string)) := by
    refine spells_lined (by decide) (by decide) ?_
    rw [List.forall₂_map_left_iff, List.forall₂_map_right_iff, List.forall₂_same]
    exact fun s _ => spells_quoted s
  have hrows : Spells (indented rows).toList
      (.array (rows.map fun row => .array (row.map .string))) := by
    refine spells_lined (by decide) (by decide) ?_
    rw [List.forall₂_map_left_iff, List.forall₂_map_right_iff, List.forall₂_same]
    exact fun row _ => hrow row
  have htext : IsText (indented rows) (.array (rows.map fun row => .array (row.map .string))) := by
    have h := SpellsItem.mk isGap_nil hrows isGap_nil
    rwa [List.nil_append, List.append_nil] at h
  exact ⟨fun h => h.unique htext, fun h => h ▸ htext⟩

end Json

/-! ### The file of a plan -/

variable {s : Session} {path : Path} {commands : List Invocation}

/-- **A plan is recorded** where its file may stand. -/
theorem record_ok {place : Place} (h : s.tree.resolveWrite path = .ok place) :
    ∃ s', (record commands path).outcome s = (.ok (), s') ∧
      ∃ executable, s'.tree.node? place =
        some (.file (.text (Json.indented (commands.map Invocation.argv))) executable) := by
  let text := Json.indented (commands.map Invocation.argv)
  have hwrite : s.tree.write path (.text text) = .ok (s.tree.setContent place (.text text)) := by
    rw [FileTree.write, h]
    rfl
  obtain ⟨place', hroot, hplace, -, -⟩ := FileTree.write_ok hwrite
  obtain rfl := Except.ok.inj (h.symm.trans hplace)
  refine ⟨{ s with tree := s.tree.setContent place (.text text) }, ?_, ?_⟩
  · rw [record, writeText, outcome_changeFiles, hwrite]
  · exact ⟨_, (FileTree.node?_put s.tree hroot place _).trans (if_pos rfl)⟩

/-- **A recorded plan is read** as the commands that were recorded: the text in its file stands for
the array of the arrays of their arguments, each with the name of its tool before it, and for
nothing else. Without a place for the file there is no change. -/
theorem record_reads (commands : List Invocation) (path : Path) :
    ∃ text, (∀ v, Json.IsText text v ↔
        v = .array (commands.map fun i => .array ((i.tool.name :: i.args).map .string))) ∧
      (∀ (s : Session) place, s.tree.resolveWrite path = .ok place →
        ∃ s', (record commands path).outcome s = (.ok (), s') ∧
          ∃ executable, s'.tree.node? place = some (.file (.text text) executable)) ∧
      ∀ (s : Session) fault, s.tree.resolveWrite path = .error fault →
        (record commands path).outcome s = (.error (.refused path fault), s) := by
  refine ⟨_, fun v => ?_, fun s place h => record_ok h, fun s fault h => ?_⟩
  · rw [Json.isText_indented, List.map_map]
    rfl
  · rw [record, writeText, outcome_changeFiles, FileTree.write, h]
    rfl

/-- A file tree without a file for the plan. -/
def recordingTree : FileTree where
  entries := [(["out"], ⟨.directory, 0⟩)]

/-- Commands with arguments that need all kinds of escapes, and with none. -/
def escapedCommands : List Invocation :=
  [⟨.compile, ["-o", "a \x22b\x22\\c", "line\nline\r\t", "\x00\x1f", "", "é😀"]⟩, ⟨.link, []⟩]

/-- Arguments are read back with all their signs. -/
theorem record_reads_escaped :
    recordingTree.resolveWrite ⟨"/out/commands.json"⟩ = .ok ["out", "commands.json"] ∧
      recordingTree.resolveWrite ⟨"/none/commands.json"⟩ = .error .noEntry ∧
      (∃ text s', (record escapedCommands ⟨"/out/commands.json"⟩).outcome ⟨recordingTree, []⟩ =
          (.ok (), s') ∧
        (∃ executable, s'.tree.node? ["out", "commands.json"] =
          some (.file (.text text) executable)) ∧
        ∀ v, Json.IsText text v ↔ v = .array [
          .array [.string "compile", .string "-o", .string "a \x22b\x22\\c",
            .string "line\nline\r\t", .string "\x00\x1f", .string "", .string "é😀"],
          .array [.string "link"]]) ∧
      (record escapedCommands ⟨"/none/commands.json"⟩).outcome ⟨recordingTree, []⟩ =
        (.error (.refused ⟨"/none/commands.json"⟩ .noEntry), ⟨recordingTree, []⟩) := by
  have hplace : recordingTree.resolveWrite ⟨"/out/commands.json"⟩ =
      .ok ["out", "commands.json"] := by
    decide +kernel
  have hnone : recordingTree.resolveWrite ⟨"/none/commands.json"⟩ = .error .noEntry := by
    decide +kernel
  obtain ⟨text, hread, hwrite, -⟩ := record_reads escapedCommands ⟨"/out/commands.json"⟩
  obtain ⟨s', hok, hfile⟩ := hwrite ⟨recordingTree, []⟩ _ hplace
  obtain ⟨-, -, -, hrefused⟩ := record_reads escapedCommands ⟨"/none/commands.json"⟩
  exact ⟨hplace, hnone, ⟨text, s', hok, hfile, hread⟩, hrefused ⟨recordingTree, []⟩ _ hnone⟩

end GoPlanner

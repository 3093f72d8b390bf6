import GoPlanner.Proofs.ModuleFile.Lines

/-!
# The Lines That Count

Of a module file only the directives `module` and `replace` count, in either form. So every other
line can be deleted, and an entry of a block of replacements can stand on a line of its own, behind
the name of the directive. What is left is read as the same module file, and has no other line.

## Main definitions

* `ModuleFile.kept`, `ModuleFile.blockAfter`: what is left of one line, and which block is open
  behind it.
* `ModuleFile.essential`, `ModuleFile.essentialText`: what is left of all lines.

## Main results

* `ModuleFile.Read.line_kept`, `ModuleFile.Read.lines_essential`: what is left of a line, and of all
  lines, is read alike.
* `ModuleFile.parse_essentialText`: so is the whole file.
-/

namespace GoPlanner

namespace ModuleFile

variable {l : List Char} {ls : List (List Char)} {verb : String} {args entry : List String}
  {read read' : Read} {number : Nat} {m : ModuleFile}

/-! ### What is left of a module file -/

/-- **What is left of a line,** given the directive of the open block: a directive for the path of
the module or for a replacement, and an entry of a block of replacements behind the name of the
directive. Brackets of blocks are not left. -/
def kept (block : Option String) (l : List Char) : List (List Char) :=
  match block, wordsOf l with
  | _, [] => []
  | some verb, entry =>
    if entry ≠ [")"] ∧ verb = "replace" then ["replace ".toList ++ l] else []
  | none, verb :: args =>
    if args ≠ ["("] ∧ (verb = "module" ∨ verb = "replace") then [l] else []

/-- The directive of the block that is open behind a line. -/
def blockAfter (block : Option String) (l : List Char) : Option String :=
  match block, wordsOf l with
  | block, [] => block
  | some verb, entry => if entry = [")"] then none else some verb
  | none, verb :: args => if args = ["("] then some verb else none

/-- **What is left of all lines,** given the directive of the open block. -/
def essential (block : Option String) : List (List Char) → List (List Char)
  | [] => []
  | l :: later => kept block l ++ essential (blockAfter block l) later

/-- **What is left of a text.** -/
def essentialText (text : String) : String :=
  String.ofList ((essential none (Text.lines text.toList)).flatMap (· ++ ['\n']))

/-! ### One line -/

/-- What has been read, without the open block. -/
def Read.closed (read : Read) : Read :=
  { read with block := none }

/-- How many directives have been read. -/
def Read.size (read : Read) : Nat :=
  read.modulePath.toList.length + read.replacements.length

/-- No entry of a replacement is a bracket. -/
theorem replacementOf_ne {r : Replacement} (h : replacementOf entry = .ok r) : entry ≠ ["("] := by
  rintro rfl
  cases h

/-- **An entry of a block of replacements** is a directive of its own. -/
theorem Read.directive_of_addReplacement (h : read.addReplacement entry = .ok read') (k : Nat) :
    read.closed.directive k "replace" entry = .ok read'.closed := by
  obtain ⟨r, hr, rfl⟩ := addReplacement_ok_iff.1 h
  rw [directive.eq_def, if_neg (replacementOf_ne hr), if_neg (by decide), if_pos rfl]
  exact addReplacement_ok_iff.2 ⟨r, hr, rfl⟩

/-- Behind the name of a directive, a line has the words of that directive. -/
theorem tokens_replace (hsome : (tokens l).isSome = true) :
    tokens ("replace ".toList ++ l) = some (("replace" :: wordsOf l).map String.toList) := by
  have hbare : IsBare "replace" := by
    simp [IsBare]
    decide
  have hspell := spells_bare hbare (' ' :: l) (endsWord_cons (by decide))
  rw [tokens_blank (by decide), tokens_eq_wordsOf hsome] at hspell
  exact hspell

/-- **Lines keep what is read** from one state to another: they are read alike outside blocks, and
there is one for each directive. -/
structure Read.Keeps (read : Read) (left : List (List Char)) (read' : Read) : Prop where
  /-- They are read alike. -/
  lines : ∀ k, read.closed.lines k left = .ok read'.closed
  /-- There is one for each directive. -/
  size : left.length + read.size = read'.size

theorem Read.Keeps.nil (hclosed : read'.closed = read.closed) (hsize : read'.size = read.size) :
    read.Keeps [] read' where
  lines _ := by rw [hclosed, Read.lines]
  size := by rw [hsize, List.length_nil, Nat.zero_add]

theorem Read.Keeps.singleton (hline : ∀ k, read.closed.line k l = .ok read'.closed)
    (hsize : read'.size = read.size + 1) : read.Keeps [l] read' where
  lines k := by rw [lines_singleton, hline]
  size := by rw [hsize, List.length_singleton, Nat.add_comm]

theorem Read.Keeps.append {left later : List (List Char)} {read₁ : Read}
    (h : read.Keeps left read₁) (hlater : read₁.Keeps later read') :
    read.Keeps (left ++ later) read' where
  lines k := by rw [lines_append (h.lines k), hlater.lines]
  size := by
    rw [List.length_append]
    have := h.size
    have := hlater.size
    omega

/-- One more replacement is one more directive. -/
theorem Read.size_of_addReplacement (h : read.addReplacement entry = .ok read') :
    read'.size = read.size + 1 := by
  obtain ⟨r, -, rfl⟩ := addReplacement_ok_iff.1 h
  simp [size, Nat.add_assoc]

theorem Read.block_of_addReplacement (h : read.addReplacement entry = .ok read') :
    read'.block = read.block := by
  obtain ⟨r, -, rfl⟩ := addReplacement_ok_iff.1 h
  rfl

/-- What is left of a directive. -/
theorem Read.directive_kept (hblock : read.block = none) (hwords : wordsOf l = verb :: args)
    (hsome : (tokens l).isSome = true) (h : read.directive number verb args = .ok read') :
    blockAfter none l = read'.block.map Prod.fst ∧ read.Keeps (kept none l) read' := by
  have htokens : tokens l = some ((verb :: args).map String.toList) :=
    hwords ▸ tokens_eq_wordsOf hsome
  rw [blockAfter.eq_def, kept.eq_def, hwords]
  rcases directive_ok h with ⟨rfl, rfl⟩ | ⟨hargs, rfl, hnone, path, rfl, hne, rfl⟩ |
    ⟨hargs, rfl, hadd⟩ | ⟨hargs, hmodule, hreplace, rfl⟩
  · exact ⟨rfl, .nil rfl rfl⟩
  · simp only [hargs, hblock, if_false, Option.map_none, ne_eq, not_false_eq_true, true_or,
      and_self, if_true, true_and]
    refine .singleton (fun k => line_directive rfl htokens ?_) (by simp [size, hnone, Nat.add_comm])
    simp [directive, hargs, closed, hnone, hne]
  · simp only [hargs, block_of_addReplacement hadd, hblock, if_false, Option.map_none, ne_eq,
      not_false_eq_true, or_true, and_self, if_true, true_and]
    exact .singleton (fun k => line_directive rfl htokens (directive_of_addReplacement hadd k))
      (size_of_addReplacement hadd)
  · simp only [hargs, hmodule, hreplace, hblock, if_false, Option.map_none, or_self, and_false,
      true_and]
    exact .nil rfl rfl

/-- What is left of an entry of a block. -/
theorem Read.entry_kept {block : String × Nat} (hblock : read.block = some block)
    (hwords : wordsOf l = verb :: args) (hsome : (tokens l).isSome = true)
    (h : read.entry block.1 (verb :: args) = .ok read') :
    blockAfter (some block.1) l = read'.block.map Prod.fst ∧
      read.Keeps (kept (some block.1) l) read' := by
  rw [blockAfter.eq_def, kept.eq_def, hwords]
  rcases entry_ok h with ⟨hclose, rfl⟩ | ⟨hentry, hreplace, hadd⟩ | ⟨hentry, hverb, rfl⟩
  · simp only [hclose, if_true, ne_eq, not_true_eq_false, false_and, if_false, Option.map_none,
      true_and]
    exact .nil rfl rfl
  · simp only [hentry, hreplace, block_of_addReplacement hadd, hblock, if_false, Option.map_some,
      ne_eq, not_false_eq_true, and_self, if_true, true_and]
    refine .singleton (fun k => line_directive rfl (tokens_replace hsome) ?_)
      (size_of_addReplacement hadd)
    rw [hwords]
    exact directive_of_addReplacement hadd k
  · simp only [hentry, hverb, hblock, if_false, Option.map_some, and_false, true_and]
    exact .nil rfl rfl

/-- **What is left of a line** keeps what is read. -/
theorem Read.line_kept (h : read.line number l = .ok read') :
    blockAfter (read.block.map Prod.fst) l = read'.block.map Prod.fst ∧
      read.Keeps (kept (read.block.map Prod.fst) l) read' := by
  obtain ⟨hsome, hread⟩ := line_ok_iff.1 h
  cases hwords : wordsOf l with
  | nil =>
      rw [hwords] at hread
      obtain rfl : read = read' := hread
      rw [blockAfter.eq_def, kept.eq_def, hwords]
      exact ⟨rfl, .nil rfl rfl⟩
  | cons verb args =>
      rw [hwords] at hread
      cases hblock : read.block with
      | none =>
          rw [hblock] at hread
          exact directive_kept hblock hwords hsome hread
      | some block =>
          rw [hblock] at hread
          exact entry_kept hblock hwords hsome hread

/-- **What is left of all lines** keeps what is read. -/
theorem Read.lines_essential (h : read.lines number ls = .ok read') :
    read.Keeps (essential (read.block.map Prod.fst) ls) read' := by
  induction ls generalizing read number with
  | nil =>
      obtain rfl := Except.ok.inj h
      exact .nil rfl rfl
  | cons l ls ih =>
      rw [lines] at h
      split at h
      · cases h
      · rename_i read₁ hline
        obtain ⟨hblock, hkept⟩ := line_kept hline
        rw [essential, hblock]
        exact hkept.append (ih h)

/-! ### The whole file -/

theorem notMem_essential {block : Option String} (h : ∀ l ∈ ls, '\n' ∉ l) :
    ∀ l ∈ essential block ls, '\n' ∉ l := by
  induction ls generalizing block with
  | nil => simp [essential]
  | cons l ls ih =>
      obtain ⟨hl, hls⟩ := List.forall_mem_cons.1 h
      intro l' hl'
      rw [essential, List.mem_append] at hl'
      rcases hl' with hl' | hl'
      · rw [kept.eq_def] at hl'
        have hreplace : '\n' ∉ "replace ".toList ++ l := by
          simp [hl]
        split at hl'
        · cases hl'
        · split at hl'
          · exact List.mem_singleton.1 hl' ▸ hreplace
          · cases hl'
        · split at hl'
          · exact List.mem_singleton.1 hl' ▸ hl
          · cases hl'
      · exact ih hls l' hl'

/-- **Only the directives `module` and `replace` count,** in either form. What is left of a module
file without all other lines is read as the same module file, and it has one line for the path of
the module and one for each replacement. -/
theorem parse_essentialText {text : String} (h : parse text = .ok m) :
    parse (essentialText text) = .ok m ∧
      (Text.lines (essentialText text).toList).length = m.replacements.length + 1 := by
  have hlines : Text.lines (essentialText text).toList =
      (essential none (Text.lines text.toList)).map Text.dropReturn := by
    rw [essentialText, String.toList_ofList]
    exact Text.lines_flatMap (notMem_essential fun l hl => Text.notMem_of_mem_lines hl)
  have hkeeps := Read.lines_essential (parse_ok_iff.1 h)
  refine ⟨?_, ?_⟩
  · rw [parse_ok_iff, hlines, Read.lines_map_dropReturn]
    exact hkeeps.lines 1
  · rw [hlines, List.length_map, Nat.add_comm]
    exact hkeeps.size

/-- A module file with comments, and with a block of another directive whose entries look like
directives. -/
def annotatedText : String :=
  "// c\nmodule a // c\ngo 1.22\nrequire (\n\tmodule b\n\treplace b => ./b\n)\n" ++
    "replace c => ./c\nreplace (\n\n\td v1 => e v2 // c\n\t\x22f\x22 => ../f\n) // c\n"

/-- **Entries of other blocks** do not count, though they look like directives. -/
theorem parse_essentialText_annotatedText :
    ∃ m, parse annotatedText = .ok m ∧ m.replacements.length = 3 ∧
      essentialText annotatedText = "module a // c\nreplace c => ./c\n" ++
        "replace \td v1 => e v2 // c\nreplace \t\x22f\x22 => ../f\n" ∧
      parse (essentialText annotatedText) = .ok m ∧
      (Text.lines (essentialText annotatedText).toList).length = 4 := by
  have hread : parse annotatedText = .ok ⟨"a", [⟨"c", none, .directory ⟨"./c"⟩⟩,
      ⟨"d", some "v1", .module "e" "v2"⟩, ⟨"f", none, .directory ⟨"../f"⟩⟩]⟩ := by
    decide +kernel
  obtain ⟨hleft, hlength⟩ := parse_essentialText hread
  exact ⟨_, hread, rfl, by decide +kernel, hleft, hlength⟩

end ModuleFile

end GoPlanner

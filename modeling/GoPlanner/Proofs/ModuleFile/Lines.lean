import GoPlanner.Proofs.ModuleFile.Rendered

/-!
# Lines of Module Files

What a line says is in its tokens, so lines with the same tokens are read alike. Blanks at the end
of a line make no tokens. So it makes no difference whether a carriage return stands there, and
whether the last line of the file is ended.

## Main definitions

* `ModuleFile.wordsOf`: the words of a line.
* `ModuleFile.rows`: what stands between the line feeds of a text.

## Main results

* `ModuleFile.tokens_comment`, `ModuleFile.tokens_slashWord`: what a line starts with.
* `ModuleFile.tokens_append_blank`: blanks at the end of a line.
* `ModuleFile.Read.line_ok_iff`, `ModuleFile.Read.entry_ok`, `ModuleFile.Read.directive_ok`: what
  one line does.
* `ModuleFile.Read.lines_congr`: lines with the same tokens.
* `ModuleFile.parse_ok_iff`, `ModuleFile.parse_eq_rows`: a module file by its lines, and by what
  stands between its line feeds.
-/

namespace GoPlanner

namespace ModuleFile

variable {quote last c : Char} {cs rest more value word : List Char} {read read' : Read}
  {number : Nat} {ls ls' : List (List Char)}

/-! ### What a line starts with -/

/-- **A comment.** -/
theorem tokens_comment (cs : List Char) : tokens ('/' :: '/' :: cs) = some [] := by
  have hblank : isBlank '/' = false := by decide
  rw [tokens.eq_def]
  simp [hblank]

/-- What stands before the first blank. -/
theorem takeWhile_word (hword : ∀ c ∈ word, isBlank c = false) (hrest : EndsWord rest) :
    (word ++ rest).takeWhile (fun c => !isBlank c) = word ∧
      (word ++ rest).dropWhile (fun c => !isBlank c) = rest := by
  have hpos : ∀ c ∈ word, (!isBlank c) = true := fun c hc => by rw [hword c hc]; rfl
  rw [List.takeWhile_append_of_pos hpos, List.dropWhile_append_of_pos hpos]
  cases rest with
  | nil => simp
  | cons c rest =>
      have hc : isBlank c = true := hrest c rfl
      simp [hc]

/-- A line is cut in two at its first blank. -/
theorem exists_word (cs : List Char) :
    ∃ word rest, cs = word ++ rest ∧ (∀ c ∈ word, isBlank c = false) ∧ EndsWord rest := by
  refine ⟨_, _, (List.takeWhile_append_dropWhile (p := fun c => !isBlank c)).symm,
    fun c hc => ?_, fun c hc => ?_⟩
  · simpa using List.mem_takeWhile_imp hc
  · have hhead := List.head?_dropWhile_not (fun c => !isBlank c) cs
    rw [Option.mem_def.1 hc] at hhead
    simpa using hhead

theorem head?_word_ne (h : (word ++ rest).head? ≠ some c) : word.head? ≠ some c := by
  cases word with
  | nil => simp
  | cons d word => simpa using h

/-- **A word that starts with a slash** goes on to the next blank. -/
theorem tokens_slashWord (hslash : word.head? ≠ some '/')
    (hword : ∀ c ∈ word, isBlank c = false) (hrest : EndsWord rest) :
    tokens ('/' :: (word ++ rest)) = (tokens rest).map (('/' :: word) :: ·) := by
  have hblank : isBlank '/' = false := by decide
  have hcomment : (word ++ rest).head? ≠ some '/' := by
    rw [List.head?_append, Ne, Option.or_eq_some_iff, not_or]
    refine ⟨hslash, fun h => ?_⟩
    exact absurd (hrest '/' h.2) (by simp [hblank])
  obtain ⟨htake, hdrop⟩ := takeWhile_word hword hrest
  rw [tokens.eq_def]
  simp only [hblank, Bool.false_eq_true, if_false, if_true, if_neg hcomment, htake, hdrop]

/-- A quoted string that is not closed. -/
theorem tokens_open (hquote : isQuote quote = true) (h : readQuoted quote cs = none) :
    tokens (quote :: cs) = none := by
  have hc := of_isQuote hquote
  rw [tokens.eq_def]
  simp only [hc.1, hc.2, hquote, Bool.false_eq_true, if_false, if_true]
  split
  · rfl
  · rename_i r hr
    cases h.symm.trans hr

/-- A word that a comment follows at once. -/
theorem tokens_word_comment (hc : isBlank c = false ∧ isQuote c = false ∧ c ≠ '/')
    (h : readWord c cs = (word, none)) : tokens (c :: cs) = some [word] := by
  rw [tokens.eq_def]
  simp only [hc.1, hc.2.1, hc.2.2, Bool.false_eq_true, if_false]
  split
  · rename_i hend
    rw [(Prod.mk.inj (h.symm.trans hend)).1]
  · rename_i hend
    cases h.symm.trans hend

/-! ### Longer lines -/

/-- A character in quotes that stands for itself. -/
theorem readQuoted_cons (hc : c ≠ quote) (hescape : ¬(c = '\\' && quote = '\x22') = true)
    (cs : List Char) :
    readQuoted quote (c :: cs) = (readQuoted quote cs).map (fun r => (c :: r.1, r.2)) := by
  rw [readQuoted.eq_def]
  simp only [if_neg hc, if_neg hescape]

/-- A quoted string is closed in a longer line as well. -/
theorem readQuoted_append (h : readQuoted quote cs = some (value, rest)) (more : List Char) :
    readQuoted quote (cs ++ more) = some (value, rest ++ more) := by
  fun_induction readQuoted quote cs generalizing value with
  | case1 => cases h
  | case2 cs =>
      obtain ⟨rfl, rfl⟩ := Prod.mk.inj (Option.some.inj h)
      rw [List.cons_append, readQuoted.eq_def]
      simp
  | case3 => cases h
  | case4 c hc hescape escaped cs' ih =>
      obtain ⟨q, hq, heq⟩ := Option.map_eq_some_iff.1 h
      obtain ⟨rfl, rfl⟩ := Prod.mk.inj heq
      rw [List.cons_append, List.cons_append, readQuoted, if_neg hc, if_pos hescape, ih hq]
      rfl
  | case5 c cs hc hescape ih =>
      obtain ⟨q, hq, heq⟩ := Option.map_eq_some_iff.1 h
      obtain ⟨rfl, rfl⟩ := Prod.mk.inj heq
      rw [List.cons_append, readQuoted_cons hc hescape, ih hq]
      rfl

/-- A word that ends before the line does. -/
theorem readWord_append (h : readWord last cs = (word, some rest)) (hne : rest ≠ [])
    (more : List Char) : readWord last (cs ++ more) = (word, some (rest ++ more)) := by
  fun_induction readWord last cs generalizing word with
  | case1 =>
      obtain ⟨-, hrest⟩ := Prod.mk.inj h
      exact absurd (Option.some.inj hrest).symm hne
  | case2 last c cs hend =>
      obtain ⟨rfl, hrest⟩ := Prod.mk.inj h
      obtain rfl := Option.some.inj hrest
      rw [List.cons_append, readWord, if_pos hend]
  | case3 => cases h
  | case4 last c cs hend hslash r =>
      rename_i ih
      obtain ⟨rfl, hrest⟩ := Prod.mk.inj h
      rw [List.cons_append, readWord, if_neg hend, if_neg hslash, ih (Prod.ext rfl hrest)]

/-- A word that a comment follows does not reach the end of the line. -/
theorem readWord_append_comment (h : readWord last cs = (word, none)) (more : List Char) :
    readWord last (cs ++ more) = (word, none) := by
  fun_induction readWord last cs generalizing word with
  | case1 => cases h
  | case2 => cases h
  | case3 last c cs hend hslash =>
      obtain ⟨rfl, -⟩ := Prod.mk.inj h
      rw [List.cons_append, readWord, if_neg hend, if_pos hslash]
  | case4 last c cs hend hslash r =>
      rename_i ih
      obtain ⟨rfl, hnone⟩ := Prod.mk.inj h
      rw [List.cons_append, readWord, if_neg hend, if_neg hslash, ih (Prod.ext rfl hnone)]

/-! ### Blanks at the end -/

/-- A blank does not close a quoted string. -/
theorem readQuoted_append_blank (hquote : isQuote quote = true) (hc : isBlank c = true)
    (h : readQuoted quote cs = none) : readQuoted quote (cs ++ [c]) = none := by
  have hne : c ≠ quote := by
    rintro rfl
    exact absurd hc (by simp [(of_isQuote hquote).1])
  fun_induction readQuoted quote cs with
  | case1 =>
      rw [List.nil_append, readQuoted, if_neg hne]
      split <;> rfl
  | case2 => cases h
  | case3 d hd hescape =>
      rw [List.cons_append, List.nil_append, readQuoted, if_neg hd, if_pos hescape]
      rfl
  | case4 d hd hescape escaped cs' ih =>
      rw [List.cons_append, List.cons_append, readQuoted, if_neg hd, if_pos hescape,
        ih (Option.map_eq_none_iff.1 h)]
      rfl
  | case5 d cs hd hescape ih =>
      rw [List.cons_append, readQuoted_cons hd hescape, ih (Option.map_eq_none_iff.1 h)]
      rfl

/-- A blank ends a word. -/
theorem readWord_append_blank (hc : isBlank c = true) (h : readWord last cs = (word, some [])) :
    readWord last (cs ++ [c]) = (word, some [c]) := by
  fun_induction readWord last cs generalizing word with
  | case1 last =>
      obtain ⟨rfl, -⟩ := Prod.mk.inj h
      rw [List.nil_append, readWord]
      simp [hc]
  | case2 => cases h
  | case3 => cases h
  | case4 last d cs hend hslash r =>
      rename_i ih
      obtain ⟨rfl, hrest⟩ := Prod.mk.inj h
      rw [List.cons_append, readWord, if_neg hend, if_neg hslash, ih (Prod.ext rfl hrest)]

/-- **Blanks at the end of a line** make no tokens. -/
theorem tokens_append_blank (hc : isBlank c = true) (cs : List Char) :
    tokens (cs ++ [c]) = tokens cs := by
  have hend : tokens [c] = some [] := by rw [tokens_blank hc, tokens]
  fun_induction tokens cs with
  | case1 => exact hend
  | case2 d rest hd ih => rw [List.cons_append, tokens_blank hd, ih]
  | case3 rest hslash =>
      obtain ⟨rest, rfl⟩ := List.head?_eq_some_iff.1 hslash
      exact tokens_comment _
  | case4 rest hslash _ ih =>
      obtain ⟨word, rest, rfl, hword, hrest⟩ := exists_word rest
      rw [(takeWhile_word hword hrest).1, (takeWhile_word hword hrest).2] at *
      have hrest' : EndsWord (rest ++ [c]) := by
        cases rest with
        | nil => exact endsWord_cons hc
        | cons d rest => exact endsWord_cons (hrest d rfl)
      have hslash' : word.head? ≠ some '/' := head?_word_ne hslash
      rw [List.cons_append, List.append_assoc, tokens_slashWord hslash' hword hrest', ih]
  | case5 d rest _ _ hquote hopen =>
      exact tokens_open hquote (readQuoted_append_blank hquote hc hopen)
  | case6 d rest _ _ hquote r hread ih =>
      rw [List.cons_append, tokens_quote hquote (readQuoted_append hread [c]), ih]
  | case7 d rest hblank hslash hquote word hread =>
      have hd : isBlank d = false ∧ isQuote d = false ∧ d ≠ '/' :=
        ⟨by simpa using hblank, by simpa using hquote, hslash⟩
      exact tokens_word_comment hd (readWord_append_comment hread [c])
  | case8 d rest hblank hslash hquote word rest' hread ih =>
      have hd : isBlank d = false ∧ isQuote d = false ∧ d ≠ '/' :=
        ⟨by simpa using hblank, by simpa using hquote, hslash⟩
      by_cases hne : rest' = []
      · subst hne
        rw [List.cons_append, tokens_word hd (readWord_append_blank hc hread), hend, tokens]
      · rw [List.cons_append, tokens_word hd (readWord_append hread hne [c]), ih]

/-- **The carriage return of a line** is a blank at its end. -/
theorem tokens_dropReturn (l : List Char) : tokens (Text.dropReturn l) = tokens l := by
  rw [Text.dropReturn]
  split
  · rename_i hlast
    obtain ⟨before, rfl⟩ := List.getLast?_eq_some_iff.1 hlast
    rw [List.dropLast_concat, tokens_append_blank (by decide)]
  · rfl

/-! ### The words of a line -/

/-- **The words of a line.** There are none on a blank line, and none in a comment. -/
def wordsOf (l : List Char) : List String :=
  ((tokens l).getD []).map String.ofList

theorem tokens_eq_wordsOf (h : (tokens cs).isSome = true) :
    tokens cs = some ((wordsOf cs).map String.toList) := by
  obtain ⟨ts, hts⟩ := Option.isSome_iff_exists.1 h
  simp [wordsOf, hts, Function.comp_def]

theorem wordsOf_of_tokens {words : List String} (h : tokens cs = some (words.map String.toList)) :
    wordsOf cs = words := by
  simp [wordsOf, h, Function.comp_def]

/-- **What one line does:** its words are an entry of the open block, or a directive. -/
theorem Read.line_ok_iff : read.line number cs = .ok read' ↔ (tokens cs).isSome = true ∧
    match wordsOf cs, read.block with
    | [], _ => read = read'
    | verb :: args, some block => read.entry block.1 (verb :: args) = .ok read'
    | verb :: args, none => read.directive number verb args = .ok read' := by
  rw [line.eq_def, wordsOf]
  cases tokens cs with
  | none => simp
  | some ts =>
      simp only [Option.getD_some, Option.isSome_some, true_and]
      cases ts.map String.ofList with
      | nil => simp
      | cons verb args =>
          cases read.block with
          | none =>
              dsimp only
              cases read.directive number verb args <;> simp
          | some block =>
              dsimp only
              cases read.entry block.1 (verb :: args) <;> simp

/-- A line outside blocks is a directive. -/
theorem Read.line_directive {verb : String} {args : List String} (hblock : read.block = none)
    (htokens : tokens cs = some ((verb :: args).map String.toList))
    (hdirective : read.directive number verb args = .ok read') :
    read.line number cs = .ok read' := by
  rw [line_ok_iff, wordsOf_of_tokens htokens, hblock, htokens]
  exact ⟨rfl, hdirective⟩

/-- **A replacement** is added to those before. -/
theorem Read.addReplacement_ok_iff {entry : List String} : read.addReplacement entry = .ok read' ↔
    ∃ r, replacementOf entry = .ok r ∧
      read' = { read with replacements := read.replacements ++ [r] } := by
  rw [addReplacement]
  cases replacementOf entry with
  | error fault => simp [Except.map]
  | ok r => simp [Except.map, eq_comm]

/-- **An entry of a block** closes the block, or adds a replacement, or says nothing. -/
theorem Read.entry_ok {verb : String} {entry : List String}
    (h : read.entry verb entry = .ok read') :
    (entry = [")"] ∧ read' = { read with block := none }) ∨
      (entry ≠ [")"] ∧ verb = "replace" ∧ read.addReplacement entry = .ok read') ∨
      (entry ≠ [")"] ∧ verb ≠ "replace" ∧ read' = read) := by
  rw [Read.entry.eq_def] at h
  split at h
  · exact .inl ⟨‹_›, (Except.ok.inj h).symm⟩
  split at h
  · exact .inr (.inl ⟨‹_›, ‹_›, h⟩)
  split at h
  · cases h
  · exact .inr (.inr ⟨‹_›, ‹_›, (Except.ok.inj h).symm⟩)

/-- **A directive** opens a block, or gives the path of the module for the first time, or adds a
replacement, or says nothing. -/
theorem Read.directive_ok {verb : String} {args : List String}
    (h : read.directive number verb args = .ok read') :
    (args = ["("] ∧ read' = { read with block := some (verb, number) }) ∨
      (args ≠ ["("] ∧ verb = "module" ∧ read.modulePath = none ∧
        ∃ path, args = [path] ∧ path ≠ "" ∧ read' = { read with modulePath := some path }) ∨
      (args ≠ ["("] ∧ verb = "replace" ∧ read.addReplacement args = .ok read') ∨
      (args ≠ ["("] ∧ verb ≠ "module" ∧ verb ≠ "replace" ∧ read' = read) := by
  rw [directive.eq_def] at h
  split at h
  · exact .inl ⟨‹_›, (Except.ok.inj h).symm⟩
  rename_i hargs
  split at h
  · rename_i hverb
    split at h
    · cases h
    rename_i hnone
    split at h
    · rename_i path
      split at h
      · cases h
      · rename_i hne
        exact .inr (.inl ⟨hargs, hverb, by simpa using hnone, path, rfl, hne,
          (Except.ok.inj h).symm⟩)
    · cases h
  split at h
  · exact .inr (.inr (.inl ⟨hargs, ‹_›, h⟩))
  · exact .inr (.inr (.inr ⟨hargs, ‹_›, ‹_›, (Except.ok.inj h).symm⟩))

/-! ### Lines with the same tokens -/

/-- What a line says is in its tokens. -/
theorem Read.line_congr (h : tokens cs = tokens rest) (read : Read) (number : Nat) :
    read.line number cs = read.line number rest := by
  rw [line.eq_def, line.eq_def, h]

/-- **Lines with the same tokens** are read alike. -/
theorem Read.lines_congr (h : List.Forall₂ (fun l l' => tokens l = tokens l') ls ls')
    (read : Read) (number : Nat) : read.lines number ls = read.lines number ls' := by
  induction h generalizing read number with
  | nil => rfl
  | cons htokens _ ih =>
      rw [lines, lines, line_congr htokens]
      split
      · rfl
      · exact ih _ _

/-- Carriage returns at the ends of lines do not matter. -/
theorem Read.lines_map_dropReturn (read : Read) (number : Nat) (ls : List (List Char)) :
    read.lines number (ls.map Text.dropReturn) = read.lines number ls := by
  refine lines_congr ?_ read number
  rw [List.forall₂_map_left_iff, List.forall₂_same]
  exact fun l _ => tokens_dropReturn l

theorem Read.lines_singleton (read : Read) (number : Nat) (l : List Char) :
    read.lines number [l] = read.line number l := by
  rw [lines]
  cases read.line number l <;> rfl

/-- Lines that are read are followed by others. -/
theorem Read.lines_append (h : read.lines number ls = .ok read') (ls' : List (List Char)) :
    read.lines number (ls ++ ls') = read'.lines (number + ls.length) ls' := by
  induction ls generalizing read number with
  | nil =>
      obtain rfl := Except.ok.inj h
      rfl
  | cons l ls ih =>
      rw [lines] at h
      rw [List.cons_append, lines]
      split at h
      · cases h
      · rename_i read₁ hline
        rw [ih h, List.length_cons]
        congr 1
        omega

/-- A line without tokens says nothing. -/
theorem Read.line_of_tokens_nil (h : tokens cs = some []) (read : Read) (number : Nat) :
    read.line number cs = .ok read := by
  rw [line.eq_def, h]
  rfl

/-- An empty line at the end says nothing. -/
theorem Read.lines_append_empty (read : Read) (number : Nat) (ls : List (List Char)) :
    read.lines number (ls ++ [[]]) = read.lines number ls := by
  induction ls generalizing read number with
  | nil =>
      have hempty : tokens [] = some [] := by rw [tokens]
      simp only [List.nil_append, lines, line_of_tokens_nil hempty]
  | cons l ls ih =>
      rw [List.cons_append, lines, lines]
      split
      · rfl
      · exact ih _ _

/-! ### The whole file -/

/-- A file is complete when no block is open and the path of the module has been read. -/
theorem Read.finish_ok_iff {m : ModuleFile} :
    read.finish = .ok m ↔ read = ⟨some m.modulePath, m.replacements, none⟩ := by
  obtain ⟨modulePath, replacements, block⟩ := read
  obtain ⟨path, rs⟩ := m
  cases block <;> cases modulePath <;> simp [finish]

/-- **A module file** is what has been read behind the last line. -/
theorem parse_ok_iff {text : String} {m : ModuleFile} : parse text = .ok m ↔
    Read.lines ⟨none, [], none⟩ 1 (Text.lines text.toList) =
      .ok ⟨some m.modulePath, m.replacements, none⟩ := by
  rw [parse]
  cases hread : Read.lines ⟨none, [], none⟩ 1 (Text.lines text.toList) with
  | error e => simp [Except.bind]
  | ok read => simpa [Except.bind] using Read.finish_ok_iff

/-- **The rows of a text:** what stands between its line feeds, without carriage returns at the
ends. -/
def rows (text : String) : List (List Char) :=
  (text.toList.splitOn '\n').map Text.dropReturn

/-- **A module file is read row by row,** whatever its lines end with. -/
theorem parse_eq_rows (text : String) :
    parse text = (Read.lines ⟨none, [], none⟩ 1 (rows text)).bind Read.finish := by
  obtain ⟨before, row, hrows⟩ : ∃ before row, text.toList.splitOn '\n' = before ++ [row] := by
    rcases List.eq_nil_or_concat' (text.toList.splitOn '\n') with hnil | hrows
    · exact absurd hnil (List.splitOn_ne_nil _ _)
    · exact hrows
  rw [parse, Text.lines, rows, hrows, List.dropLast_concat, List.getLast?_concat,
    Read.lines_map_dropReturn]
  by_cases hrow : row = []
  · have hlast : (some row).toList.filter (fun l => !l.isEmpty) = [] := by simp [hrow]
    rw [hlast, List.append_nil, Read.lines_map_dropReturn, hrow, Read.lines_append_empty]
  · have hlast : (some row).toList.filter (fun l => !l.isEmpty) = [row] := by simp [hrow]
    rw [hlast]
    refine congrArg (Except.bind · Read.finish) (Read.lines_congr ?_ _ _)
    refine List.rel_append ?_ (.cons rfl .nil)
    rw [List.forall₂_map_left_iff, List.forall₂_same]
    exact fun l _ => tokens_dropReturn l

end ModuleFile

end GoPlanner

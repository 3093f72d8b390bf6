import GoPlanner.Proofs.ModuleFile.Lines

/-!
# Comments in Module Files

Two slashes outside quoted strings start a comment, which goes on to the end of the line. A word
that starts with a slash goes on to the next blank, though, and takes two slashes for a part of
itself. So what a line says does not depend on the comment behind it, unless the comment is written
at once behind such a word.

## Main definitions

* `ModuleFile.IsUncommented`: lines without a comment, with all quoted strings closed.
* `ModuleFile.RunsOn`: lines that end within something that goes on over two slashes.
* `ModuleFile.DiffersInComment`: lines that are alike but for the comments behind them.

## Main results

* `ModuleFile.tokens_append_comment`, `ModuleFile.exists_tokens_ne_of_runsOn`: what a comment makes
  of the tokens of a line.
* `ModuleFile.tokens_comment_iff`: comments do not matter, exactly if the line does not run on.
-/

namespace GoPlanner

namespace ModuleFile

variable {quote last c : Char} {cs rest line comment value word : List Char}

/-- **A line without a comment:** all quoted strings are closed, two slashes stand in quoted strings
only, and it does not end in a slash outside of them. -/
inductive IsUncommented : List Char → Prop
  | nil : IsUncommented []
  /-- A quoted string. -/
  | quoted {quote : Char} {cs value rest : List Char} (hquote : isQuote quote = true)
      (hread : readQuoted quote cs = some (value, rest)) (hrest : IsUncommented rest) :
      IsUncommented (quote :: cs)
  /-- A slash, behind which the line goes on with something else. -/
  | slash {c : Char} {cs : List Char} (hc : c ≠ '/') (hrest : IsUncommented (c :: cs)) :
      IsUncommented ('/' :: c :: cs)
  /-- Anything else. -/
  | char {c : Char} {cs : List Char} (hquote : isQuote c = false) (hslash : c ≠ '/')
      (hrest : IsUncommented cs) : IsUncommented (c :: cs)

/-- **A line runs on** if it ends within a word that starts with a slash, or within a quoted string.
Quotes in a word that starts with a slash are parts of the word. -/
inductive RunsOn : List Char → Prop
  /-- A word that starts with a slash. -/
  | slashWord {word : List Char} (hslash : word.head? ≠ some '/')
      (hword : ∀ c ∈ word, isBlank c = false) : RunsOn ('/' :: word)
  /-- A quoted string. -/
  | openQuote {quote : Char} {cs : List Char} (hquote : isQuote quote = true)
      (hopen : readQuoted quote cs = none) : RunsOn (quote :: cs)
  | afterBlank {c : Char} {cs : List Char} (hc : isBlank c = true) (h : RunsOn cs) :
      RunsOn (c :: cs)
  | afterSlashWord {c : Char} {word rest : List Char} (hslash : word.head? ≠ some '/')
      (hword : ∀ c ∈ word, isBlank c = false) (hc : isBlank c = true) (h : RunsOn (c :: rest)) :
      RunsOn ('/' :: (word ++ c :: rest))
  | afterQuote {quote : Char} {cs value rest : List Char} (hquote : isQuote quote = true)
      (hread : readQuoted quote cs = some (value, rest)) (h : RunsOn rest) : RunsOn (quote :: cs)
  | afterWord {c : Char} {cs word rest : List Char}
      (hc : isBlank c = false ∧ isQuote c = false ∧ c ≠ '/')
      (hread : readWord c cs = (word, some rest)) (h : RunsOn rest) : RunsOn (c :: cs)

/-! ### The end of a line -/

/-- The end of a line is the end of what follows a part of it. -/
theorem getLast?_append_ne (cs : List Char) (h : (cs ++ rest).getLast? ≠ some '/') :
    rest.getLast? ≠ some '/' := by
  intro hrest
  rw [List.getLast?_append, hrest, Option.some_or] at h
  exact h rfl

/-- A quoted string is closed by its quote. -/
theorem exists_eq_of_readQuoted (h : readQuoted quote cs = some (value, rest)) :
    ∃ before, cs = before ++ quote :: rest := by
  fun_induction readQuoted quote cs generalizing value with
  | case1 => cases h
  | case2 cs =>
      obtain ⟨-, rfl⟩ := Prod.mk.inj (Option.some.inj h)
      exact ⟨[], rfl⟩
  | case3 => cases h
  | case4 c _ _ escaped cs' ih =>
      obtain ⟨q, hq, heq⟩ := Option.map_eq_some_iff.1 h
      obtain ⟨-, rfl⟩ := Prod.mk.inj heq
      obtain ⟨before, rfl⟩ := ih hq
      exact ⟨c :: escaped :: before, rfl⟩
  | case5 c cs _ _ ih =>
      obtain ⟨q, hq, heq⟩ := Option.map_eq_some_iff.1 h
      obtain ⟨-, rfl⟩ := Prod.mk.inj heq
      obtain ⟨before, rfl⟩ := ih hq
      exact ⟨c :: before, rfl⟩

/-- What follows a word is the end of the line. -/
theorem exists_eq_of_readWord (h : readWord last cs = (word, some rest)) :
    ∃ before, cs = before ++ rest := by
  fun_induction readWord last cs generalizing word with
  | case1 => exact ⟨[], by rw [← Option.some.inj (Prod.mk.inj h).2]; rfl⟩
  | case2 => exact ⟨[], by rw [← Option.some.inj (Prod.mk.inj h).2]; rfl⟩
  | case3 => cases h
  | case4 last c cs hend hslash r =>
      rename_i ih
      obtain ⟨before, rfl⟩ := ih (Prod.ext rfl (Prod.mk.inj h).2)
      exact ⟨c :: before, rfl⟩

/-- **A line without a comment** does not end in a slash. -/
theorem IsUncommented.getLast?_ne (h : IsUncommented line) : line.getLast? ≠ some '/' := by
  induction h with
  | nil => simp
  | @quoted quote cs value rest hquote hread _ ih =>
      obtain ⟨before, rfl⟩ := exists_eq_of_readQuoted hread
      cases rest with
      | nil =>
          simpa [List.getLast?_cons] using (of_isQuote hquote).2
      | cons c rest => simpa [List.getLast?_cons] using ih
  | slash _ _ ih => rwa [List.getLast?_cons_cons]
  | @char c cs _ hslash _ ih =>
      cases cs with
      | nil => simpa using hslash
      | cons d cs => rwa [List.getLast?_cons_cons]

/-! ### What a comment does to the tokens -/

/-- A word at the end of a line ends at the comment. -/
theorem readWord_comment (h : readWord last cs = (word, some []))
    (hlast : (last :: cs).getLast? ≠ some '/') (comment : List Char) :
    readWord last (cs ++ '/' :: '/' :: comment) = (word, none) := by
  have hslash : (isBlank '/' || isQuote '/') = false := by decide
  fun_induction readWord last cs generalizing word with
  | case1 last =>
      have hne : last ≠ '/' := by simpa using hlast
      obtain ⟨rfl, -⟩ := Prod.mk.inj h
      rw [List.nil_append, readWord, readWord]
      simp [hslash, hne]
  | case2 => cases h
  | case3 => cases h
  | case4 last c cs hend hcomment r =>
      rename_i ih
      obtain ⟨rfl, hrest⟩ := Prod.mk.inj h
      rw [List.getLast?_cons_cons] at hlast
      rw [List.cons_append, readWord, if_neg hend, if_neg hcomment, ih (Prod.ext rfl hrest) hlast]

/-- **A comment makes no tokens** behind a line that does not run on. -/
theorem tokens_append_comment (hlast : line.getLast? ≠ some '/') (hruns : ¬ RunsOn line)
    (comment : List Char) : tokens (line ++ '/' :: '/' :: comment) = tokens line := by
  fun_induction tokens line with
  | case1 => exact tokens_comment comment
  | case2 c rest hc ih =>
      rw [List.cons_append, tokens_blank hc,
        ih (getLast?_append_ne [c] hlast) fun h => hruns (.afterBlank hc h)]
  | case3 rest hslash =>
      obtain ⟨rest, rfl⟩ := List.head?_eq_some_iff.1 hslash
      exact tokens_comment _
  | case4 rest hslash _ ih =>
      obtain ⟨word, rest, rfl, hword, hrest⟩ := exists_word rest
      rw [(takeWhile_word hword hrest).1, (takeWhile_word hword hrest).2] at *
      cases rest with
      | nil =>
          rw [List.append_nil] at hslash hruns
          exact absurd (.slashWord hslash hword) hruns
      | cons c rest =>
          have hslash' : word.head? ≠ some '/' := head?_word_ne hslash
          have hend : (c :: rest).getLast? ≠ some '/' :=
            getLast?_append_ne ('/' :: word) hlast
          have hlonger : EndsWord (c :: rest ++ '/' :: '/' :: comment) :=
            endsWord_cons (hrest c rfl)
          rw [List.cons_append, List.append_assoc, tokens_slashWord hslash' hword hlonger,
            ih hend fun h => hruns (.afterSlashWord hslash' hword (hrest c rfl) h)]
  | case5 quote rest _ _ hquote hopen => exact absurd (.openQuote hquote hopen) hruns
  | case6 quote rest _ _ hquote r hread ih =>
      obtain ⟨before, rfl⟩ := exists_eq_of_readQuoted hread
      have hend : r.2.getLast? ≠ some '/' :=
        getLast?_append_ne (quote :: before ++ [quote]) (by simpa using hlast)
      rw [List.cons_append, tokens_quote hquote (readQuoted_append hread _),
        ih hend fun h => hruns (.afterQuote hquote hread h)]
  | case7 c rest hblank hslash hquote word hread =>
      have hc : isBlank c = false ∧ isQuote c = false ∧ c ≠ '/' :=
        ⟨by simpa using hblank, by simpa using hquote, hslash⟩
      exact tokens_word_comment hc (readWord_append_comment hread _)
  | case8 c rest hblank hslash hquote word rest' hread ih =>
      have hc : isBlank c = false ∧ isQuote c = false ∧ c ≠ '/' :=
        ⟨by simpa using hblank, by simpa using hquote, hslash⟩
      by_cases hne : rest' = []
      · subst hne
        rw [List.cons_append, tokens_word_comment hc (readWord_comment hread hlast comment), tokens]
        rfl
      · obtain ⟨before, rfl⟩ := exists_eq_of_readWord hread
        have hend : rest'.getLast? ≠ some '/' := getLast?_append_ne (c :: before) hlast
        rw [List.cons_append, tokens_word hc (readWord_append hread hne _),
          ih hend fun h => hruns (.afterWord hc hread h)]

/-- A quoted string that is not closed is closed in the comment, if there is its quote. -/
theorem exists_readQuoted_comment (h : readQuoted quote cs = none) (hquote : isQuote quote = true) :
    ∃ value, readQuoted quote (cs ++ ['/', '/', quote]) = some (value, []) := by
  have hslash : '/' ≠ quote := (of_isQuote hquote).2.symm
  have hplain : ¬('/' = '\\' && quote = '\x22') = true := by simp
  have hclose : readQuoted quote [quote] = some ([], []) := by
    rw [readQuoted.eq_def]
    simp
  fun_induction readQuoted quote cs with
  | case1 =>
      refine ⟨['/', '/'], ?_⟩
      rw [List.nil_append, readQuoted_cons hslash hplain, readQuoted_cons hslash hplain, hclose]
      rfl
  | case2 => cases h
  | case3 c hc hescape =>
      refine ⟨['/', '/'], ?_⟩
      rw [List.cons_append, List.nil_append, readQuoted, if_neg hc, if_pos hescape,
        readQuoted_cons hslash hplain, hclose]
      rfl
  | case4 c hc hescape escaped cs' ih =>
      obtain ⟨value, hvalue⟩ := ih (Option.map_eq_none_iff.1 h)
      refine ⟨escaped :: value, ?_⟩
      rw [List.cons_append, List.cons_append, readQuoted, if_neg hc, if_pos hescape, hvalue]
      rfl
  | case5 c cs hc hescape ih =>
      obtain ⟨value, hvalue⟩ := ih (Option.map_eq_none_iff.1 h)
      refine ⟨c :: value, ?_⟩
      rw [List.cons_append, readQuoted_cons hc hescape, hvalue]
      rfl

/-- **Some comment makes other tokens** behind a line that runs on: an empty one, or one that closes
the quoted string. -/
theorem exists_tokens_ne_of_runsOn (h : RunsOn line) (hlast : line.getLast? ≠ some '/') :
    ∃ comment ∈ [[], ['\x22'], ['\x60']],
      tokens (line ++ '/' :: '/' :: comment) ≠ tokens line := by
  have hinj {word : List Char} {ts ts' : Option (List (List Char))} (h : ts ≠ ts') :
      ts.map (word :: ·) ≠ ts'.map (word :: ·) :=
    fun heq => h (Option.map_injective (List.cons_injective) heq)
  induction h with
  | @slashWord word hslash hword =>
      refine ⟨[], List.mem_cons_self, ?_⟩
      obtain ⟨c, word, rfl⟩ : ∃ c word', word = c :: word' :=
        List.exists_cons_of_ne_nil fun hnil => hlast (by rw [hnil]; rfl)
      have hlonger : ∀ d ∈ c :: word ++ ['/', '/'], isBlank d = false := by
        intro d hd
        rcases List.mem_append.1 hd with hd | hd
        · exact hword d hd
        · rw [show d = '/' by simpa using hd]
          decide
      have htokens : tokens ('/' :: c :: word) = some ['/' :: c :: word] := by
        have hread := tokens_slashWord hslash hword endsWord_nil
        rwa [List.append_nil, tokens] at hread
      have hcomment : tokens ('/' :: c :: word ++ ['/', '/']) =
          some ['/' :: c :: word ++ ['/', '/']] := by
        have hslash' : (c :: word ++ ['/', '/']).head? ≠ some '/' := hslash
        have hread := tokens_slashWord hslash' hlonger endsWord_nil
        rwa [List.append_nil, tokens] at hread
      rw [htokens, hcomment]
      simp
  | @openQuote quote cs hquote hopen =>
      obtain ⟨value, hvalue⟩ := exists_readQuoted_comment hopen hquote
      refine ⟨[quote], ?_, ?_⟩
      · rw [isQuote, Bool.or_eq_true, beq_iff_eq, beq_iff_eq] at hquote
        rcases hquote with rfl | rfl <;> simp
      · rw [tokens_open hquote hopen, List.cons_append, tokens_quote hquote hvalue, tokens]
        simp
  | @afterBlank c cs hc _ ih =>
      obtain ⟨comment, hmem, hne⟩ := ih (getLast?_append_ne [c] hlast)
      refine ⟨comment, hmem, ?_⟩
      rwa [List.cons_append, tokens_blank hc, tokens_blank hc]
  | @afterSlashWord c word rest hslash hword hc _ ih =>
      obtain ⟨comment, hmem, hne⟩ := ih (getLast?_append_ne ('/' :: word) hlast)
      refine ⟨comment, hmem, ?_⟩
      rw [List.cons_append, List.append_assoc, tokens_slashWord hslash hword (endsWord_cons hc),
        List.cons_append, tokens_slashWord hslash hword (endsWord_cons hc), ← List.cons_append]
      exact hinj hne
  | @afterQuote quote cs value rest hquote hread _ ih =>
      obtain ⟨before, rfl⟩ := exists_eq_of_readQuoted hread
      obtain ⟨comment, hmem, hne⟩ :=
        ih (getLast?_append_ne (quote :: before ++ [quote]) (by simpa using hlast))
      refine ⟨comment, hmem, ?_⟩
      rw [List.cons_append, tokens_quote hquote (readQuoted_append hread _),
        tokens_quote hquote hread]
      exact hinj hne
  | @afterWord c cs word rest hc hread h ih =>
      obtain ⟨before, rfl⟩ := exists_eq_of_readWord hread
      obtain ⟨comment, hmem, hne⟩ := ih (getLast?_append_ne (c :: before) hlast)
      have hrest : rest ≠ [] := by
        rintro rfl
        cases h
      refine ⟨comment, hmem, ?_⟩
      rw [List.cons_append, tokens_word hc (readWord_append hread hrest _), tokens_word hc hread]
      exact hinj hne

/-! ### Lines that differ in comments -/

/-- **A row says what a line says** if it is that line, perhaps with a comment behind it. -/
def Comments (line row : List Char) : Prop :=
  row = line ∨ ∃ comment, row = line ++ '/' :: '/' :: comment

/-- **Rows that are alike** but for the comments behind them. -/
def DiffersInComment (row row' : List Char) : Prop :=
  ∃ line, IsUncommented line ∧ ¬ RunsOn line ∧ Comments line row ∧ Comments line row'

theorem tokens_of_comments (hline : IsUncommented line) (hruns : ¬ RunsOn line)
    (h : Comments line cs) : tokens cs = tokens line := by
  rcases h with rfl | ⟨comment, rfl⟩
  · rfl
  · exact tokens_append_comment hline.getLast?_ne hruns comment

theorem DiffersInComment.tokens_eq (h : DiffersInComment cs rest) : tokens cs = tokens rest := by
  obtain ⟨line, hline, hruns, hcs, hrest⟩ := h
  rw [tokens_of_comments hline hruns hcs, tokens_of_comments hline hruns hrest]

/-- **Comments do not matter** for what a line says, exactly if the line does not run on. So texts
whose lines do not run on are read alike if they differ in comments only. -/
theorem tokens_comment_iff (hline : IsUncommented line) :
    ((∀ comment, '\n' ∉ comment → tokens (line ++ '/' :: '/' :: comment) = tokens line) ↔
      ¬ RunsOn line) ∧
    ∀ text text' : String, List.Forall₂ DiffersInComment (rows text) (rows text') →
      parse text = parse text' := by
  refine ⟨⟨fun h hruns => ?_, fun hruns comment _ => ?_⟩, fun text text' h => ?_⟩
  · obtain ⟨comment, hmem, hne⟩ := exists_tokens_ne_of_runsOn hruns hline.getLast?_ne
    have hfeed : ∀ comment ∈ [[], ['\x22'], ['\x60']], '\n' ∉ comment := by decide
    exact hne (h comment (hfeed comment hmem))
  · exact tokens_append_comment hline.getLast?_ne hruns comment
  · have htokens := h.imp fun _ _ => DiffersInComment.tokens_eq
    rw [parse_eq_rows, parse_eq_rows, Read.lines_congr htokens]

/-! ### A line with a quoted comment mark, and a line that runs on -/

theorem isUncommented_append (cs : List Char) (h : cs.all (fun c => !isQuote c && c != '/') = true)
    (hrest : IsUncommented rest) : IsUncommented (cs ++ rest) := by
  induction cs with
  | nil => exact hrest
  | cons c cs ih =>
      obtain ⟨hc, hcs⟩ := Bool.and_eq_true_iff.1 h
      obtain ⟨hquote, hslash⟩ := Bool.and_eq_true_iff.1 hc
      exact .char (by simpa using hquote) (by simpa using hslash) (ih hcs)

/-- A directive in quotes, with two slashes that start no comment. -/
def quotedLine : List Char :=
  "module \x22a//b\x22".toList

theorem isUncommented_quotedLine : IsUncommented quotedLine := by
  have hread : readQuoted '\x22' "a//b\x22".toList = some ("a//b".toList, []) := by decide +kernel
  exact isUncommented_append "module ".toList (by decide) (.quoted (by decide) hread .nil)

theorem not_runsOn_quotedLine : ¬ RunsOn quotedLine := by
  intro hruns
  obtain ⟨comment, hmem, hne⟩ :=
    exists_tokens_ne_of_runsOn hruns isUncommented_quotedLine.getLast?_ne
  have hsame : ∀ comment ∈ [[], ['\x22'], ['\x60']],
      tokens (quotedLine ++ '/' :: '/' :: comment) = tokens quotedLine := by
    decide +kernel
  exact hne (hsame comment hmem)

/-- **Comments behind quoted words,** and on lines of their own, do not matter. -/
theorem tokens_comment_quotedLine :
    IsUncommented quotedLine ∧ ¬ RunsOn quotedLine ∧
      tokens (quotedLine ++ "//c".toList) = tokens quotedLine ∧
      List.Forall₂ DiffersInComment (rows "// c\nmodule \x22a//b\x22//c")
        (rows "\nmodule \x22a//b\x22") ∧
      parse "// c\nmodule \x22a//b\x22//c" = parse "\nmodule \x22a//b\x22" := by
  obtain ⟨hline, hfile⟩ := tokens_comment_iff isUncommented_quotedLine
  have hrows : rows "// c\nmodule \x22a//b\x22//c" =
      [[] ++ ['/', '/', ' ', 'c'], quotedLine ++ ['/', '/', 'c']] := by
    decide +kernel
  have hrows' : rows "\nmodule \x22a//b\x22" = [[], quotedLine] := by
    decide +kernel
  have hdiffers : List.Forall₂ DiffersInComment (rows "// c\nmodule \x22a//b\x22//c")
      (rows "\nmodule \x22a//b\x22") := by
    rw [hrows, hrows']
    refine .cons ⟨[], .nil, nofun, .inr ⟨_, rfl⟩, .inl rfl⟩ (.cons ?_ .nil)
    exact ⟨quotedLine, isUncommented_quotedLine, not_runsOn_quotedLine, .inr ⟨_, rfl⟩, .inl rfl⟩
  exact ⟨isUncommented_quotedLine, not_runsOn_quotedLine,
    hline.2 not_runsOn_quotedLine ['c'] (by decide), hdiffers, hfile _ _ hdiffers⟩

/-- **A comment at once behind an absolute path** is read as a part of the path. -/
theorem exists_comment_read :
    ∃ line comment : List Char, '\n' ∉ line ∧ '\n' ∉ comment ∧ IsUncommented line ∧
      tokens (line ++ '/' :: '/' :: comment) ≠ tokens line ∧
      parse (String.ofList ("module m\n".toList ++ line)) =
        .ok ⟨"m", [⟨"a", none, .directory ⟨"/lib"⟩⟩]⟩ ∧
      parse (String.ofList ("module m\n".toList ++ (line ++ '/' :: '/' :: comment))) =
        .ok ⟨"m", [⟨"a", none, .directory ⟨"/lib//copy"⟩⟩]⟩ := by
  have hpath : IsUncommented "/lib".toList :=
    .slash (by decide) (isUncommented_append "lib".toList (by decide) .nil)
  have hline : IsUncommented "replace a => /lib".toList :=
    isUncommented_append "replace a => ".toList (by decide) hpath
  exact ⟨"replace a => /lib".toList, "copy".toList, by decide +kernel, by decide +kernel, hline,
    by decide +kernel, by decide +kernel, by decide +kernel⟩

end ModuleFile

end GoPlanner

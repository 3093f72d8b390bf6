import GoPlanner.Proofs.Source.Pieces
import GoPlanner.Proofs.Telling
import GoPlanner.Proofs.Text.Lines
import GoPlanner.Source.Header
import GoPlanner.Source.Selection

/-!
# Line Endings

A carriage return before every line feed changes nothing in what is read of a source text. The
constraint lines are trimmed, so they do not show it. In the header each kind of text treats it in
its own way: it is a blank between lexemes, it belongs to a line comment, a raw literal drops it,
and an interpreted literal fails at the line feed behind it. All the same each lexeme is followed by
the same text as before, with the same returns in it.

Only the faults of the header may differ, namely those of a line feed behind a reverse solidus.

## Main definitions

* `Text.withReturns`: a text with a carriage return before every line feed.
* `Lexemes.Alike`: sequences that differ in their faults at most.

## Main results

* `Text.map_trim_lines_withReturns`: the lines are the same but for blanks at their ends.
* `Leading.read_congr`: the leading part is read from trimmed lines.
* `nextLexeme_withReturns`: one lexeme of both texts.
* `Lexemes.Alike.readHeader_eq`: such sequences start with the same header.
* `scan_withReturns`: what is read of a source text does not depend on its line endings.
-/

namespace GoPlanner

variable {c d : Char} {cs ds : List Char} {line : Nat}

/-! ### Texts with carriage returns -/

namespace Text

/-- **A carriage return before every line feed.** -/
def withReturns (cs : List Char) : List Char :=
  cs.flatMap fun c => if c = '\n' then ['\r', '\n'] else [c]

@[simp] theorem withReturns_nil : withReturns [] = [] :=
  rfl

@[simp] theorem withReturns_lineFeed (cs : List Char) :
    withReturns ('\n' :: cs) = '\r' :: '\n' :: withReturns cs :=
  rfl

theorem withReturns_cons (h : c ≠ '\n') (cs : List Char) :
    withReturns (c :: cs) = c :: withReturns cs := by
  rw [withReturns, List.flatMap_cons, if_neg h]
  rfl

theorem withReturns_of_notMem (h : '\n' ∉ cs) (ds : List Char) :
    withReturns (cs ++ ds) = cs ++ withReturns ds := by
  induction cs with
  | nil => rfl
  | cons c cs ih =>
      obtain ⟨hc, hcs⟩ := not_or.1 (mt List.mem_cons.2 h)
      rw [List.cons_append, withReturns_cons (Ne.symm hc), ih hcs, List.cons_append]

/-- What stands first stood first before, unless it is a carriage return. -/
theorem exists_of_withReturns_eq_cons (h : withReturns cs = d :: ds) (hd : d ≠ '\r') :
    ∃ rest, cs = d :: rest := by
  cases cs with
  | nil => cases h
  | cons c cs =>
      by_cases hc : c = '\n'
      · subst hc
        exact absurd (List.cons.inj h).1.symm hd
      · rw [withReturns_cons hc] at h
        exact ⟨cs, by rw [(List.cons.inj h).1]⟩

/-- **The lines are the same** but for blanks at their ends. -/
theorem map_trim_lines_withReturns (cs : List Char) :
    (lines (withReturns cs)).map trim = (lines cs).map trim := by
  induction cs using lines_induction with
  | last l hl =>
      have h := withReturns_of_notMem hl []
      rw [List.append_nil, withReturns_nil, List.append_nil] at h
      rw [h]
  | ended l cs hl ih =>
      have hreturn : '\n' ∉ l ++ ['\r'] := by simpa using hl
      have h : withReturns (l ++ '\n' :: cs) = (l ++ ['\r']) ++ '\n' :: withReturns cs := by
        rw [withReturns_of_notMem hl, withReturns_lineFeed, List.append_assoc]
        rfl
      rw [h, lines_append_cons hreturn, lines_append_cons hl, List.map_cons, List.map_cons, ih,
        trim_dropReturn, trim_dropReturn, trim_append_singleton (by decide)]

theorem dropByteOrderMark_withReturns (cs : List Char) :
    dropByteOrderMark (withReturns cs) = withReturns (dropByteOrderMark cs) := by
  cases cs with
  | nil => rfl
  | cons c cs =>
      by_cases hc : c = '\n'
      · subst hc
        rfl
      · rw [withReturns_cons hc, dropByteOrderMark, dropByteOrderMark]
        split
        · rfl
        · rw [withReturns_cons hc]

end Text

open Text (withReturns withReturns_nil withReturns_lineFeed withReturns_cons)

/-- A position in the text with carriage returns. -/
def Cursor.withReturns (p : Cursor) : Cursor :=
  ⟨Text.withReturns p.rest, p.line⟩

/-! ### Constraint lines -/

/-- **The leading part** is read from trimmed lines. -/
theorem Leading.read_congr {ls ls' : List (List Char)}
    (h : ls.map Text.trim = ls'.map Text.trim) (f : Found) (number : Nat) :
    read f number ls = read f number ls' := by
  induction ls generalizing ls' f number with
  | nil =>
      obtain rfl := List.map_eq_nil_iff.1 h.symm
      rfl
  | cons l ls ih =>
      obtain ⟨l', ls', rfl, hl, hls⟩ := List.map_eq_cons_iff.1 h.symm
      simp only [read, hl, ih hls.symm]

/-! ### Trivia -/

/-- **A block comment** ends where it ended before. -/
theorem skipBlockComment_withReturns (cs : List Char) (line : Nat) :
    skipBlockComment (withReturns cs) line = (skipBlockComment cs line).map .withReturns := by
  fun_induction skipBlockComment cs line with
  | case1 cs line =>
      rw [withReturns_cons (by decide), withReturns_cons (by decide), skipBlockComment]
      rfl
  | case2 c cs line hopen ih =>
      by_cases hc : c = '\n'
      · subst hc
        rw [withReturns_lineFeed, skipBlockComment.eq_2 _ _ _ (by simp),
          skipBlockComment.eq_2 _ _ _ (by simp)]
        exact ih
      · rw [withReturns_cons hc, skipBlockComment.eq_2 _ _ _ fun ds hstar hds => ?_, ih]
        obtain ⟨rest, hrest⟩ := Text.exists_of_withReturns_eq_cons hds (by decide)
        exact hopen rest hstar hrest
  | case3 => rfl

theorem isBlank_return : isBlank '\r' = true := by decide

theorem isBlank_lineFeed : isBlank '\n' = true := by decide

/-- Behind a line comment the carriage return is a blank like any other. -/
theorem skipTrivia_skipLineComment (cs : List Char) (line : Nat) :
    skipTrivia (skipLineComment (withReturns cs)) line =
      skipTrivia (withReturns (skipLineComment cs)) line := by
  induction cs with
  | nil => rfl
  | cons c cs ih =>
      by_cases hc : c = '\n'
      · subst hc
        exact (Source.skipTrivia_blank isBlank_return _ line).symm
      · have hskip (cs : List Char) : skipLineComment (c :: cs) = skipLineComment cs :=
          List.dropWhile_cons_of_pos (by simpa using hc)
        rw [withReturns_cons hc, hskip, hskip, ih]

theorem skipTrivia_blockComment {p : Cursor} (h : skipBlockComment cs line = some p) :
    skipTrivia ('/' :: '*' :: cs) line = skipTrivia p.rest p.line := by
  rw [skipTrivia]
  split
  · rename_i q hq
    obtain rfl := Option.some.inj (hq.symm.trans h)
    rfl
  · rename_i hnone
    cases hnone.symm.trans h

theorem skipTrivia_openComment (h : skipBlockComment cs line = none) :
    skipTrivia ('/' :: '*' :: cs) line = .error ⟨line, .openComment⟩ := by
  rw [skipTrivia]
  split
  · rename_i q hq
    cases hq.symm.trans h
  · rfl

/-- **Trivia ends** where it ended before. -/
theorem skipTrivia_withReturns (cs : List Char) (line : Nat) :
    skipTrivia (withReturns cs) line = (skipTrivia cs line).map .withReturns := by
  fun_induction skipTrivia cs line with
  | case1 line rest ih =>
      rw [withReturns_cons (by decide), withReturns_cons (by decide), skipTrivia,
        skipTrivia_skipLineComment, ih]
  | case2 line rest p hp ih =>
      have hskip := skipBlockComment_withReturns rest line
      rw [hp] at hskip
      rw [withReturns_cons (by decide), withReturns_cons (by decide),
        skipTrivia_blockComment hskip]
      exact ih
  | case3 line rest hnone =>
      have hskip := skipBlockComment_withReturns rest line
      rw [hnone] at hskip
      rw [withReturns_cons (by decide), withReturns_cons (by decide),
        skipTrivia_openComment hskip]
      rfl
  | case4 line c rest _ _ hblank ih =>
      by_cases hc : c = '\n'
      · subst hc
        rw [withReturns_lineFeed, Source.skipTrivia_blank isBlank_return,
          Source.skipTrivia_blank isBlank_lineFeed]
        exact ih
      · rw [withReturns_cons hc, Source.skipTrivia_blank hblank, ih]
  | case5 line c rest hline hblock hblank =>
      have hc : c ≠ '\n' := by
        rintro rfl
        exact hblank isBlank_lineFeed
      rw [withReturns_cons hc, skipTrivia.eq_3 _ _ _ (fun ds hslash hds => ?_)
        (fun ds hslash hds => ?_), if_neg hblank]
      · rw [Except.map, Cursor.withReturns, withReturns_cons hc]
      · obtain ⟨rest, hrest⟩ := Text.exists_of_withReturns_eq_cons hds (by decide)
        exact hline rest hslash hrest
      · obtain ⟨rest, hrest⟩ := Text.exists_of_withReturns_eq_cons hds (by decide)
        exact hblock rest hslash hrest
  | case6 =>
      rw [withReturns_nil, skipTrivia]
      rfl

/-- What follows trivia is no blank. -/
theorem isBlank_of_skipTrivia {p : Cursor} (h : skipTrivia cs line = .ok p) :
    ∀ c ∈ p.rest.head?, isBlank c = false := by
  fun_induction skipTrivia cs line with
  | case1 _ _ ih => exact ih h
  | case2 _ _ _ _ ih => exact ih h
  | case3 => cases h
  | case4 _ _ _ _ _ _ ih => exact ih h
  | case5 _ c _ _ _ hblank =>
      obtain rfl := Except.ok.inj h
      intro d hd
      exact Option.some.inj hd ▸ Bool.eq_false_iff.2 hblank
  | case6 =>
      obtain rfl := Except.ok.inj h
      intro d hd
      cases hd

/-! ### Literals and words -/

theorem toOption_map {ε α β : Type} (f : α → β) (x : Except ε α) :
    (x.map f).toOption = x.toOption.map f := by
  cases x <;> rfl

/-- **An interpreted literal** is read as before, or is at fault as before. -/
theorem readInterpreted_withReturns (line : Nat) (cs : List Char) :
    (readInterpreted line (withReturns cs)).toOption =
      (readInterpreted line cs).toOption.map fun r => (r.1, withReturns r.2) := by
  fun_induction readInterpreted line cs with
  | case1 => rfl
  | case2 => rfl
  | case3 c cs e he ih =>
      have hc : c ≠ '\n' := by
        rintro rfl
        cases he
      rw [withReturns_cons (by decide), withReturns_cons hc, readInterpreted, he]
      dsimp only
      rw [toOption_map, toOption_map, ih, Option.map_map, Option.map_map]
      rfl
  | case4 c cs hnone =>
      rw [withReturns_cons (by decide)]
      by_cases hc : c = '\n'
      · subst hc
        rfl
      · rw [withReturns_cons hc, readInterpreted, hnone]
        rfl
  | case5 => rfl
  | case6 => rfl
  | case7 c cs hend hescape hquote hline ih =>
      have hslash : c ≠ '\\' := by
        rintro rfl
        cases cs with
        | nil => exact hend rfl rfl
        | cons d ds => exact hescape d ds rfl rfl
      rw [withReturns_cons hline, readInterpreted.eq_4 _ _ _ (fun h => absurd h hslash)
        (fun _ _ h => absurd h hslash), if_neg hquote, if_neg hline, toOption_map, toOption_map, ih,
        Option.map_map, Option.map_map]
      rfl

/-- **A raw literal** keeps no carriage return. -/
theorem readRaw_withReturns (cs : List Char) (line : Nat) :
    readRaw (withReturns cs) line = (readRaw cs line).map fun r => (r.1, r.2.withReturns) := by
  have hmap {α β γ : Type} (f : β → γ) (g : α → β) (x : Except ScanError α) :
      (x.map g).map f = x.map (f ∘ g) := by
    cases x <;> rfl
  induction cs generalizing line with
  | nil => rfl
  | cons c cs ih =>
      by_cases hc : c = '\n'
      · subst hc
        rw [withReturns_lineFeed, readRaw, readRaw, readRaw, ih]
        simp [hmap, Cursor.lineAfter, Function.comp_def]
      · rw [withReturns_cons hc, readRaw, readRaw, ih]
        split
        · rfl
        · rw [hmap, hmap]
          rfl

/-- **A word** ends before both signs. -/
theorem takeWhile_withReturns (cs : List Char) :
    (withReturns cs).takeWhile isWordChar = cs.takeWhile isWordChar ∧
      (withReturns cs).dropWhile isWordChar = withReturns (cs.dropWhile isWordChar) := by
  have hreturn : isWordChar '\r' = false := Source.isWordChar_of_isBlank isBlank_return
  have hfeed : isWordChar '\n' = false := Source.isWordChar_of_isBlank isBlank_lineFeed
  induction cs with
  | nil => exact ⟨rfl, rfl⟩
  | cons c cs ih =>
      by_cases hc : c = '\n'
      · subst hc
        simp [hreturn, hfeed]
      · rw [withReturns_cons hc]
        cases hword : isWordChar c with
        | true => simp [hword, ih]
        | false => simp [hword, withReturns_cons hc]

/-! ### Lexemes -/

theorem readLexeme_withReturns (c : Char) (cs : List Char) (line : Nat) :
    (readLexeme c (withReturns cs) line).toOption =
      (readLexeme c cs line).toOption.map fun r => (r.1, r.2.withReturns) := by
  simp only [readLexeme]
  split_ifs
  · rfl
  · rfl
  · rfl
  · rfl
  · rw [toOption_map, toOption_map, readInterpreted_withReturns, Option.map_map, Option.map_map]
    rfl
  · rw [readRaw_withReturns, toOption_map, toOption_map, toOption_map, Option.map_map,
      Option.map_map]
    rfl
  · rw [(takeWhile_withReturns cs).1, (takeWhile_withReturns cs).2]
    rfl
  · rfl

/-- **One lexeme** of both texts, if there is one, and what follows it. -/
theorem nextLexeme_withReturns (cs : List Char) (line : Nat) :
    (nextLexeme (withReturns cs) line).toOption =
      (nextLexeme cs line).toOption.map fun r => (r.1, r.2.withReturns) := by
  rw [nextLexeme, nextLexeme, skipTrivia_withReturns]
  cases hskip : skipTrivia cs line with
  | error e => rfl
  | ok p =>
      obtain ⟨_ | ⟨c, rest⟩, line'⟩ := p
      · rfl
      · have hc : c ≠ '\n' := by
          rintro rfl
          cases isBlank_of_skipTrivia hskip '\n' rfl
        have hreturns : Except.map Cursor.withReturns (.ok ⟨c :: rest, line'⟩) =
            (.ok ⟨c :: withReturns rest, line'⟩ : Except ScanError Cursor) := by
          rw [Except.map, Cursor.withReturns, withReturns_cons hc]
        rw [hreturns]
        dsimp only
        rw [toOption_map, toOption_map, readLexeme_withReturns, Option.map_map, Option.map_map]
        rfl

namespace Lexemes

/-- **Sequences that differ in their faults at most.** -/
inductive Alike : Lexemes → Lexemes → Prop
  | done (line : Nat) : Alike (.done line) (.done line)
  | fault (e e' : ScanError) : Alike (.fault e) (.fault e')
  | cons (x : Lexeme) (line : Nat) {tail tail' : Lexemes} (h : Alike tail tail') :
      Alike (.cons x line tail) (.cons x line tail')

end Lexemes

/-- **All lexemes** of both texts. -/
theorem lexemes_withReturns (cs : List Char) (line : Nat) :
    (lexemes (withReturns cs) line).Alike (lexemes cs line) := by
  have hnext := nextLexeme_withReturns cs line
  fun_induction lexemes cs line with
  | case1 cs line e he =>
      rw [he] at hnext
      rw [Source.lexemes_eq]
      cases hreturns : nextLexeme (withReturns cs) line with
      | error e' => exact .fault e' e
      | ok r =>
          rw [hreturns] at hnext
          cases hnext
  | case2 cs line p hp =>
      rw [hp] at hnext
      rw [Source.lexemes_eq, ok_of_toOption hnext]
      exact .done p.line
  | case3 cs line x p hp ih =>
      rw [hp] at hnext
      rw [Source.lexemes_eq, ok_of_toOption hnext]
      exact .cons x p.line (ih (nextLexeme_withReturns p.rest p.line))

/-! ### Headers -/

theorem toOption_withImport (i : Import) (line : Nat) (later : Except ScanError (List Import)) :
    (withImport i line later).toOption =
      if i.path = "" then none else later.toOption.map (i :: ·) := by
  rw [withImport]
  split
  · rfl
  · rw [toOption_map]

namespace Lexemes.Alike

variable {ls ls' : Lexemes}

/-- **The states of the reader** find the same imports in both sequences. -/
theorem readDeclarations_eq (h : ls.Alike ls') :
    (readDeclarations ls).toOption = (readDeclarations ls').toOption ∧
      (readDeclaration ls).toOption = (readDeclaration ls').toOption ∧
      (readBlock ls).toOption = (readBlock ls').toOption ∧
      ∀ inBlock name line, (readImportPath inBlock name line ls).toOption =
        (readImportPath inBlock name line ls').toOption := by
  induction h with
  | done line => exact ⟨rfl, rfl, rfl, fun _ _ _ => rfl⟩
  | fault e e' =>
      simp only [readDeclarations, readDeclaration, readBlock, readImportPath]
      exact ⟨rfl, rfl, rfl, fun _ _ _ => rfl⟩
  | cons x line _ ih =>
      obtain ⟨hdeclarations, hdeclaration, hblock, hpath⟩ := ih
      cases x with
      | word w =>
          refine ⟨?_, hpath false w line, hpath true w line, fun _ _ _ => rfl⟩
          rw [readDeclarations, readDeclarations]
          split
          · exact hdeclaration
          · rfl
      | text path =>
          refine ⟨rfl, ?_, ?_, fun inBlock name _ => ?_⟩
          · rw [readDeclaration, readDeclaration, toOption_withImport, toOption_withImport,
              hdeclarations]
          · rw [readBlock, readBlock, toOption_withImport, toOption_withImport, hblock]
          · rw [readImportPath, readImportPath, toOption_withImport, toOption_withImport]
            cases inBlock with
            | false => rw [if_neg Bool.false_ne_true, if_neg Bool.false_ne_true, hdeclarations]
            | true => rw [if_pos rfl, if_pos rfl, hblock]
      | opening => exact ⟨rfl, hblock, rfl, fun _ _ _ => rfl⟩
      | closing => exact ⟨rfl, rfl, hdeclarations, fun _ _ _ => rfl⟩
      | semicolon => exact ⟨hdeclarations, rfl, hblock, fun _ _ _ => rfl⟩
      | dot => exact ⟨rfl, hpath false "." line, hpath true "." line, fun _ _ _ => rfl⟩
      | other c => exact ⟨rfl, rfl, rfl, fun _ _ _ => rfl⟩

theorem readPackageName_eq (h : ls.Alike ls') :
    (readPackageName ls).toOption = (readPackageName ls').toOption := by
  cases h with
  | done line => rfl
  | fault e e' => rfl
  | cons x line htail =>
      cases x with
      | word w =>
          rw [readPackageName, readPackageName]
          split
          · rfl
          · rw [toOption_map, toOption_map, htail.readDeclarations_eq.1]
      | _ => rfl

/-- **The same header** stands at the start of both sequences. -/
theorem readHeader_eq (h : ls.Alike ls') :
    (readHeader ls).toOption = (readHeader ls').toOption := by
  cases h with
  | done line => rfl
  | fault e e' => rfl
  | cons x line htail =>
      cases x with
      | word w =>
          rw [readHeader, readHeader]
          split
          · exact htail.readPackageName_eq
          · rfl
      | _ => rfl

end Lexemes.Alike

/-! ### Source texts -/

/-- **A source text with a carriage return before every line feed.** -/
def Source.withReturns (src : String) : String :=
  String.ofList (Text.withReturns src.toList)

theorem scanConstraints_withReturns (src : String) :
    scanConstraints (Source.withReturns src) = scanConstraints src := by
  rw [scanConstraints, Source.withReturns, String.toList_ofList, Text.dropByteOrderMark_withReturns]
  exact Leading.read_congr (Text.map_trim_lines_withReturns _) _ _

theorem toOption_scanHeader_withReturns (src : String) :
    (scanHeader (Source.withReturns src)).toOption = (scanHeader src).toOption := by
  rw [scanHeader, Source.withReturns, String.toList_ofList, Text.dropByteOrderMark_withReturns]
  exact (lexemes_withReturns _ 1).readHeader_eq

/-- **Line endings do not matter:** with a carriage return before every line feed a source text has
the same constraint lines or the same fault in them, belongs to the same targets, and has the same
header, if it has one. Carriage returns that the text has already may stay. -/
theorem scan_withReturns (src : String) :
    scanConstraints (Source.withReturns src) = scanConstraints src ∧
      (∀ t : Target, t.fitsConstraints (Source.withReturns src) = t.fitsConstraints src) ∧
      ∀ header, scanHeader (Source.withReturns src) = .ok header ↔ scanHeader src = .ok header := by
  have hconstraints := scanConstraints_withReturns src
  have hheader := toOption_scanHeader_withReturns src
  refine ⟨hconstraints, fun t => ?_, fun header => ⟨fun h => ?_, fun h => ?_⟩⟩
  · rw [Target.fitsConstraints, hconstraints, Target.fitsConstraints]
  · exact ok_of_toOption (hheader.symm.trans (congrArg _ h))
  · exact ok_of_toOption (hheader.trans (congrArg _ h))

/-- The fault of an escape names the sign behind the reverse solidus and the line after it. -/
example :
    scanHeader "package a\nimport \x22\\\n" = .error ⟨3, .unknownEscape '\n'⟩ ∧
      scanHeader (Source.withReturns "package a\nimport \x22\\\n") =
        .error ⟨2, .unknownEscape '\r'⟩ := by
  decide +kernel

end GoPlanner

import GoPlanner.Source.Lexeme
import GoPlanner.Proofs.Constraint.Written
import GoPlanner.Proofs.Text.Lines
import Mathlib.Data.List.Infix

/-!
# The Pieces of a Written Header

A header can be laid out in many ways. Between its lexemes may stand any blanks and comments, and a
text may be written as a literal of either kind. The pieces that a layout is put together from carry
what makes them well formed: a line comment has no line feed in it, a block comment does not close
before its end, a raw literal has no back quote.

Each piece is read as what it was written for, whatever follows it. Only an identifier has to end:
no further character of an identifier may stand right behind it.

## Main definitions

* `Source.Trivium`, `Source.Gap`: blanks and comments, one and many.
* `Source.Word`, `Source.Literal`: identifiers and string literals.
* `Source.EndsWord`: a text that an identifier can stand before.

## Main results

* `Source.lexemes_gap`: blanks and comments are passed over.
* `Source.lexemes_sign`, `Source.lexemes_word`, `Source.lexemes_literal`: the first lexeme of a text.
-/

namespace GoPlanner

/-- The line after a text. -/
def Cursor.lineAfterAll (line : Nat) (cs : List Char) : Nat :=
  cs.foldl lineAfter line

namespace Source

variable {c : Char} {cs text rest : List Char} {line : Nat}

/-! ### Trivia -/

/-- **A piece of trivia:** a blank, a comment that a line feed ends, or a block comment. -/
inductive Trivium where
  /-- A blank character. -/
  | blank (c : Char) (isBlank : isBlank c = true)
  /-- A comment to the end of the line. -/
  | lineComment (text : List Char) (isLine : '\n' ∉ text)
  /-- A block comment, which closes at its end only. -/
  | blockComment (text : List Char) (isOpen : ¬ ['*', '/'] <:+: text)

/-- The characters of a piece of trivia. -/
def Trivium.chars : Trivium → List Char
  | blank c _ => [c]
  | lineComment text _ => '/' :: '/' :: (text ++ ['\n'])
  | blockComment text _ => '/' :: '*' :: (text ++ ['*', '/'])

/-- **What stands between two lexemes.** -/
abbrev Gap :=
  List Trivium

/-- The characters between two lexemes. -/
def Gap.chars (g : Gap) : List Char :=
  g.flatMap Trivium.chars

/-- A line comment is skipped up to its line feed. -/
theorem skipLineComment_append (h : '\n' ∉ text) (rest : List Char) :
    skipLineComment (text ++ '\n' :: rest) = '\n' :: rest := by
  rw [skipLineComment, List.dropWhile_append_of_pos fun _ hc => bne_of_notMem h hc]
  rfl

theorem lineAfterAll_append (line : Nat) (cs ds : List Char) :
    Cursor.lineAfterAll line (cs ++ ds) =
      Cursor.lineAfterAll (Cursor.lineAfterAll line cs) ds :=
  List.foldl_append

/-- Within one line the number of the line stays the same. -/
theorem lineAfterAll_of_notMem (h : '\n' ∉ text) (line : Nat) :
    Cursor.lineAfterAll line text = line := by
  induction text with
  | nil => rfl
  | cons c text ih =>
      obtain ⟨hc, htext⟩ := not_or.1 (mt List.mem_cons.2 h)
      rw [Cursor.lineAfterAll, List.foldl_cons, Cursor.lineAfter, if_neg (Ne.symm hc)]
      exact ih htext

/-- A block comment is skipped up to its end. -/
theorem skipBlockComment_append (h : ¬ ['*', '/'] <:+: text) (rest : List Char) (line : Nat) :
    skipBlockComment (text ++ '*' :: '/' :: rest) line =
      some ⟨rest, Cursor.lineAfterAll line text⟩ := by
  induction text generalizing line with
  | nil => rfl
  | cons c text ih =>
      have htext : ¬ ['*', '/'] <:+: text := fun hi => h (hi.trans (List.suffix_cons c text).isInfix)
      -- the comment does not close at its first character
      have hopen : ∀ cs', c = '*' → text ++ '*' :: '/' :: rest = '/' :: cs' → False := by
        rintro cs' rfl heq
        cases text with
        | nil => simp at heq
        | cons d text =>
            obtain ⟨rfl, -⟩ := List.cons.inj heq
            exact h ⟨[], text, rfl⟩
      rw [List.cons_append, skipBlockComment.eq_2 _ _ _ hopen, ih htext]
      rfl

theorem ne_slash_of_isBlank (h : isBlank c = true) : c ≠ '/' := by
  rintro rfl
  cases h

theorem skipTrivia_blank (h : isBlank c = true) (rest : List Char) (line : Nat) :
    skipTrivia (c :: rest) line = skipTrivia rest (Cursor.lineAfter line c) := by
  have hc := ne_slash_of_isBlank h
  rw [skipTrivia.eq_3 _ _ _ (fun _ h' => absurd h' hc) (fun _ h' => absurd h' hc), if_pos h]

/-- **Trivia is skipped.** -/
theorem skipTrivia_trivium (t : Trivium) (rest : List Char) (line : Nat) :
    skipTrivia (t.chars ++ rest) line = skipTrivia rest (Cursor.lineAfterAll line t.chars) := by
  cases t with
  | blank c hc => exact skipTrivia_blank hc rest line
  | lineComment text htext =>
      have hline : Cursor.lineAfterAll line (Trivium.lineComment text htext).chars =
          Cursor.lineAfter line '\n' := by
        have hfirst : '\n' ∉ '/' :: '/' :: text := by simpa using htext
        rw [Trivium.chars, ← List.cons_append, ← List.cons_append, lineAfterAll_append,
          lineAfterAll_of_notMem hfirst]
        rfl
      rw [hline, ← skipTrivia_blank (by decide), Trivium.chars, List.cons_append, List.cons_append,
        List.append_assoc, skipTrivia, List.singleton_append, skipLineComment_append htext]
  | blockComment text htext =>
      have hline : Cursor.lineAfterAll line (Trivium.blockComment text htext).chars =
          Cursor.lineAfterAll line text := by
        rw [Trivium.chars, ← List.cons_append, ← List.cons_append, lineAfterAll_append]
        rfl
      have hskip := skipBlockComment_append htext rest line
      rw [hline, Trivium.chars, List.cons_append, List.cons_append, List.append_assoc, skipTrivia]
      split
      · rename_i p hp
        obtain rfl := Option.some.inj (hp.symm.trans hskip)
        rfl
      · rename_i hnone
        cases hnone.symm.trans hskip

/-- The sequence of lexemes is the next one and the sequence behind it. -/
theorem lexemes_eq (cs : List Char) (line : Nat) :
    lexemes cs line =
      match nextLexeme cs line with
      | .error e => .fault e
      | .ok (none, p) => .done p.line
      | .ok (some x, p) => .cons x p.line (lexemes p.rest p.line) := by
  rw [lexemes.eq_def]
  split <;> rename_i h <;> rw [h]

/-- **Between lexemes** trivia is passed over. -/
theorem lexemes_gap (g : Gap) (rest : List Char) (line : Nat) :
    lexemes (g.chars ++ rest) line = lexemes rest (Cursor.lineAfterAll line g.chars) := by
  induction g generalizing line with
  | nil => rfl
  | cons t g ih =>
      have ht (rest : List Char) :
          lexemes (t.chars ++ rest) line = lexemes rest (Cursor.lineAfterAll line t.chars) := by
        rw [lexemes_eq, lexemes_eq rest, nextLexeme, skipTrivia_trivium, ← nextLexeme]
      rw [Gap.chars, List.flatMap_cons, List.append_assoc, ht, lineAfterAll_append]
      exact ih _

/-- **A lexeme at the start** of a text is the first one. -/
theorem lexemes_of_readLexeme {x : Lexeme} {p : Cursor} (hblank : isBlank c = false)
    (hslash : c ≠ '/') (h : readLexeme c cs line = .ok (x, p)) :
    lexemes (c :: cs) line = .cons x p.line (lexemes p.rest p.line) := by
  have hskip : skipTrivia (c :: cs) line = .ok ⟨c :: cs, line⟩ := by
    rw [skipTrivia.eq_3 _ _ _ (fun _ h' => absurd h' hslash) (fun _ h' => absurd h' hslash),
      if_neg (by simp [hblank])]
  have hnext : nextLexeme (c :: cs) line = .ok (some x, p) := by
    simp only [nextLexeme, hskip, h, Except.map]
  rw [lexemes_eq, hnext]

/-- A sign is a lexeme of its own. -/
theorem lexemes_sign {x : Lexeme} (hblank : isBlank c = false) (hslash : c ≠ '/')
    (h : readLexeme c cs line = .ok (x, ⟨cs, line⟩)) :
    lexemes (c :: cs) line = .cons x line (lexemes cs line) :=
  lexemes_of_readLexeme hblank hslash h

/-! ### Identifiers -/

/-- **Identifiers** start with a letter or an underscore and go on with letters, digits and
underscores. -/
def IsWord : List Char → Prop
  | [] => False
  | c :: cs => isWordStart c = true ∧ ∀ d ∈ cs, isWordChar d = true

instance : DecidablePred IsWord
  | [] => isFalse id
  | c :: cs => decidable_of_iff (isWordStart c = true ∧ cs.all isWordChar = true) (by simp [IsWord])

/-- **An identifier.** -/
structure Word where
  /-- Its characters. -/
  chars : List Char
  /-- They make an identifier. -/
  isWord : IsWord chars

/-- A text that starts with no character of an identifier. -/
def EndsWord (rest : List Char) : Prop :=
  ∀ c ∈ rest.head?, isWordChar c = false

instance (rest : List Char) : Decidable (EndsWord rest) :=
  decidable_of_iff (rest.head?.all (fun c => !isWordChar c) = true)
    (by cases rest <;> simp [EndsWord])

theorem endsWord_nil : EndsWord [] := by
  simp [EndsWord]

theorem endsWord_cons (h : isWordChar c = false) : EndsWord (c :: cs) := by
  simpa [EndsWord] using h

theorem EndsWord.takeWhile (h : EndsWord rest) : rest.takeWhile isWordChar = [] := by
  cases rest with
  | nil => rfl
  | cons c rest => rw [List.takeWhile_cons_of_neg (by simp [h c rfl])]

theorem EndsWord.dropWhile (h : EndsWord rest) : rest.dropWhile isWordChar = rest := by
  cases rest with
  | nil => rfl
  | cons c rest => rw [List.dropWhile_cons_of_neg (by simp [h c rfl])]

/-- Blanks are no characters of identifiers. -/
theorem isWordChar_of_isBlank (h : isBlank c = true) : isWordChar c = false := by
  have htag := Constraint.isTagChar_of_isBlank h
  rw [Constraint.isTagChar, Bool.or_eq_false_iff] at htag
  exact htag.1

theorem isWordChar_of_isWordStart (h : isWordStart c = true) : isWordChar c = true := by
  rw [isWordStart, Bool.or_eq_true] at h
  rw [isWordChar, Bool.or_eq_true]
  refine h.imp_left fun halpha => ?_
  rw [isAlphabetic] at halpha
  rw [isAlphanumeric]
  split
  · rename_i hascii
    rw [if_pos hascii] at halpha
    simp [Char.isAlphanum, halpha]
  · rename_i hascii
    rw [if_neg hascii] at halpha
    simp [isAlphabetic, hascii, halpha]

/-- Characters that are no lexemes of their own and start no trivia or literal. -/
theorem ne_sign_of_isWordStart (h : isWordStart c = true) :
    c ∉ ['(', ')', ';', '.', '\x22', '\x60', '/'] := by
  have hall : ['(', ')', ';', '.', '\x22', '\x60', '/'].all (fun c => !isWordStart c) = true := by
    decide +kernel
  intro hc
  simpa [h] using List.all_eq_true.1 hall c hc

/-- **An identifier is one lexeme,** if it ends where it was meant to. -/
theorem lexemes_word (w : Word) (hrest : EndsWord rest) (line : Nat) :
    lexemes (w.chars ++ rest) line =
      .cons (.word (String.ofList w.chars)) line (lexemes rest line) := by
  obtain ⟨_ | ⟨c, cs⟩, hword⟩ := w
  · exact hword.elim
  · obtain ⟨hstart, hcs⟩ := hword
    have hblank : isBlank c = false := by
      by_contra h
      have hchar := isWordChar_of_isBlank (by simpa using h)
      simp [isWordChar_of_isWordStart hstart] at hchar
    have hsign := ne_sign_of_isWordStart hstart
    simp only [List.mem_cons, List.not_mem_nil, or_false, not_or] at hsign
    obtain ⟨h1, h2, h3, h4, h5, h6, hslash⟩ := hsign
    have htake : (cs ++ rest).takeWhile isWordChar = cs := by
      rw [List.takeWhile_append_of_pos hcs, hrest.takeWhile, List.append_nil]
    have hdrop : (cs ++ rest).dropWhile isWordChar = rest := by
      rw [List.dropWhile_append_of_pos hcs, hrest.dropWhile]
    have hread : readLexeme c (cs ++ rest) line =
        .ok (.word (String.ofList (c :: cs)), ⟨rest, line⟩) := by
      simp [readLexeme, h1, h2, h3, h4, h5, h6, hstart, htake, hdrop]
    exact lexemes_of_readLexeme hblank hslash hread

/-! ### Literals -/

/-- **A string literal,** of either kind. -/
inductive Literal where
  /-- A literal in double quotes with escapes. -/
  | interpreted (value : List Char)
  /-- A literal in back quotes, in which a text stands as it is. -/
  | raw (value : List Char) (isRaw : '\x60' ∉ value ∧ '\r' ∉ value)

/-- The text that a literal stands for. -/
def Literal.value : Literal → List Char
  | interpreted value => value
  | raw value _ => value

/-- A character as it stands in double quotes. -/
def escaped (c : Char) : List Char :=
  if c = '\\' || c = '\x22' then ['\\', c]
  else if c = '\n' then ['\\', 'n']
  else if c = '\t' then ['\\', 't']
  else [c]

/-- The characters of a literal. -/
def Literal.chars : Literal → List Char
  | interpreted value => '\x22' :: (value.flatMap escaped ++ ['\x22'])
  | raw value _ => '\x60' :: (value ++ ['\x60'])

/-- **Escapes are undone.** -/
theorem readInterpreted_escaped (value rest : List Char) (line : Nat) :
    readInterpreted line (value.flatMap escaped ++ '\x22' :: rest) = .ok (value, rest) := by
  induction value with
  | nil => rfl
  | cons c value ih =>
      rw [List.flatMap_cons, List.append_assoc, escaped]
      by_cases hself : c = '\\' ∨ c = '\x22'
      · rw [if_pos (by simpa using hself)]
        simp [readInterpreted, escaped?, hself, ih, Except.map]
      by_cases hline : c = '\n'
      · subst hline
        simp [readInterpreted, escaped?, ih, Except.map]
      by_cases htab : c = '\t'
      · subst htab
        simp [readInterpreted, escaped?, ih, Except.map]
      obtain ⟨hslash, hquote⟩ := not_or.1 hself
      simp [readInterpreted, hslash, hquote, hline, htab, ih, Except.map]

theorem readRaw_append {value : List Char} (h : '\x60' ∉ value ∧ '\r' ∉ value) (rest : List Char)
    (line : Nat) :
    readRaw (value ++ '\x60' :: rest) line =
      .ok (value, ⟨rest, Cursor.lineAfterAll line value⟩) := by
  induction value generalizing line with
  | nil => rfl
  | cons c value ih =>
      simp only [List.mem_cons, not_or] at h
      obtain ⟨⟨hquote, hquotes⟩, hreturn, hreturns⟩ := h
      rw [List.cons_append, readRaw, if_neg (Ne.symm hquote), ih ⟨hquotes, hreturns⟩]
      simp [Except.map, Ne.symm hreturn, Cursor.lineAfterAll]

theorem notMem_escaped (value : List Char) : '\n' ∉ value.flatMap escaped := by
  intro h
  obtain ⟨c, -, hc⟩ := List.mem_flatMap.1 h
  by_cases hline : c = '\n'
  · subst hline
    simp [escaped] at hc
  · rw [escaped] at hc
    split_ifs at hc <;> simp [Ne.symm hline] at hc

/-- **A literal is one lexeme,** whatever follows it. -/
theorem lexemes_literal (l : Literal) (rest : List Char) (line : Nat) :
    lexemes (l.chars ++ rest) line =
      .cons (.text (String.ofList l.value)) (Cursor.lineAfterAll line l.chars)
        (lexemes rest (Cursor.lineAfterAll line l.chars)) := by
  cases l with
  | interpreted value =>
      have hline : Cursor.lineAfterAll line (Literal.interpreted value).chars = line :=
        lineAfterAll_of_notMem (by simpa [Literal.chars] using notMem_escaped value) line
      have hread : readLexeme '\x22' (value.flatMap escaped ++ '\x22' :: rest) line =
          .ok (.text (String.ofList value), ⟨rest, line⟩) := by
        rw [readLexeme, readInterpreted_escaped]
        rfl
      rw [hline, Literal.chars, List.cons_append, List.append_assoc]
      exact lexemes_of_readLexeme (by decide) (by decide) hread
  | raw value hraw =>
      have hline : Cursor.lineAfterAll line (Literal.raw value hraw).chars =
          Cursor.lineAfterAll line value := by
        rw [Literal.chars, ← List.cons_append, lineAfterAll_append]
        rfl
      have hread : readLexeme '\x60' (value ++ '\x60' :: rest) line =
          .ok (.text (String.ofList value), ⟨rest, Cursor.lineAfterAll line value⟩) := by
        rw [readLexeme, readRaw_append hraw]
        rfl
      rw [hline, Literal.chars, List.cons_append, List.append_assoc]
      exact lexemes_of_readLexeme (by decide) (by decide) hread

end Source

end GoPlanner

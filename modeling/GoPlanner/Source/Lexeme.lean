import GoPlanner.Source.ScanError
import GoPlanner.Text.Blank
import GoPlanner.Text.Letter

/-!
# Lexemes of a Source Header

The header of a source file is read as a sequence of lexemes: identifiers, string
literals, and single characters. Between lexemes stands trivia: blanks, comments to the
end of a line, and closed block comments. Every lexeme carries the number of the line on
which reading stands after it, since that is the line that messages name.

The sequence is produced for the whole text, and a fault of the text ends it. A reader
that stops before the fault never sees it.

## Main definitions

* `skipTrivia`: the text after leading trivia, or the line of an unclosed comment.
* `Lexeme` and `nextLexeme`: one lexeme at the start of a text.
* `Lexemes` and `lexemes`: the sequence of all lexemes.
-/

namespace GoPlanner

/-- A position in a source text: what is left of it, and the number of the line. -/
structure Cursor where
  /-- The rest of the text. -/
  rest : List Char
  /-- The line on which the rest starts. -/
  line : Nat
deriving DecidableEq, Inhabited

namespace Cursor

/-- The line after a character. -/
def lineAfter (line : Nat) (c : Char) : Nat :=
  if c = '\n' then line + 1 else line

end Cursor

/-! ### Trivia -/

/-- The text after the end of a block comment, if it is closed. -/
def skipBlockComment : List Char → Nat → Option Cursor
  | '*' :: '/' :: cs, line => some ⟨cs, line⟩
  | c :: cs, line => skipBlockComment cs (Cursor.lineAfter line c)
  | [], _ => none

/-- The text from the end of the line on. -/
def skipLineComment (cs : List Char) : List Char :=
  cs.dropWhile (fun c => c != '\n')

/-- A block comment is skipped by consuming characters. -/
theorem skipBlockComment_length {cs : List Char} {line : Nat} {p : Cursor}
    (h : skipBlockComment cs line = some p) : p.rest.length ≤ cs.length := by
  fun_induction skipBlockComment cs line with
  | case1 cs line =>
    cases h
    simp only [List.length_cons]
    omega
  | case2 line c cs _ ih =>
    have := ih h
    simp only [List.length_cons]
    omega
  | case3 => simp at h

/-- **Trivia.** Skips blanks and comments; an unclosed block comment is a fault, reported
on the line where the comment starts. -/
def skipTrivia (cs : List Char) (line : Nat) : Except ScanError Cursor :=
  match cs with
  | '/' :: '/' :: rest => skipTrivia (skipLineComment rest) line
  | '/' :: '*' :: rest =>
    match _h : skipBlockComment rest line with
    | some p => skipTrivia p.rest p.line
    | none => .error ⟨line, .openComment⟩
  | c :: rest =>
    if isBlank c then skipTrivia rest (Cursor.lineAfter line c) else .ok ⟨c :: rest, line⟩
  | [] => .ok ⟨[], line⟩
termination_by cs.length
decreasing_by
  · have := (List.dropWhile_suffix (l := rest) (fun c : Char => c != '\n')).length_le
    simp only [skipLineComment, List.length_cons]
    omega
  · have := skipBlockComment_length _h
    simp only [List.length_cons]
    omega
  · simp

/-! ### Lexemes -/

/-- **Lexemes** of a header. -/
inductive Lexeme where
  /-- An identifier or keyword. -/
  | word (text : String)
  /-- A string literal, with its value. -/
  | text (value : String)
  /-- An opening parenthesis. -/
  | opening
  /-- A closing parenthesis. -/
  | closing
  /-- A semicolon. -/
  | semicolon
  /-- A dot. -/
  | dot
  /-- Any other character. -/
  | other (character : Char)
deriving DecidableEq, Inhabited

/-- Characters that continue an identifier. -/
def isWordChar (c : Char) : Bool :=
  isAlphanumeric c || c == '_'

/-- Characters that start an identifier. -/
def isWordStart (c : Char) : Bool :=
  isAlphabetic c || c == '_'

/-- The fault of a literal that the text or the line ends. -/
def unterminated (line : Nat) : ScanError :=
  ⟨line, .openText⟩

/-- The character that an escape sequence stands for, if it is one of those that import
paths may use. -/
def escaped? (c : Char) : Option Char :=
  if c = '\\' || c = '\x22' then some c
  else if c = 'n' then some '\n'
  else if c = 't' then some '\t'
  else none

/-- An interpreted literal after its opening quote: its value and what follows it. -/
def readInterpreted (line : Nat) : List Char → Except ScanError (List Char × List Char)
  | [] => .error (unterminated line)
  | '\\' :: [] => .error (unterminated line)
  | '\\' :: c :: cs =>
    match escaped? c with
    | some e => (readInterpreted line cs).map (fun r => (e :: r.1, r.2))
    | none => .error ⟨Cursor.lineAfter line c, .unknownEscape c⟩
  | c :: cs =>
    if c = '\x22' then .ok ([], cs)
    else if c = '\n' then .error (unterminated (line + 1))
    else (readInterpreted line cs).map (fun r => (c :: r.1, r.2))

/-- A raw literal after its opening quote: its value, which keeps no carriage returns,
and what follows it. -/
def readRaw : List Char → Nat → Except ScanError (List Char × Cursor)
  | [], line => .error ⟨line, .openRawText⟩
  | c :: cs, line =>
    if c = '\x60' then .ok ([], ⟨cs, line⟩)
    else
      (readRaw cs (Cursor.lineAfter line c)).map
        (fun r => (if c = '\r' then r.1 else c :: r.1, r.2))

/-- **One lexeme** at the start of a text that begins with no trivia. -/
def readLexeme (c : Char) (cs : List Char) (line : Nat) :
    Except ScanError (Lexeme × Cursor) :=
  if c = '(' then .ok (.opening, ⟨cs, line⟩)
  else if c = ')' then .ok (.closing, ⟨cs, line⟩)
  else if c = ';' then .ok (.semicolon, ⟨cs, line⟩)
  else if c = '.' then .ok (.dot, ⟨cs, line⟩)
  else if c = '\x22' then
    (readInterpreted line cs).map (fun r => (.text (String.ofList r.1), ⟨r.2, line⟩))
  else if c = '\x60' then
    (readRaw cs line).map (fun r => (.text (String.ofList r.1), r.2))
  else if isWordStart c then
    .ok (.word (String.ofList (c :: cs.takeWhile isWordChar)),
      ⟨cs.dropWhile isWordChar, line⟩)
  else .ok (.other c, ⟨cs, line⟩)

/-- **The next lexeme** after leading trivia, or nothing at the end of the text; in both
cases with the position reached. -/
def nextLexeme (cs : List Char) (line : Nat) : Except ScanError (Option Lexeme × Cursor) :=
  match skipTrivia cs line with
  | .error e => .error e
  | .ok ⟨[], line'⟩ => .ok (none, ⟨[], line'⟩)
  | .ok ⟨c :: rest, line'⟩ => (readLexeme c rest line').map (fun r => (some r.1, r.2))

/-! ### Every lexeme shortens the text -/

/-- Trivia is skipped by consuming characters. -/
theorem skipTrivia_length {cs : List Char} {line : Nat} {p : Cursor}
    (h : skipTrivia cs line = .ok p) : p.rest.length ≤ cs.length := by
  fun_induction skipTrivia cs line with
  | case1 line rest ih =>
    have hs := (List.dropWhile_suffix (l := rest) (fun c : Char => c != '\n')).length_le
    have := ih h
    simp only [skipLineComment] at this
    simp only [List.length_cons]
    omega
  | case2 line rest q hq ih =>
    have hs := skipBlockComment_length hq
    have := ih h
    simp only [List.length_cons]
    omega
  | case3 => simp at h
  | case4 line c rest _ _ hb ih =>
    have := ih h
    simp only [List.length_cons]
    omega
  | case5 => cases h; simp
  | case6 => cases h; simp

/-- An interpreted literal is read by consuming characters. -/
theorem readInterpreted_length {line : Nat} {cs : List Char} {r : List Char × List Char}
    (h : readInterpreted line cs = .ok r) : r.2.length ≤ cs.length := by
  fun_induction readInterpreted line cs generalizing r with
  | case1 => simp at h
  | case2 => simp at h
  | case3 c cs e he ih =>
    cases hr : readInterpreted line cs with
    | error => simp [hr, Except.map] at h
    | ok q =>
      simp only [hr, Except.map, Except.ok.injEq] at h
      have := ih hr
      subst h
      simp only [List.length_cons]
      omega
  | case4 => simp at h
  | case5 => cases h; simp
  | case6 => simp at h
  | case7 c cs _ _ _ _ ih =>
    cases hr : readInterpreted line cs with
    | error => simp [hr, Except.map] at h
    | ok q =>
      simp only [hr, Except.map, Except.ok.injEq] at h
      have := ih hr
      subst h
      simp only [List.length_cons]
      omega

/-- A raw literal is read by consuming characters. -/
theorem readRaw_length {cs : List Char} {line : Nat} {r : List Char × Cursor}
    (h : readRaw cs line = .ok r) : r.2.rest.length ≤ cs.length := by
  fun_induction readRaw cs line generalizing r with
  | case1 => simp at h
  | case2 => cases h; simp
  | case3 c cs line _ ih =>
    cases hr : readRaw cs (Cursor.lineAfter line c) with
    | error => simp [hr, Except.map] at h
    | ok q =>
      simp only [hr, Except.map, Except.ok.injEq] at h
      have := ih hr
      subst h
      simp only [List.length_cons]
      omega

/-- A lexeme is read by consuming characters after its first one. -/
theorem readLexeme_length {c : Char} {cs : List Char} {line : Nat} {r : Lexeme × Cursor}
    (h : readLexeme c cs line = .ok r) : r.2.rest.length ≤ cs.length := by
  unfold readLexeme at h
  split at h
  · cases h; simp
  split at h
  · cases h; simp
  split at h
  · cases h; simp
  split at h
  · cases h; simp
  split at h
  · cases hr : readInterpreted line cs with
    | error => simp [hr, Except.map] at h
    | ok q =>
      simp only [hr, Except.map, Except.ok.injEq] at h
      subst h
      exact readInterpreted_length hr
  split at h
  · cases hr : readRaw cs line with
    | error => simp [hr, Except.map] at h
    | ok q =>
      simp only [hr, Except.map, Except.ok.injEq] at h
      subst h
      exact readRaw_length hr
  split at h
  · cases h; exact (List.dropWhile_suffix isWordChar).length_le
  · cases h; simp

/-- **Progress.** A lexeme leaves a shorter text. -/
theorem nextLexeme_length {cs : List Char} {line : Nat} {x : Lexeme} {p : Cursor}
    (h : nextLexeme cs line = .ok (some x, p)) : p.rest.length < cs.length := by
  unfold nextLexeme at h
  split at h
  · simp at h
  · simp at h
  · next c rest line' ht =>
    have := skipTrivia_length ht
    simp only [List.length_cons] at this
    cases hr : readLexeme c rest line' with
    | error => simp [hr, Except.map] at h
    | ok q =>
      simp only [hr, Except.map, Except.ok.injEq, Prod.mk.injEq] at h
      have := readLexeme_length hr
      rw [← h.2]
      omega

/-! ### The whole sequence -/

/-- **Sequences of lexemes.** -/
inductive Lexemes where
  /-- The text ends on the given line. -/
  | done (line : Nat)
  /-- The text has a fault here. -/
  | fault (error : ScanError)
  /-- A lexeme, the line after it, and what follows. -/
  | cons (lexeme : Lexeme) (line : Nat) (tail : Lexemes)
deriving Inhabited

/-- **All lexemes** of a text that starts on the given line. -/
def lexemes (cs : List Char) (line : Nat) : Lexemes :=
  match _h : nextLexeme cs line with
  | .error e => .fault e
  | .ok (none, p) => .done p.line
  | .ok (some x, p) => .cons x p.line (lexemes p.rest p.line)
termination_by cs.length
decreasing_by exact nextLexeme_length _h

end GoPlanner

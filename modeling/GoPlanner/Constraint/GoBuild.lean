import GoPlanner.Constraint.Basic
import GoPlanner.Text.Blank

/-!
# Reading Constraint Lines

A constraint line starts with `//go:build` and holds one expression:

    or   ::= and ("||" and)*
    and  ::= not ("&&" not)*
    not  ::= "!" not | atom
    atom ::= tag | "(" or ")"

The text is first cut into tokens, a tag being as long as possible. Each level of the
grammar is a function that returns the expression it has read together with the rest of
the tokens, and the proof that the rest is shorter; the recursion ends for that reason.

## Main definitions

* `isGoBuild`: whether a line is a constraint line.
* `Constraint.tokens`: the tokens of an expression.
* `Constraint.readOr`, `readAnd`, `readNot`, `readAtom`: the levels of the grammar.
* `parseGoBuild`: the expression of a constraint line.
-/

namespace GoPlanner

/-- The start of a constraint line. -/
def goBuildMark : String :=
  "//go:build"

/-- Whether a line is a constraint line: after the mark it ends, or a space or a tab
follows. -/
def isGoBuild (line : String) : Bool :=
  match goBuildMark.toList.isPrefixOf? line.toList with
  | some [] => true
  | some (c :: _) => c == ' ' || c == '\t'
  | none => false

namespace Constraint

/-- **Tokens.** Spaces and tabs separate; a tag is a maximal run of tag characters. -/
def tokens : List Char → Except ConstraintError (List Token)
  | [] => .ok []
  | '&' :: '&' :: cs => (tokens cs).map (.and :: ·)
  | '|' :: '|' :: cs => (tokens cs).map (.or :: ·)
  | c :: cs =>
    if c = ' ' || c = '\t' then tokens cs
    else if c = '(' then (tokens cs).map (.opening :: ·)
    else if c = ')' then (tokens cs).map (.closing :: ·)
    else if c = '!' then (tokens cs).map (.not :: ·)
    else if c = '&' || c = '|' then .error (.halfOperator c)
    else if isTagChar c then
      (tokens (cs.dropWhile isTagChar)).map
        (.tag (String.ofList (c :: cs.takeWhile isTagChar)) :: ·)
    else .error (.strayCharacter c)
termination_by cs => cs.length
decreasing_by
  all_goals simp only [List.length_cons]
  all_goals first
    | omega
    | exact Nat.lt_succ_of_le (List.dropWhile_suffix isTagChar).length_le

/-- What is left of `ts` after an expression has been read from it. -/
abbrev Reading (ts : List Token) : Type :=
  Except ConstraintError (Constraint × { rest : List Token // rest.length < ts.length })

mutual

/-- **Disjunctions:** conjunctions with `||` between them, grouped to the left. -/
def readOr (ts : List Token) : Reading ts :=
  match readAnd ts with
  | .error e => .error e
  | .ok (left, ⟨rest, h⟩) =>
    match readOrTail left rest with
    | .error e => .error e
    | .ok (e, ⟨rest', h'⟩) => .ok (e, ⟨rest', Nat.lt_of_le_of_lt h' h⟩)
termination_by (ts.length, 3)

/-- The disjuncts that follow a first one. -/
def readOrTail (left : Constraint) (ts : List Token) :
    Except ConstraintError (Constraint × { rest : List Token // rest.length ≤ ts.length }) :=
  match ts with
  | .or :: ts' =>
    match readAnd ts' with
    | .error e => .error e
    | .ok (right, ⟨rest, h⟩) =>
      match readOrTail (.or left right) rest with
      | .error e => .error e
      | .ok (e, ⟨rest', h'⟩) =>
        .ok (e, ⟨rest', by simp only [List.length_cons]; omega⟩)
  | ts' => .ok (left, ⟨ts', Nat.le_refl _⟩)
termination_by (ts.length, 4)

/-- **Conjunctions:** negations with `&&` between them, grouped to the left. -/
def readAnd (ts : List Token) : Reading ts :=
  match readNot ts with
  | .error e => .error e
  | .ok (left, ⟨rest, h⟩) =>
    match readAndTail left rest with
    | .error e => .error e
    | .ok (e, ⟨rest', h'⟩) => .ok (e, ⟨rest', Nat.lt_of_le_of_lt h' h⟩)
termination_by (ts.length, 2)

/-- The conjuncts that follow a first one. -/
def readAndTail (left : Constraint) (ts : List Token) :
    Except ConstraintError (Constraint × { rest : List Token // rest.length ≤ ts.length }) :=
  match ts with
  | .and :: ts' =>
    match readNot ts' with
    | .error e => .error e
    | .ok (right, ⟨rest, h⟩) =>
      match readAndTail (.and left right) rest with
      | .error e => .error e
      | .ok (e, ⟨rest', h'⟩) =>
        .ok (e, ⟨rest', by simp only [List.length_cons]; omega⟩)
  | ts' => .ok (left, ⟨ts', Nat.le_refl _⟩)
termination_by (ts.length, 4)

/-- **Negations:** an atom after any number of exclamation marks. -/
def readNot (ts : List Token) : Reading ts :=
  match ts with
  | .not :: ts' =>
    match readNot ts' with
    | .error e => .error e
    | .ok (inner, ⟨rest, h⟩) =>
      .ok (.not inner, ⟨rest, by simp only [List.length_cons]; omega⟩)
  | ts' => readAtom ts'
termination_by (ts.length, 1)

/-- **Atoms:** a tag, or a disjunction in parentheses. -/
def readAtom (ts : List Token) : Reading ts :=
  match ts with
  | [] => .error .endOfExpression
  | .tag name :: ts' => .ok (.tag name, ⟨ts', by simp⟩)
  | .opening :: ts' =>
    match readOr ts' with
    | .error e => .error e
    | .ok (e, ⟨.closing :: rest, h⟩) =>
      .ok (e, ⟨rest, by simp only [List.length_cons] at h ⊢; omega⟩)
    | .ok (_, _) => .error .missingParenthesis
  | token :: _ => .error (.unexpected token)
termination_by (ts.length, 0)

end

/-- The expression that a whole list of tokens stands for. -/
def ofTokens (ts : List Token) : Except ConstraintError Constraint :=
  if ts.isEmpty then .error .emptyExpression
  else
    match readOr ts with
    | .error e => .error e
    | .ok (e, ⟨[], _⟩) => .ok e
    | .ok (_, ⟨token :: _, _⟩) => .error (.trailing token)

end Constraint

/-- **The expression of a constraint line.** Blanks around the line are ignored. -/
def parseGoBuild (line : String) : Except ConstraintError Constraint :=
  match goBuildMark.toList.isPrefixOf? (Text.trim line.toList) with
  | none => .error .notGoBuild
  | some text => (Constraint.tokens text).bind Constraint.ofTokens

end GoPlanner

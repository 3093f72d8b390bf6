import GoPlanner.Text.Letter

/-!
# Build Constraints

A build constraint is a Boolean expression over build tags. This module holds the
expressions, their meaning, their written form, and the tokens of that form; reading a
constraint from a comment line is done in `GoPlanner.Constraint.GoBuild` and
`GoPlanner.Constraint.PlusBuild`.

## Main definitions

* `Constraint`: expressions over tags.
* `Constraint.eval`: the truth of an expression when a predicate says which tags hold.
* `Constraint.display`: the written form, with as few parentheses as it needs to be read
  back with the same meaning.
* `ConstraintError`: what can be wrong with a constraint line, and
  `ConstraintError.message`.
-/

namespace GoPlanner

/-- **Build constraints.** -/
inductive Constraint where
  /-- A tag, true when it is enabled. -/
  | tag (name : String)
  /-- Negation. -/
  | not (inner : Constraint)
  /-- Conjunction. -/
  | and (left right : Constraint)
  /-- Disjunction. -/
  | or (left right : Constraint)
deriving DecidableEq, Inhabited

namespace Constraint

/-- **Truth** of a constraint, given which tags are enabled. -/
def eval (enabled : String → Bool) : Constraint → Bool
  | tag name => enabled name
  | not inner => !inner.eval enabled
  | and left right => left.eval enabled && right.eval enabled
  | or left right => left.eval enabled || right.eval enabled

/-- A text, in parentheses if the flag is set. -/
def enclosed (parens : Bool) (text : String) : String :=
  if parens then "(" ++ text ++ ")" else text

/-- Whether the outermost operator is a disjunction. -/
def isOr : Constraint → Bool
  | or _ _ => true
  | _ => false

/-- Whether the outermost operator takes two operands. -/
def isBinary : Constraint → Bool
  | and _ _ => true
  | or _ _ => true
  | _ => false

/-- **The written form.** A negation encloses operands with two operands of their own, a
conjunction encloses disjunctions, and a disjunction encloses nothing. -/
def display : Constraint → String
  | tag name => name
  | not inner => "!" ++ enclosed inner.isBinary inner.display
  | and left right =>
    enclosed left.isOr left.display ++ " && " ++ enclosed right.isOr right.display
  | or left right => left.display ++ " || " ++ right.display

/-- Characters that tags are made of. -/
def isTagChar (c : Char) : Bool :=
  isAlphanumeric c || c == '_' || c == '.'

/-- A tag is **valid** when it is not empty and made of tag characters. -/
def isValidTag (name : String) : Bool :=
  !name.toList.isEmpty && name.toList.all isTagChar

/-- **Tokens** of the written form. -/
inductive Token where
  /-- A maximal run of tag characters. -/
  | tag (name : String)
  /-- An exclamation mark. -/
  | not
  /-- Two ampersands. -/
  | and
  /-- Two bars. -/
  | or
  /-- An opening parenthesis. -/
  | opening
  /-- A closing parenthesis. -/
  | closing
deriving DecidableEq, Inhabited

/-- How a token is quoted in messages. -/
def Token.display : Token → String
  | tag name => "tag '" ++ name ++ "'"
  | not => "'!'"
  | and => "'&&'"
  | or => "'||'"
  | opening => "'('"
  | closing => "')'"

end Constraint

/-- **What can be wrong with a constraint line.** -/
inductive ConstraintError where
  /-- The line does not start as a constraint line. -/
  | notGoBuild
  /-- The line holds no expression. -/
  | emptyExpression
  /-- A whole expression is followed by another token. -/
  | trailing (token : Constraint.Token)
  /-- A token stands where an operand is needed. -/
  | unexpected (token : Constraint.Token)
  /-- The expression ends where an operand is needed. -/
  | endOfExpression
  /-- An opening parenthesis is not closed. -/
  | missingParenthesis
  /-- An operator is written with one character in place of two. -/
  | halfOperator (character : Char)
  /-- A character that starts no token. -/
  | strayCharacter (character : Char)
  /-- The line does not start as a legacy constraint line. -/
  | notPlusBuild
  /-- A term of a legacy constraint line is not a tag or its negation. -/
  | invalidTerm (term : String)
deriving DecidableEq, Inhabited

namespace ConstraintError

/-- The cause in words. -/
def detail : ConstraintError → String
  | notGoBuild => "not a //go:build line"
  | emptyExpression => "empty //go:build expression"
  | trailing token => "unexpected " ++ token.display ++ " in //go:build line"
  | unexpected token => "unexpected " ++ token.display
  | endOfExpression => "unexpected end of expression"
  | missingParenthesis => "missing ')'"
  | halfOperator c => "expected '" ++ String.ofList [c, c] ++ "'"
  | strayCharacter c => "unexpected character '" ++ String.ofList [c] ++ "'"
  | notPlusBuild => "not a +build line"
  | invalidTerm term => "invalid term '" ++ term ++ "' in +build line"

/-- The message for the user. -/
def message (e : ConstraintError) : String :=
  "invalid build constraint: " ++ e.detail

end ConstraintError

end GoPlanner

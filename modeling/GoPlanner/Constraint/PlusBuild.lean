import GoPlanner.Constraint.Basic
import GoPlanner.Text.Blank

/-!
# Legacy Constraint Lines

A legacy line starts with `//`, blanks and `+build`. What follows is a list of clauses
between blanks, of which one has to hold; a clause is a list of terms between commas, all
of which have to hold; a term is a tag or a negated tag. A line without clauses never
holds, and is read as the tag `ignore`.

## Main definitions

* `isPlusBuild`: whether a line is a legacy constraint line.
* `Constraint.ofTerm`, `Constraint.ofClause`, `Constraint.ofClauses`: the levels.
* `parsePlusBuild`: the expression of a legacy line.
-/

namespace GoPlanner

/-- The word that marks a legacy constraint line. -/
def plusBuildMark : String :=
  "+build"

/-- Whether a line is a legacy constraint line: a comment whose first word is the mark. -/
def isPlusBuild (line : String) : Bool :=
  match "//".toList.isPrefixOf? line.toList with
  | some rest => (Text.words rest).head? == some plusBuildMark.toList
  | none => false

namespace Constraint

/-- **Terms:** a valid tag, or an exclamation mark and a valid tag. -/
def ofTerm (term : List Char) : Except ConstraintError Constraint :=
  match term with
  | '!' :: name =>
    if isValidTag (String.ofList name) then .ok (.not (.tag (String.ofList name)))
    else .error (.invalidTerm (String.ofList term))
  | name =>
    if isValidTag (String.ofList name) then .ok (.tag (String.ofList name))
    else .error (.invalidTerm (String.ofList term))

/-- Several expressions joined by an operator, grouped to the left. -/
def joined (operator : Constraint → Constraint → Constraint) :
    List Constraint → Option Constraint
  | [] => none
  | e :: es => some (es.foldl operator e)

/-- **Clauses:** the conjunction of the terms between commas. -/
def ofClause (clause : List Char) : Except ConstraintError (Option Constraint) :=
  ((clause.splitOn ',').mapM ofTerm).map (joined .and)

/-- **Lists of clauses:** their disjunction, or the tag `ignore` if there is none. -/
def ofClauses (clauses : List (List Char)) : Except ConstraintError Constraint :=
  (clauses.mapM ofClause).map
    (fun es => (joined .or (es.filterMap id)).getD (.tag "ignore"))

end Constraint

/-- **The expression of a legacy line.** Blanks around the line are ignored. -/
def parsePlusBuild (line : String) : Except ConstraintError Constraint :=
  match "//".toList.isPrefixOf? (Text.trim line.toList) with
  | none => .error .notPlusBuild
  | some rest =>
    match plusBuildMark.toList.isPrefixOf? (Text.trimStart rest) with
    | none => .error .notPlusBuild
    | some text => Constraint.ofClauses (Text.words text)

end GoPlanner

import GoPlanner.Shell.State
import GoPlanner.Text.Wildcard

/-!
# Fields

An expanded word is a row of marks: characters, of which some are quoted and some come
from values that may be divided, and the places where one field ends and another one
begins. The marks are divided into fields at the characters of a variable, and a field
that is a wildcard stands for the names of files that fit it.

## Main definitions

* `Shell.Mark`: the marks of an expanded word.
* `Shell.fields`: the fields that marks are divided into.
* `Shell.fileNames`: the files whose names fit a field.
-/

namespace GoPlanner

namespace Shell

/-- **A mark** of an expanded word. -/
inductive Mark where
  /-- A character. -/
  | character (c : Char) (isQuoted isDivisible : Bool)
  /-- There is a field here, even if nothing stands in it. -/
  | field
  /-- Between two fields. -/
  | gap
deriving DecidableEq, Inhabited

/-- The marks of a value. -/
def marksOf (isQuoted isDivisible : Bool) (value : String) : List Mark :=
  value.toList.map (fun c => .character c isQuoted (isDivisible && !isQuoted))

/-- The characters of marks, without regard to fields. -/
def charactersOfMarks (marks : List Mark) : Wildcard.Marked :=
  marks.filterMap (fun
    | .character c isQuoted _ => some (c, isQuoted)
    | _ => none)

/-- The text of marks, without regard to fields. -/
def textOfMarks (marks : List Mark) : String :=
  String.ofList ((charactersOfMarks marks).map (·.1))

/-! ### Dividing -/

/-- The separators between fields that are blanks. -/
def isBlankSeparator (c : Char) : Bool :=
  c == ' ' || c == '\t' || c == '\n'

/-- **The fields of marks.** Blank separators are taken together, also with one other
separator; each further separator ends a field of its own. The field that has begun and
whether a separator may still be taken together with the last one are handed on. -/
def divide (separators : List Char) (begun : Option Wildcard.Marked) (isOpen : Bool) :
    List Mark → List Wildcard.Marked
  | [] => begun.toList
  | .field :: marks => divide separators (some (begun.getD [])) false marks
  | .gap :: marks => begun.toList ++ divide separators none false marks
  | .character c isQuoted isDivisible :: marks =>
    if isDivisible && separators.contains c then
      match begun with
      | some field =>
        field :: divide separators none (isBlankSeparator c) marks
      | none =>
        if isBlankSeparator c then divide separators none isOpen marks
        else if isOpen then divide separators none false marks
        else [] :: divide separators none false marks
    else divide separators (some (begun.getD [] ++ [(c, isQuoted)])) false marks

/-- The separators of a shell. -/
def separatorsOf (s : State) : List Char :=
  match s.bindings.lookup "IFS" with
  | some { value := some ifs, .. } => ifs.toList
  | _ => [' ', '\t', '\n']

/-- **The fields of marks** under the separators of a shell. -/
def fields (s : State) (marks : List Mark) : List Wildcard.Marked :=
  divide (separatorsOf s) none false marks

/-! ### Names of files -/

/-- The steps of a field, between its slashes. -/
def stepsOf (field : Wildcard.Marked) : List Wildcard.Marked :=
  field.splitOnP (fun c => c.1 == '/')

/-- Whether anything stands at a path; a link counts by itself. -/
def isNamed (t : FileTree) (text : String) : Bool :=
  t.isPresent (pathOf text) || t.isLink (pathOf text)

/-- The texts of the paths that fit steps behind a text. -/
def fitting (t : FileTree) (before : String) : List Wildcard.Marked → List String
  | [] => if isNamed t before then [before] else []
  | step :: steps =>
    let pattern := Wildcard.ofMarked step
    let separator := if steps.isEmpty then "" else "/"
    if pattern.isOpen then
      let directory := if before = "" then "." else before
      match t.list (pathOf directory) with
      | .error _ => []
      | .ok (_, names) =>
        let names := names.map Octets.ofText
        let isHidden := match step with
          | ('.', _) :: _ => true
          | _ => false
        let names := if isHidden then "." :: ".." :: names else names
        (names.filter (fun name =>
          (isHidden || !name.startsWith ".") && pattern.fits name.toList)).flatMap
            (fun name => fitting t (before ++ name ++ separator) steps)
    else fitting t (before ++ String.ofList (step.map (·.1)) ++ separator) steps

/-- **The files whose names fit a field,** in the order of their names; a field that is no
wildcard or that no name fits stands for itself. -/
def fileNames (t : FileTree) (field : Wildcard.Marked) : List String :=
  let itself := String.ofList (field.map (·.1))
  if (stepsOf field).any (fun step => (Wildcard.ofMarked step).isOpen) then
    match (fitting t "" (stepsOf field)).mergeSort (fun a b => decide (a ≤ b)) with
    | [] => [itself]
    | names => names
  else [itself]

end Shell

end GoPlanner

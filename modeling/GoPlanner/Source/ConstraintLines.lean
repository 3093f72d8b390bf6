import GoPlanner.Constraint.GoBuild
import GoPlanner.Constraint.PlusBuild
import GoPlanner.Source.Lexeme

/-!
# The Constraint Lines of a Source File

Constraints stand in the leading part of a file, the run of blank lines and comments
before any other text. A constraint line may stand anywhere in it outside a block
comment, but only once; a legacy line counts only if a blank line follows it while every
line so far is blank or starts as a line comment.

A line is cut at the comments that open and close in it. What remains decides whether
the leading part goes on, and whether the next line starts inside a block comment.

## Main definitions

* `ConstraintLine` and `ConstraintLines`: what is found.
* `Leading.afterComments`: the state in which a line leaves the reader.
* `scanConstraints`: the constraint lines of a source text.
-/

namespace GoPlanner

/-- **A constraint line** and its number, counted from 1. -/
structure ConstraintLine where
  /-- The number of the line. -/
  line : Nat
  /-- The text of the line, trimmed. -/
  text : String
deriving DecidableEq, Inhabited

/-- **The constraint lines** of a file. -/
structure ConstraintLines where
  /-- The constraint line, if there is one. -/
  goBuild : Option ConstraintLine
  /-- The legacy lines that count, in order. -/
  plusBuild : List ConstraintLine
deriving DecidableEq, Inhabited

namespace Leading

/-- Where a line leaves the reader of the leading part. -/
inductive State where
  /-- Outside block comments. -/
  | outside
  /-- Inside a block comment. -/
  | inside
  /-- Other text has been met: the leading part is over. -/
  | over
deriving DecidableEq, Inhabited

/-- The text after the end of a block comment. -/
def closing? : List Char → Option (List Char)
  | '*' :: '/' :: cs => some cs
  | _ :: cs => closing? cs
  | [] => none

/-- The text after the end of a block comment is shorter. -/
theorem closing?_length {cs rest : List Char} (h : closing? cs = some rest) :
    rest.length < cs.length := by
  fun_induction closing? cs with
  | case1 cs =>
    cases h
    simp only [List.length_cons]
    omega
  | case2 c cs _ ih =>
    have := ih h
    simp only [List.length_cons]
    omega
  | case3 => simp at h

/-- Trimming does not lengthen a text. -/
theorem trim_length (cs : List Char) : (Text.trim cs).length ≤ cs.length := by
  have h1 := (List.dropWhile_suffix (l := cs) isBlank).length_le
  have h2 := (List.dropWhile_suffix (l := (cs.dropWhile isBlank).reverse) isBlank).length_le
  simp only [Text.trim, Text.trimEnd, Text.trimStart, List.length_reverse] at h2 ⊢
  omega

/-- **The state after a line.** Starts inside a block comment or not, and reads over the
comments of the line up to its end or to other text. -/
def afterComments (inside : Bool) (cs : List Char) : State :=
  if cs = [] then (if inside then .inside else .outside)
  else if inside then
    match _h : closing? cs with
    | some rest => afterComments false (Text.trim rest)
    | none => .inside
  else
    match cs with
    | '/' :: '/' :: _ => .outside
    | '/' :: '*' :: rest => afterComments true (Text.trim rest)
    | _ => .over
termination_by cs.length
decreasing_by
  · exact Nat.lt_of_le_of_lt (trim_length _) (closing?_length _h)
  · have := trim_length rest
    simp only [List.length_cons]
    omega

/-- What has been found before the current line. -/
structure Found where
  /-- Whether the line starts inside a block comment. -/
  inside : Bool
  /-- Whether some line was neither blank nor started as a line comment. -/
  ended : Bool
  /-- The constraint line. -/
  goBuild : Option ConstraintLine
  /-- The legacy lines after the last blank line that counts. -/
  pending : List ConstraintLine
  /-- The legacy lines before the last blank line that counts. -/
  plusBuild : List ConstraintLine
deriving Inhabited

/-- The constraint lines found when the leading part is over. -/
def Found.result (f : Found) : ConstraintLines :=
  ⟨f.goBuild, f.plusBuild⟩

/-- **Reads the leading part,** line by line, from the given line number on. -/
def read (f : Found) (number : Nat) : List (List Char) → Except ScanError ConstraintLines
  | [] => .ok f.result
  | raw :: later =>
    let cs := Text.trim raw
    let text := String.ofList cs
    if cs = [] && !f.ended then
      read { f with pending := [], plusBuild := f.plusBuild ++ f.pending } (number + 1) later
    else if !f.inside && isGoBuild text && f.goBuild.isSome then
      .error ⟨number, .repeatedConstraint⟩
    else
      let goBuild := if !f.inside && isGoBuild text then some ⟨number, text⟩ else f.goBuild
      let pending := if isPlusBuild text then f.pending ++ [⟨number, text⟩] else f.pending
      let ended := f.ended || !"//".toList.isPrefixOf cs
      let next (inside : Bool) : Found := ⟨inside, ended, goBuild, pending, f.plusBuild⟩
      match afterComments f.inside cs with
      | .over => .ok (next f.inside).result
      | .outside => read (next false) (number + 1) later
      | .inside => read (next true) (number + 1) later

end Leading

/-- **The constraint lines of a source text,** after a byte order mark if there is one. -/
def scanConstraints (src : String) : Except ScanError ConstraintLines :=
  Leading.read ⟨false, false, none, [], []⟩ 1 (Text.lines (Text.dropByteOrderMark src.toList))

end GoPlanner

import GoPlanner.Constraint.Basic

/-!
# Faults of Source Files

Of a source file only the header and the constraint lines are read, so only they can be at
fault. A fault is reported with the line on which reading stood.

## Main definitions

* `ScanFault`: what can be wrong.
* `ScanError`: a fault with its line.
-/

namespace GoPlanner

/-- **What can be wrong** with a source file. -/
inductive ScanFault where
  /-- A block comment is not closed. -/
  | openComment
  /-- A string literal is ended by the line or the text. -/
  | openText
  /-- A raw string literal is not closed. -/
  | openRawText
  /-- An import path has an escape that it may not use. -/
  | unknownEscape (character : Char)
  /-- The file does not start with its package clause. -/
  | noPackage
  /-- The package clause has no name. -/
  | noPackageName
  /-- An import path is empty. -/
  | emptyImportPath
  /-- An import has no path. -/
  | noImportPath
  /-- A block of imports is not closed. -/
  | openBlock
  /-- There is a second constraint line. -/
  | repeatedConstraint
  /-- A constraint is malformed. -/
  | badConstraint (error : ConstraintError)
deriving DecidableEq, Inhabited

/-- The fault in words. -/
def ScanFault.detail : ScanFault → String
  | openComment => "comment not terminated"
  | openText => "string literal not terminated"
  | openRawText => "raw string literal not terminated"
  | unknownEscape c => "unsupported escape '\\" ++ String.ofList [c] ++ "' in import path"
  | noPackage => "expected 'package'"
  | noPackageName => "expected package name"
  | emptyImportPath => "empty import path"
  | noImportPath => "expected import path"
  | openBlock => "unterminated import block"
  | repeatedConstraint => "multiple //go:build comments"
  | badConstraint e => e.message

/-- **A fault of a source text,** with the line that the message names. -/
structure ScanError where
  /-- The line, counted from 1. -/
  line : Nat
  /-- What is wrong. -/
  fault : ScanFault
deriving DecidableEq, Inhabited

/-- The message for the user. -/
def ScanError.message (e : ScanError) : String :=
  "line " ++ toString e.line ++ ": " ++ e.fault.detail

end GoPlanner

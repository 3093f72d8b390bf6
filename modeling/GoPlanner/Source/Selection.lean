import GoPlanner.Source.ConstraintLines
import GoPlanner.Target

/-!
# Which Files Belong to a Target

A file belongs to a target when its name and its constraint lines say so. Names that
start with an underscore or a dot never do; a name that ends in an operating system, an
architecture, or both, after underscores, is tied to them.

## Main definitions

* `Target.satisfies`: the tags that hold for a target.
* `Target.fitsPlatform`: the rule for the endings of file names.
* `Target.fitsName`: all rules that need only the name.
* `Target.fitsConstraints`: the constraint lines of the text.
* `Target.includes`: both together.
-/

namespace GoPlanner

/-- The number that a text of decimal digits stands for, after an optional plus sign, if
it is below `2 ^ 32`. -/
def decimal32? (cs : List Char) : Option Nat :=
  let digits := match cs with
    | '+' :: rest => rest
    | rest => rest
  if digits.isEmpty || !digits.all Char.isDigit then none
  else
    let n := digits.foldl (fun n c => n * 10 + (c.toNat - 48)) 0
    if n < 4294967296 then some n else none

namespace Target

/-- Whether a name is the tag of a release up to that of the target. -/
def isReleaseTag (t : Target) (name : String) : Bool :=
  match ("go1.".toList.isPrefixOf? name.toList).bind decimal32? with
  | some minor => 1 ≤ minor && minor ≤ t.goMinor
  | none => false

/-- Tags that hold on a system because of another one that it is built on, because of its
family, or because of the toolchain. -/
def isImplied (t : Target) (name : String) : Bool :=
  if name = "linux" then t.goos == "android"
  else if name = "solaris" then t.goos == "illumos"
  else if name = "darwin" then t.goos == "ios"
  else if name = "unix" then unixSystems.contains t.goos
  else if name = "cgo" then t.cgoEnabled
  else if name = "gc" then true
  else t.isReleaseTag name

/-- **Tags that hold** for a target. -/
def satisfies (t : Target) (name : String) : Bool :=
  name != "" &&
    (t.tags.contains name || name == t.goos || name == t.goarch || t.isImplied name)

/-- The parts between underscores at the end of a file name that may name a platform: the
name up to its first dot, from its first underscore on, less a last part `test`. -/
def platformParts (name : String) : List String :=
  let stem := name.toList.takeWhile (fun c => c != '.')
  let ending := stem.dropWhile (fun c => c != '_')
  let parts := if ending.isEmpty then [] else (ending.splitOn '_').map String.ofList
  if parts.getLast? = some "test" then parts.dropLast else parts

/-- **The rule for endings of file names.** A known system followed by a known
architecture, or one of them alone, must hold for the target. -/
def fitsPlatform (t : Target) (name : String) : Bool :=
  match (platformParts name).reverse with
  | [] => true
  | [last] =>
    if knownSystems.contains last || knownArchitectures.contains last then t.satisfies last
    else true
  | last :: before :: _ =>
    if knownSystems.contains before && knownArchitectures.contains last then
      t.satisfies last && t.satisfies before
    else if knownSystems.contains last || knownArchitectures.contains last then
      t.satisfies last
    else true

/-- **The rules that need only the name** of a file. -/
def fitsName (t : Target) (name : String) : Bool :=
  !startsWith "_" name && !startsWith "." name && t.fitsPlatform name

/-- Whether every legacy line holds; lines behind one that does not hold are not read. -/
def fitsPlusBuild (t : Target) : List ConstraintLine → Except ScanError Bool
  | [] => .ok true
  | c :: cs =>
    match parsePlusBuild c.text with
    | .error e => .error ⟨c.line, .badConstraint e⟩
    | .ok e => if e.eval t.satisfies then fitsPlusBuild t cs else .ok false

/-- **The constraint lines** of a source text: the constraint line alone if there is one,
else all legacy lines that count. -/
def fitsConstraints (t : Target) (src : String) : Except ScanError Bool :=
  match scanConstraints src with
  | .error e => .error e
  | .ok found =>
    match found.goBuild with
    | some c =>
      match parseGoBuild c.text with
      | .error e => .error ⟨c.line, .badConstraint e⟩
      | .ok e => .ok (e.eval t.satisfies)
    | none => t.fitsPlusBuild found.plusBuild

/-- **Membership** of a file: its name first, then its text. -/
def includes (t : Target) (name src : String) : Except ScanError Bool :=
  if t.fitsName name then t.fitsConstraints src else .ok false

end Target

end GoPlanner

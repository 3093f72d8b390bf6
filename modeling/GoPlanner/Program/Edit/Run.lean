import GoPlanner.Program.Edit.Script
import GoPlanner.Program.Option

/-!
# Editing Lines

A script is run for one line after the other. It works on a text, which begins as the
line, and may keep another text from line to line. At the end of the script the text is
printed, and then what is to be printed behind it.

## Main definitions

* `Program.Edit.Machine`: the state of a run.
* `Program.Edit.isChosen`: whether an instruction is for the line.
* `Program.Edit.substituted`: changes of a text.
* `Program.Edit.execute`, `Program.Edit.cycles`: runs of a script.
* `Program.sed`: the program.
-/

namespace GoPlanner

namespace Program

namespace Edit

/-! ### States -/

/-- A line of the input, and whether it is ended. -/
abbrev Line : Type :=
  String × Bool

/-- A text that is printed behind the line. -/
inductive Pending where
  /-- The text itself. -/
  | text (text : String)
  /-- The content of a file. -/
  | file (name : String)
deriving DecidableEq, Inhabited

/-- What is known of a range of lines. -/
inductive RangeState where
  /-- It goes on, maybe up to the line of a number. -/
  | active (last : Option Nat)
  /-- It is over. -/
  | over
deriving DecidableEq, Inhabited

/-- **The state of a run.** -/
structure Machine where
  /-- The files. -/
  tree : FileTree
  /-- The lines that are left. -/
  left : List Line
  /-- Whether texts are printed only if that is asked for. -/
  isQuiet : Bool := false
  /-- The name of the input. -/
  fileName : String := "-"
  /-- The text. -/
  space : String := ""
  /-- Whether the line of the text is ended. -/
  isEnded : Bool := true
  /-- What is kept. -/
  kept : String := ""
  /-- The number of the line. -/
  number : Nat := 0
  /-- What is to be printed behind the line. -/
  pending : List Pending := []
  /-- What was printed. -/
  output : String := ""
  /-- Whether the end of a line is missing at the end of that. -/
  lacksEnd : Bool := false
  /-- What was written to files. -/
  written : List (String × String) := []
  /-- The ranges, by the numbers of their instructions. -/
  ranges : List (Nat × RangeState) := []
  /-- Whether the line was changed. -/
  isChanged : Bool := false
  /-- What was looked for last. -/
  latest : Option Sought := none
  /-- Whether there was nothing to look for. -/
  isLost : Bool := false
deriving Inhabited

namespace Machine

/-- Prints a text as it is. -/
def printRaw (text : String) (m : Machine) : Machine :=
  { m with
    output := m.output ++ (if m.lacksEnd then "\n" else "") ++ text
    lacksEnd := false }

/-- Prints a line. -/
def printLine (text : String) (m : Machine) : Machine :=
  { m.printRaw (text ++ (if m.isEnded then "\n" else "")) with lacksEnd := !m.isEnded }

/-- Writes a line to a file. -/
def writeLine (name : String) (m : Machine) : Machine :=
  if name = "/dev/stdout" then m.printLine m.space
  else
    let before := (m.written.lookup name).getD ""
    { m with written := (name, before ++ m.space ++ "\n") ::
        m.written.filter (fun w => w.1 != name) }

/-- Prints what is to be printed behind the line. -/
def printPending (m : Machine) : Machine :=
  m.pending.foldl (fun m p =>
    match p with
    | .text text => m.printRaw text
    | .file name =>
      match m.tree.content (pathOf name) with
      | .ok c => m.printRaw (Octets.ofContent c)
      | .error _ => m) { m with pending := [] }

/-- The state with the next line, if there is one. -/
def next? (m : Machine) : Option (Machine × Line) :=
  match m.left with
  | [] => none
  | line :: left =>
    let m := m.printPending
    some ({ m with
      left := left, number := m.number + 1, isEnded := line.2, isChanged := false }, line)

end Machine

/-! ### Choosing lines -/

/-- What is looked for, if it is known. -/
def resolve (sought : Sought) (m : Machine) : Option Sought × Machine :=
  match sought.expression with
  | some _ => (some sought, { m with latest := some sought })
  | none =>
    match m.latest with
    | some latest => (some { latest with foldsCase := latest.foldsCase || sought.foldsCase }, m)
    | none => (none, { m with isLost := true })

/-- Whether an address is the one of the line. -/
def isAt (a : Address) (m : Machine) : Bool × Machine :=
  match a with
  | .line n => (m.number == n, m)
  | .last => (m.left.isEmpty, m)
  | .stepped first step =>
    (if step = 0 then m.number == first
      else decide (first ≤ m.number) && (m.number - first) % step == 0, m)
  | .holding sought =>
    match resolve sought m with
    | (some ⟨some (r, _), foldsCase⟩, m) => (r.isFound foldsCase m.space.toList.toArray, m)
    | (_, m) => (false, m)

/-- Notes what is known of a range. -/
def note (index : Nat) (s : RangeState) (m : Machine) : Machine :=
  { m with ranges := (index, s) :: m.ranges.filter (fun r => r.1 != index) }

/-- A range whose first line this is. -/
def beginRange (index : Nat) (stop : RangeEnd) (m : Machine) : Machine :=
  let upTo (n : Nat) : Machine :=
    if n ≤ m.number then note index .over m else note index (.active (some n)) m
  match stop with
  | .upTo (.line n) => upTo n
  | .upTo .last => if m.left.isEmpty then note index .over m else note index (.active none) m
  | .upTo _ => note index (.active none) m
  | .more n => upTo (m.number + n)
  | .multiple n => if n = 0 then note index .over m else upTo ((m.number / n + 1) * n)

/-- Whether a line belongs to a range that goes on. -/
def continueRange (index : Nat) (stop : RangeEnd) (last : Option Nat) (m : Machine) :
    Bool × Machine :=
  match last, stop with
  | some n, _ =>
    if m.number < n then (true, m) else (m.number == n, note index .over m)
  | none, .upTo a =>
    match isAt a m with
    | (true, m) => (true, note index .over m)
    | (false, m) => (true, m)
  | none, _ => (true, m)

/-- Whether a line is among the ones of an instruction, apart from a negation. -/
def isAmong (index : Nat) (lines : Lines) (m : Machine) : Bool × Machine :=
  match lines.first, lines.stop with
  | none, _ => (true, m)
  | some a, none => isAt a m
  | some a, some stop =>
    match m.ranges.lookup index, a with
    | some (.active last), _ => continueRange index stop last m
    | none, .line 0 => continueRange index stop none (note index (.active none) m)
    | _, _ =>
      match isAt a m with
      | (true, m) => (true, beginRange index stop m)
      | (false, m) => (false, m)

/-- **Whether an instruction is for the line.** -/
def isChosen (index : Nat) (lines : Lines) (m : Machine) : Bool × Machine :=
  let (found, m) := isAmong index lines m
  (found != lines.isNegated, m)

/-! ### Changing texts -/

/-- A text in the cases that are asked for, for the next letter and for the others. -/
def inCases (nextCasing casing : Casing) : List Char → List Char
  | [] => []
  | c :: cs =>
    let under (k : Casing) : Char :=
      match k with
      | .upper => c.toUpper
      | .upperNext => c.toUpper
      | .lower => c.toLower
      | .lowerNext => c.toLower
      | .kept => c
    (if nextCasing = .kept then under casing else under nextCasing) :: inCases .kept casing cs

/-- What is put for what was found, under the cases that are asked for. -/
def filled (text : Array Char) (f : Regular.Found) (nextCasing casing : Casing) :
    List Part → List Char
  | [] => []
  | .character c :: parts =>
    inCases nextCasing casing [c] ++ filled text f .kept casing parts
  | .group n :: parts =>
    let said := if n = 0 then Regular.part text f.start f.stop
      else match f.groups.lookup n with
        | some (start, stop) => Regular.part text start stop
        | none => []
    inCases nextCasing casing said ++
      filled text f (if said.isEmpty then nextCasing else .kept) casing parts
  | .casing k :: parts =>
    match k with
    | .upperNext => filled text f k casing parts
    | .lowerNext => filled text f k casing parts
    | _ => filled text f nextCasing k parts

/-- **A text with what is put for what is found,** from a position on, and whether
anything was put. The number of places before, and where the last one ended, are handed
on; the first number bounds the places. -/
def substituted (r : Regular) (c : Change) (foldsCase : Bool) (text : Array Char) :
    Nat → Nat → Nat → Option Nat → List Char × Bool
  | 0, start, _, _ => (Regular.part text start text.size, false)
  | n + 1, start, count, before =>
    match r.find? foldsCase text start with
    | none => (Regular.part text start text.size, false)
    | some f =>
      let first := Regular.part text start f.start
      let isEmpty := f.start == f.stop
      let skipped := if isEmpty then Regular.part text f.stop (f.stop + 1) else []
      let after := if isEmpty then f.stop + 1 else f.stop
      if isEmpty && before = some f.start then
        if text.size < after then (first, false)
        else
          let later := substituted r c foldsCase text n after count none
          (first ++ skipped ++ later.1, later.2)
      else if count + 1 < c.occurrence then
        if text.size < after then (first, false)
        else
          let later := substituted r c foldsCase text n after (count + 1) (some f.stop)
          (first ++ Regular.part text f.start f.stop ++ skipped ++ later.1, later.2)
      else
        let put := filled text f .kept .kept c.parts
        if !c.isGlobal then (first ++ put ++ Regular.part text f.stop text.size, true)
        else if text.size < after then (first ++ put, true)
        else
          let later := substituted r c foldsCase text n after (count + 1)
            (if isEmpty then none else some f.stop)
          (first ++ put ++ skipped ++ later.1, true)

/-- The state behind a change of the text. -/
def change (c : Change) (m : Machine) : Machine :=
  match resolve c.sought m with
  | (some ⟨some (r, _), foldsCase⟩, m) =>
    let text := m.space.toList.toArray
    let (result, isChanged) :=
      substituted r c (foldsCase || c.sought.foldsCase) text (text.size + 2) 0 0 none
    if !isChanged then m
    else
      let m := { m with space := String.ofList result, isChanged := true }
      let m := if c.isPrinted then m.printLine m.space else m
      match c.file with
      | some name => m.writeLine name
      | none => m
  | (_, m) => m

/-! ### Showing texts -/

/-- A character so that it can be seen. -/
def displayed (c : Char) : String :=
  match c with
  | '\\' => "\\\\"
  | '\x07' => "\\a"
  | '\x08' => "\\b"
  | '\x0c' => "\\f"
  | '\x0b' => "\\v"
  | _ => if isOdd c then escape c else String.singleton c

/-- Texts on lines that are at most as long as a width. -/
def wrapped (width used : Nat) : List String → String
  | [] => "$\n"
  | text :: texts =>
    if 1 < width && width - 1 < used + text.length then
      "\\\n" ++ text ++ wrapped width text.length texts
    else text ++ wrapped width (used + text.length) texts

/-- The part of a text in front of its first line end. -/
def firstLine (text : String) : String :=
  String.ofList (text.toList.takeWhile (fun c => c != '\n'))

/-! ### Running -/

/-- How a script ends for a line. -/
inductive Outcome where
  /-- The text is printed. -/
  | ended
  /-- The text is not printed. -/
  | deleted
  /-- The script is run again on what is left of the text. -/
  | again
  /-- The run ends with a status; the text may be printed. -/
  | quit (status : Nat) (isPrinted : Bool)
deriving DecidableEq, Inhabited

/-- What follows the end of a block. -/
def behindBlock : Nat → List (Instruction × Nat) → List (Instruction × Nat)
  | _, [] => []
  | depth, i :: rest =>
    match i.1.order with
    | .opened => behindBlock (depth + 1) rest
    | .closed => if depth = 0 then rest else behindBlock (depth - 1) rest
    | _ => behindBlock depth rest

/-- What follows a place to jump to; without a name it is the end. -/
def target (script : List (Instruction × Nat)) (name : String) : List (Instruction × Nat) :=
  if name = "" then []
  else
    (script.dropWhile (fun i =>
      match i.1.order with
      | .label l => l != name
      | _ => true)).tail

/-- The text in which characters are exchanged. -/
def translated (pairs : List (Char × Char)) (text : String) : String :=
  String.ofList (text.toList.map (fun c => (pairs.lookup c).getD c))

/-- **Runs a script** from an instruction on. The number bounds the instructions. -/
def execute (script : List (Instruction × Nat)) :
    Nat → List (Instruction × Nat) → Machine → Machine × Outcome
  | 0, _, m => (m, .quit 1 false)
  | _, [], m => (m, .ended)
  | n + 1, (instruction, index) :: rest, m =>
    let (isFor, m) := isChosen index instruction.lines m
    let go (m : Machine) := execute script n rest m
    if m.isLost then (m, .quit 1 false)
    else if !isFor then
      match instruction.order with
      | .opened => execute script n (behindBlock 0 rest) m
      | _ => go m
    else
      match instruction.order with
      | .opened => go m
      | .closed => go m
      | .label _ => go m
      | .number => go (m.printRaw (toString m.number ++ "\n"))
      | .textBehind text => go { m with pending := m.pending ++ [.text text] }
      | .textNow text => go (m.printRaw text)
      | .textInstead text =>
        match m.ranges.lookup index, instruction.lines.isNegated with
        | some (.active _), false => (m, .deleted)
        | _, _ => (m.printRaw text, .deleted)
      | .jump name => execute script n (target script name) m
      | .jumpIfChanged name =>
        if m.isChanged then execute script n (target script name) { m with isChanged := false }
        else go m
      | .jumpUnlessChanged name =>
        if m.isChanged then go { m with isChanged := false }
        else execute script n (target script name) m
      | .delete => (m, .deleted)
      | .deleteFirst =>
        if m.space.contains '\n' then
          let first := firstLine m.space
          ({ m with space := String.ofList (m.space.toList.drop (first.length + 1)) }, .again)
        else (m, .deleted)
      | .recall => go { m with space := m.kept }
      | .recallBehind => go { m with space := m.space ++ "\n" ++ m.kept }
      | .keep => go { m with kept := m.space }
      | .keepBehind => go { m with kept := m.kept ++ "\n" ++ m.space }
      | .display width => go (m.printRaw (wrapped width 0 (m.space.toList.map displayed)))
      | .next =>
        if m.left.isEmpty then (m, .ended)
        else
          let m := if m.isQuiet then m else m.printLine m.space
          match m.next? with
          | some (m, line) => go { m with space := line.1 }
          | none => (m, .ended)
      | .nextBehind =>
        match m.next? with
        | some (m, line) => go { m with space := m.space ++ "\n" ++ line.1 }
        | none => (m, .ended)
      | .print => go (m.printLine m.space)
      | .printFirst => go (m.printRaw (firstLine m.space ++ "\n"))
      | .quit status => (m, .quit status true)
      | .quitSilently status => (m, .quit status false)
      | .fileBehind name => go { m with pending := m.pending ++ [.file name] }
      | .substitute c =>
        let m := change c m
        if m.isLost then (m, .quit 1 false) else go m
      | .exchange => go { m with space := m.kept, kept := m.space }
      | .writeTo name => go (m.writeLine name)
      | .translate pairs => go { m with space := translated pairs m.space }
      | .empty => go { m with space := "" }
      | .fileName => go (m.printRaw (m.fileName ++ "\n"))

/-- How many instructions are run for a line at most. -/
def maxInstructions : Nat := 100000

/-- **Runs a script for all lines.** The answer is the status with which the script ends
the run, if it does. The number bounds how often the script is run. -/
def cycles (script : List (Instruction × Nat)) : Nat → Bool → Machine → Machine × Option Nat
  | 0, _, m => (m, none)
  | n + 1, isAgain, m =>
    let begin? := if isAgain then some m
      else m.next?.map (fun r => { r.1 with space := r.2.1 })
    match begin? with
    | none => (m.printPending, none)
    | some m =>
      let printed (m : Machine) : Machine := if m.isQuiet then m else m.printLine m.space
      match execute script maxInstructions script m with
      | (m, .ended) => cycles script n false (printed m).printPending
      | (m, .deleted) => cycles script n false m.printPending
      | (m, .again) => cycles script n true m.printPending
      | (m, .quit status isPrinted) =>
        ((if isPrinted then (printed m).printPending else m), some status)

end Edit

/-! ### The program -/

/-- The options of the program. -/
def sedOptions : Allowed :=
  { name := "sed", plain := "nErsuzi", valued := "efl"
    long := [("quiet", 'n'), ("silent", 'n'), ("expression", 'e'), ("file", 'f'),
      ("regexp-extended", 'E'), ("separate", 's'), ("unbuffered", 'u'), ("in-place", 'i')] }

/-- Arguments in which the ending for copies of changed files stands alone. -/
def withSuffix (arguments : List String) : List String × String :=
  match arguments.find? (fun a => startsWith "-i" a && 2 < a.length) with
  | some found =>
    (arguments.map (fun a => if a = found then "-i" else a), String.ofList (found.toList.drop 2))
  | none =>
    match arguments.find? (startsWith "--in-place=") with
    | some found =>
      (arguments.map (fun a => if a = found then "-i" else a), String.ofList (found.toList.drop 11))
    | none => (arguments, "")

/-- The names of the files that a script writes to. -/
def writtenNames (script : List Edit.Instruction) : List String :=
  script.filterMap (fun i =>
    match i.order with
    | .writeTo name => some name
    | .substitute c => c.file
    | _ => none)

/-- The number of the script, among others, that a place lies in, and the place in it. -/
def placeIn (n position : Nat) : List String → Nat × Nat
  | script :: more =>
    if position ≤ script.length || more.isEmpty then (n, position)
    else placeIn (n + 1) (position - (script.length + 1)) more
  | [] => (n, position)

/-- The complaint about a script that cannot be read. -/
def scriptComplaint (scripts : List String) (fault : Edit.Fault) : String :=
  let length := ("\n".intercalate scripts).length
  let (number, place) := match fault.left with
    | some left => placeIn 1 (length - left) scripts
    | none => (scripts.length, 0)
  "sed: -e expression #" ++ toString number ++ ", char " ++ toString place ++ ": " ++ fault.text

/-- The places that a script jumps to, and those that it has. -/
def missingTarget? (script : List Edit.Instruction) : Option String :=
  let labels := script.filterMap (fun i =>
    match i.order with
    | .label name => some name
    | _ => none)
  let targets := script.filterMap (fun i =>
    match i.order with
    | .jump name => some name
    | .jumpIfChanged name => some name
    | .jumpUnlessChanged name => some name
    | _ => none)
  targets.find? (fun name => name != "" && !labels.contains name)

/-- The lines of a text, each with whether it is ended. -/
def editLines (text : String) : List Edit.Line :=
  (linesWithEnds text).map (fun line => (withoutEnd line, endsWith "\n" line))

/-- Lines of texts one behind the other; only the last line may lack its end. -/
def joinedTexts (texts : List String) : List Edit.Line :=
  let lines := texts.flatMap editLines
  lines.dropLast.map (fun line => (line.1, true)) ++ lines.getLast?.toList

/-- Writes a result to a file, or complains. -/
def writeResult (name text : String) : Doing Unit := do
  match ← change (fun t => t.write (pathOf name) (Octets.toContent text)) with
  | none => pure ()
  | some fault => refuse 4 ("sed: couldn\x27t open file " ++ name ++ ": " ++ reasonOf fault)

/-- The contents of files that can be read, with their names. -/
def inputsOf (isChanging : Bool) (names : List String) : Doing (List (String × String)) := do
  let texts ← (if names.isEmpty then ["-"] else names).mapM (fun name => do
    match ← contentOf name with
    | .ok text => pure [(name, text)]
    | .error fault => do
      if fault = .isDirectory then
        complain ("sed: " ++ (if isChanging then
          "couldn\x27t edit " ++ name ++ ": not a regular file"
          else "read error on " ++ name ++ ": " ++ reasonOf fault))
      else complain ("sed: can\x27t read " ++ name ++ ": " ++ reasonOf fault)
      finish (if fault = .isDirectory && isChanging then 4 else 2)
      pure [])
  pure texts.flatten

/-- Runs a script on one input after the other, until it ends the run. -/
def editEach (isChanging : Bool) (suffix : String) (script : List (Edit.Instruction × Nat)) :
    List (String × List Edit.Line) → Edit.Machine → Doing Unit
  | [], m => m.written.forM (fun w => writeResult w.1 w.2)
  | (name, lines) :: others, m => do
    let bound := lines.length + (lines.map (fun l => l.1.length)).foldl (· + ·) 0 + 2
    let m := { m with
      left := lines, number := 0, fileName := name, output := "", lacksEnd := false
      ranges := [], tree := (← files) }
    let (m, status?) := Edit.cycles script bound false m
    if m.isLost then refuse 1 "sed: -e expression #1, char 0: no previous regular expression"
    else do
      if isChanging then do
        if suffix != "" then
          match ← contentOf name with
          | .ok before => writeResult (name ++ suffix) before
          | .error _ => pure ()
        let rest := String.join (m.left.map (fun l => l.1 ++ (if l.2 then "\n" else "")))
        writeResult name (m.output ++ (if m.lacksEnd && rest != "" then "\n" else "") ++ rest)
      else say m.output
      match status? with
      | some status => do
        m.written.forM (fun w => writeResult w.1 w.2)
        finish status
      | none => editEach isChanging suffix script others m

/-- **Edits lines by a script.** -/
def sed : Program := fun arguments =>
  let (arguments, suffix) := withSuffix arguments
  withOptions sedOptions (fun g => do
    holdBack
    let named ← (g.options.filter (fun o => o.1 == 'e' || o.1 == 'f')).mapM (fun o => do
      if o.1 = 'e' then pure (some o.2)
      else
        match ← contentOf o.2 with
        | .ok text => pure (some (withoutEnd text))
        | .error fault => do
          refuse 1 ("sed: couldn\x27t open file " ++ o.2 ++ ": " ++ reasonOf fault)
          pure none)
    let (scripts, names) := if named.isEmpty then (g.operands.take 1, g.operands.drop 1)
      else (named.filterMap id, g.operands)
    if named.any (·.isNone) then pure ()
    else if scripts.isEmpty then
      refuse 1 "Usage: sed [OPTION]... \x7bscript-only-if-no-other-script\x7d [input-file]..."
    else
      let text := "\n".intercalate scripts
      match Edit.read { isExtended := g.has 'E' || g.has 'r' } text with
      | .error fault => refuse 1 (scriptComplaint scripts fault)
      | .ok script =>
        match missingTarget? script with
        | some name => refuse 4 ("sed: can\x27t find label for jump to `" ++ name ++ "\x27")
        | none => do
          let isChanging := g.has 'i'
          let inputs ← inputsOf isChanging names
          let isAlone := isChanging || g.has 's'
          let inputs := if isAlone then inputs.map (fun i => (i.1, editLines i.2))
            else [((inputs.head?.map (·.1)).getD "-", joinedTexts (inputs.map (·.2)))]
          let status := (← get).status
          let start := (text.toList.take 2 == ['#', 'n'] &&
            (text.length == 2 || text.toList[2]? == some '\n'))
          editEach isChanging suffix script.zipIdx inputs
            { tree := (← files), left := [], isQuiet := g.has 'n' || start
              written := (writtenNames script).map (fun name => (name, "")) }
          if status != 0 then atLeast status) arguments

end Program

end GoPlanner

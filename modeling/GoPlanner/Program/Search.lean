import GoPlanner.FileTree.Below
import GoPlanner.Program.Option
import GoPlanner.Text.Regular.Reading

/-!
# Searching Lines

Of the lines of files those are printed in which one of some patterns is found. The status
tells whether there were any: zero if there were, one if not, and two after a complaint.

## Main definitions

* `Program.Search.Pattern`: what is looked for.
* `Program.Search.search`: looks through one text.
* `Program.grep`: searches files.
-/

namespace GoPlanner

namespace Program

namespace Search

/-! ### Patterns -/

/-- **What is looked for.** -/
structure Pattern where
  /-- The expression, or nothing, if there are no patterns. -/
  expression : Option Regular
  /-- Whether cases count as the same. -/
  foldsCase : Bool
  /-- Whether parts must be whole words. -/
  isWord : Bool
  /-- Whether parts must be whole lines. -/
  isLine : Bool

/-- Whether a part of a line counts. -/
def Pattern.accepts (p : Pattern) (text : Array Char) (start stop : Nat) : Bool :=
  let isWordAt (i : Nat) : Bool := (text[i]?).any Regular.isWordChar
  if p.isLine then start == 0 && stop == text.size
  else if p.isWord then (start == 0 || !isWordAt (start - 1)) && !isWordAt stop
  else true

/-- The first part of a line that counts, from a position on. -/
def Pattern.find? (p : Pattern) (text : Array Char) (first : Nat) : Option (Nat × Nat) :=
  p.expression.bind (fun r =>
    if !r.isFound p.foldsCase text then none
    else (List.range' first (text.size + 1 - first)).findSome? (fun i =>
      ((r.endsAt p.foldsCase text i).find? (p.accepts text i)).map (fun stop => (i, stop))))

/-- Whether a line is selected. -/
def Pattern.selects (p : Pattern) (line : String) : Bool :=
  let text := line.toList.toArray
  if p.isLine || p.isWord then (p.find? text 0).isSome
  else p.expression.any (fun r => r.isFound p.foldsCase text)

/-- The parts of a line that count and are not empty, with their positions. The first
number bounds them. -/
def Pattern.parts (p : Pattern) (text : Array Char) : Nat → Nat → List (Nat × String)
  | 0, _ => []
  | n + 1, first =>
    match p.find? text first with
    | none => []
    | some (start, stop) =>
      if start = stop then p.parts text n (stop + 1)
      else (start, String.ofList (Regular.part text start stop)) :: p.parts text n stop

/-- A text that stands for itself, as an expression. -/
def literal (text : String) : Regular :=
  text.toList.foldr (fun c r => .both (.one (.only c)) r) .empty

/-- The expression of patterns of which any may be found. -/
def expressionOf (read : String → Except Regular.Fault Regular) :
    List String → Except Regular.Fault (Option Regular)
  | [] => .ok none
  | text :: texts => do
    let r ← read text
    match ← expressionOf read texts with
    | some other => pure (some (.either r other))
    | none => pure (some r)

/-! ### Options -/

/-- The options of a search. -/
def options : Allowed :=
  { name := "grep", plain := "EFGPivwxcnlLqsohHrRabyzZTU0123456789", valued := "efmABCdD"
    misuse := 2
    long := [("extended-regexp", 'E'), ("fixed-strings", 'F'), ("basic-regexp", 'G'),
      ("perl-regexp", 'P'), ("ignore-case", 'i'), ("invert-match", 'v'), ("word-regexp", 'w'),
      ("line-regexp", 'x'), ("count", 'c'), ("line-number", 'n'), ("files-with-matches", 'l'),
      ("files-without-match", 'L'), ("quiet", 'q'), ("silent", 'q'), ("no-messages", 's'),
      ("only-matching", 'o'), ("no-filename", 'h'), ("with-filename", 'H'),
      ("recursive", 'r'), ("dereference-recursive", 'R'), ("text", 'a'), ("byte-offset", 'b'),
      ("null", 'Z'), ("regexp", 'e'), ("file", 'f'), ("max-count", 'm'),
      ("after-context", 'A'), ("before-context", 'B'), ("context", 'C')] }

/-- Complains about a wrong use. -/
def misuse (text : Option String) : Doing Unit := do
  text.forM (fun text => complain ("grep: " ++ text))
  complain "Usage: grep [OPTION]... PATTERNS [FILE]..."
  refuse 2 "Try \x27grep --help\x27 for more information."

/-- How many lines are shown around those that are selected. -/
def contextOf (g : Given) (letter : Char) : Nat :=
  let digits := String.ofList ((g.options.map (·.1)).filter Char.isDigit)
  ((g.value? letter <|> g.value? 'C' <|> some digits).bind decimal?).getD 0

/-- The number of an option that is none. -/
def wrongNumber? (g : Given) : Option String :=
  let isWrong (letter : Char) : Bool := (g.value? letter).any (fun v => (decimal? v).isNone)
  match ['A', 'B', 'C'].find? isWrong with
  | some letter => some (((g.value? letter).getD "") ++ ": invalid context length argument")
  | none =>
    if (g.value? 'm').any (fun v => (signed? v).isNone) then some "invalid max count" else none

/-! ### One text -/

/-- What stands in front of a line that is printed. -/
def heading (g : Given) (hasName : Bool) (name : String) (mark : String) (number offset : Nat) :
    String :=
  (if hasName then name ++ (if g.has 'Z' then "\x00" else mark) else "") ++
    (if g.has 'n' then toString number ++ mark else "") ++
    (if g.has 'b' then toString offset ++ mark else "")

/-- Lines with their numbers and where they begin. -/
def placed (number offset : Nat) : List String → List (Nat × Nat × String)
  | [] => []
  | line :: lines => (number, offset, line) :: placed (number + 1) (offset + line.length + 1) lines

/-- Which lines are selected, of which there may be at most as many as given. The lines
behind the last one of them are not looked at. -/
def selected (p : Pattern) (isInverted : Bool) : Nat → List (Nat × Nat × String) →
    List (Bool × Nat × Nat × String)
  | _, [] => []
  | 0, lines => lines.map (fun l => (false, l))
  | n + 1, line :: lines =>
    if p.selects line.2.2 != isInverted then (true, line) :: selected p isInverted n lines
    else (false, line) :: selected p isInverted (n + 1) lines

/-- Prints lines with their context. It matters which line was printed last, or whether
that was one of another text. -/
def printLines (g : Given) (p : Pattern) (hasName : Bool) (name : String)
    (chosen : List Nat) : Option (Option Nat) → List (Bool × Nat × Nat × String) → Doing Unit
  | _, [] => pure ()
  | last, (isSelected, number, offset, line) :: lines => do
    let around := contextOf g 'B' + contextOf g 'A' != 0 || g.has 'A' || g.has 'B' || g.has 'C'
    let isNear := chosen.any (fun n =>
      n ≤ number + contextOf g 'B' && number ≤ n + contextOf g 'A')
    if isSelected || isNear then do
      let isApart := match last with
        | some (some n) => n + 1 != number
        | some none => true
        | none => false
      if around && isApart && !g.has 'o' then say "--\n"
      let mark := if isSelected then ":" else "-"
      if g.has 'o' then
        if isSelected && !g.has 'v' then
          (p.parts line.toList.toArray (line.length + 1) 0).forM (fun part =>
            say (heading g hasName name mark number (offset + part.1) ++ part.2 ++ "\n"))
      else say (heading g hasName name mark number offset ++ line ++ "\n")
      printLines g p hasName name chosen (some (some number)) lines
    else printLines g p hasName name chosen last lines

/-- **Looks through one text,** and tells whether lines were selected. Context is set
apart from that of other texts. -/
def search (g : Given) (p : Pattern) (hasName hasBefore : Bool) (name text : String) :
    Doing Bool := do
  let limit := match (g.value? 'm').bind signed? with
    | some (.ofNat n) => n
    | _ => text.length + 1
  let lines := selected p (g.has 'v') limit (placed 1 0 (linesOf text))
  let chosen := (lines.filter (·.1)).map (fun l => l.2.1)
  let isAny := !chosen.isEmpty
  let nameEnd := if g.has 'Z' then "\x00" else "\n"
  if g.has 'q' then pure ()
  else if g.has 'l' then if isAny then say (name ++ nameEnd)
  else if g.has 'L' then if !isAny then say (name ++ nameEnd)
  else if g.has 'c' then
    say ((if hasName then name ++ (if g.has 'Z' then "\x00" else ":") else "") ++
      toString chosen.length ++ "\n")
  else if isAny && text.contains '\x00' && !g.has 'a' then
    complain ("grep: " ++ name ++ ": binary file matches")
  else
    let lines := if limit ≤ chosen.length then
        lines.filter (fun l => l.2.1 ≤ (chosen.getLast?).getD 0 + contextOf g 'A')
      else lines
    printLines g p hasName name chosen (if hasBefore then some none else none) lines
  pure isAny

/-! ### Files -/

/-- The files that a name stands for: those below it, if it is a directory and that is
asked for. -/
def filesOf (g : Given) (t : FileTree) (name : String) : List String :=
  if g.value? 'd' = some "skip" && t.isDirectory (pathOf name) then []
  else if !(g.has 'r' || g.has 'R') then [name]
  else
    match t.find (pathOf name) with
    | .ok (place, .directory) =>
      (t.filesBelow place).map (fun steps =>
        let inside := Octets.ofText ("/".intercalate steps)
        if endsWith "/" name then name ++ inside else name ++ "/" ++ inside)
    | _ => [name]

/-- Looks through files, one after the other. -/
def searchFiles (g : Given) (p : Pattern) (hasName : Bool) : Bool → List String → Doing Bool
  | isAny, [] => pure isAny
  | isAny, name :: names => do
    let found ← match ← contentOf name with
      | .ok text =>
        search g p hasName isAny (if name = "-" then "(standard input)" else name) text
      | .error fault => do
        if !g.has 's' then complain ("grep: " ++ name ++ ": " ++ reasonOf fault)
        finish 2
        pure false
    if found && g.has 'q' then do
      finish 0
      pure true
    else searchFiles g p hasName (isAny || found) names

end Search

/-! ### Searching -/

open Search

/-- **Searches files** for patterns. Some options are given with the program. -/
def grepWith (first : List String) : Program := fun arguments => do
  match given? options [] (first ++ arguments) with
  | .error text => misuse (some text)
  | .ok g => do
    let files ← (g.values 'f').mapM (fun name => do
      match ← contentOf name with
      | .ok text => pure (Except.ok text)
      | .error fault => pure (.error (name ++ ": " ++ reasonOf fault)))
    let isGiven := g.has 'e' || g.has 'f'
    let operands := if isGiven then g.operands else g.operands.drop 1
    let patterns :=
      (g.values 'e' ++ (if isGiven then [] else g.operands.take 1)).flatMap (pieces '\n') ++
        (files.filterMap Except.toOption).flatMap linesOf
    let wrongFile := files.findSome? (fun
      | .error text => some text
      | .ok _ => none)
    let style : Regular.Style :=
      { isExtended := [some 'E', some 'P'].contains (g.last? "EFGP"), isLenient := true }
    let read (text : String) : Except Regular.Fault Regular :=
      if g.last? "EFGP" = some 'F' then .ok (literal text)
      else (Regular.read style text).map (·.1)
    if !isGiven && g.operands.isEmpty then misuse none
    else
      match wrongNumber? g <|> wrongFile, expressionOf read patterns with
      | some text, _ => refuse 2 ("grep: " ++ text)
      | none, .error fault => refuse 2 ("grep: " ++ fault.message)
      | none, .ok expression => do
        let p : Pattern :=
          { expression := expression, foldsCase := g.has 'i' || g.has 'y', isWord := g.has 'w'
            isLine := g.has 'x' }
        let t := (← get).tree
        let isDeep := g.has 'r' || g.has 'R'
        let names :=
          if operands.isEmpty then
            if isDeep then (filesOf g t ".").map (fun name => String.ofList (name.toList.drop 2))
            else ["-"]
          else operands.flatMap (filesOf g t)
        let isSeveral := 1 < operands.length ||
          isDeep && (operands.isEmpty || operands.any (fun o => t.isDirectory (pathOf o)))
        let hasName := match g.last? "hH" with
          | some letter => letter == 'H'
          | none => isSeveral
        let isAny ← searchFiles g p hasName false names
        if !isAny then atLeast 1

/-- Searches files. -/
def grep : Program :=
  grepWith []

end Program

end GoPlanner

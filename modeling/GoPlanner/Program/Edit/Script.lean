import GoPlanner.Program.Basic
import GoPlanner.Text.Regular.Reading

/-!
# Scripts for Editing Lines

A script is a list of instructions, each for the lines that its addresses choose. Blocks
are kept flat: an instruction opens a block and another one closes it, because
instructions may jump into blocks and out of them.

## Main definitions

* `Program.Edit.Address`, `Program.Edit.Lines`: which lines are chosen.
* `Program.Edit.Change`: what is put for what was found.
* `Program.Edit.Order`, `Program.Edit.Instruction`: instructions.
* `Program.Edit.read`: reads scripts.
-/

namespace GoPlanner

namespace Program

namespace Edit

/-! ### Scripts -/

/-- An expression to look for; none is the one that was used last. -/
structure Sought where
  /-- The expression, and the number of its groups. -/
  expression : Option (Regular × Nat)
  /-- Whether cases count as the same. -/
  foldsCase : Bool := false
deriving Inhabited

/-- **An address** of lines. -/
inductive Address where
  /-- The line of a number. -/
  | line (number : Nat)
  /-- The last line. -/
  | last
  /-- Each line in which an expression is found. -/
  | holding (sought : Sought)
  /-- Lines from a number on, each a step further. -/
  | stepped (first step : Nat)
deriving Inhabited

/-- **The end of a range** of lines. -/
inductive RangeEnd where
  /-- The next line of an address. -/
  | upTo (address : Address)
  /-- A number of lines further. -/
  | more (count : Nat)
  /-- The next line whose number is a multiple. -/
  | multiple (number : Nat)
deriving Inhabited

/-- **The lines** that an instruction is for. -/
structure Lines where
  /-- The first address; without one all lines are chosen. -/
  first : Option Address := none
  /-- The end of the range that begins there. -/
  stop : Option RangeEnd := none
  /-- Whether the other lines are meant. -/
  isNegated : Bool := false
deriving Inhabited

/-- What becomes of the cases of letters. -/
inductive Casing where
  /-- All letters are capital ones. -/
  | upper
  /-- No letter is a capital one. -/
  | lower
  /-- The next letter is a capital one. -/
  | upperNext
  /-- The next letter is no capital one. -/
  | lowerNext
  /-- Letters stay as they are. -/
  | kept
deriving DecidableEq, Inhabited

/-- A part of what is put for what was found. -/
inductive Part where
  /-- A character. -/
  | character (c : Char)
  /-- What a group stands for; zero is all that was found. -/
  | group (number : Nat)
  /-- Other cases from here on. -/
  | casing (casing : Casing)
deriving DecidableEq, Inhabited

/-- **What is put** for what was found. -/
structure Change where
  /-- What is looked for. -/
  sought : Sought
  /-- What is put for it. -/
  parts : List Part
  /-- Which of the places where it is found is the first to be changed. -/
  occurrence : Nat := 1
  /-- Whether all places behind that are changed as well. -/
  isGlobal : Bool := false
  /-- Whether a changed line is printed. -/
  isPrinted : Bool := false
  /-- The file that a changed line is written to. -/
  file : Option String := none
deriving Inhabited

/-- **What an instruction does.** -/
inductive Order where
  /-- Opens a block. -/
  | opened
  /-- Closes a block. -/
  | closed
  /-- A place to jump to. -/
  | label (name : String)
  /-- Prints the number of the line. -/
  | number
  /-- Prints a text behind the line. -/
  | textBehind (text : String)
  /-- Prints a text. -/
  | textNow (text : String)
  /-- Prints a text in the stead of the lines. -/
  | textInstead (text : String)
  /-- Jumps to a place, or to the end. -/
  | jump (name : String)
  /-- Jumps if the line was changed. -/
  | jumpIfChanged (name : String)
  /-- Jumps if the line was not changed. -/
  | jumpUnlessChanged (name : String)
  /-- Begins with the next line. -/
  | delete
  /-- Begins again with what is behind the first line end. -/
  | deleteFirst
  /-- Takes what was kept. -/
  | recall
  /-- Takes what was kept behind the line. -/
  | recallBehind
  /-- Keeps the line. -/
  | keep
  /-- Keeps the line behind what was kept. -/
  | keepBehind
  /-- Prints the line so that all characters can be seen, in parts of a width. -/
  | display (width : Nat)
  /-- Goes on with the next line. -/
  | next
  /-- Goes on with the next line behind this one. -/
  | nextBehind
  /-- Prints the line. -/
  | print
  /-- Prints the line up to its first line end. -/
  | printFirst
  /-- Ends with a status. -/
  | quit (status : Nat)
  /-- Ends with a status and without printing. -/
  | quitSilently (status : Nat)
  /-- Prints a file behind the line. -/
  | fileBehind (name : String)
  /-- Changes the line. -/
  | substitute (change : Change)
  /-- Takes what was kept, and keeps the line. -/
  | exchange
  /-- Writes the line to a file. -/
  | writeTo (name : String)
  /-- Puts other characters. -/
  | translate (pairs : List (Char × Char))
  /-- Empties the line. -/
  | empty
  /-- Prints the name of the file. -/
  | fileName
deriving Inhabited

/-- **An instruction** for lines. -/
structure Instruction where
  /-- The lines. -/
  lines : Lines
  /-- What is done. -/
  order : Order
deriving Inhabited

/-! ### Reading -/

/-- **Why a script cannot be read:** how much of it is left, and what is wrong. If that
concerns the script as a whole, nothing is left to be told about the place. -/
structure Fault where
  /-- The number of characters that are left; none if there is no place to name. -/
  left : Option Nat
  /-- What is wrong. -/
  text : String
deriving DecidableEq, Inhabited

/-- A script that cannot be read at a place. -/
def wrong {α : Type} (rest : List Char) (text : String) : Except Fault α :=
  .error ⟨some rest.length, text⟩

/-- How scripts are read. -/
structure Manner where
  /-- Whether expressions are in the extended style. -/
  isExtended : Bool := false

/-- The style of expressions. -/
def Manner.style (m : Manner) : Regular.Style :=
  { isExtended := m.isExtended, readsEscapes := true }

/-- Blanks within a line. -/
def isBlankHere (c : Char) : Bool :=
  c == ' ' || c == '\t'

/-- Characters in brackets up to the closing one, with what follows it. -/
def bracketed (cs : List Char) : List Char × List Char :=
  let start := match cs with
    | '^' :: ']' :: _ => 2
    | '^' :: _ => 1
    | ']' :: _ => 1
    | _ => 0
  let inside := closing false (cs.drop start)
  (cs.take (start + inside), cs.drop (start + inside))
where
  /-- How many characters there are up to the closing bracket, which counts; brackets in
  the names of classes close nothing. -/
  closing (inName : Bool) : List Char → Nat
    | [] => 0
    | c :: cs =>
      if inName then
        if c = ':' && cs.head? = some ']' then 1 + closing true cs
        else 1 + closing (c != ']') cs
      else if c = ']' then 1
      else 1 + closing (c == '[' && cs.head? == some ':') cs

/-- **A text up to a mark,** with what follows the mark. A reverse solidus keeps the mark
from its meaning, and so do brackets in expressions. -/
def readUntil (mark : Char) (isExpression : Bool) (cs : List Char) :
    Option (List Char × List Char) :=
  match cs with
  | [] => none
  | c :: rest =>
    if c = mark then some ([], rest)
    else if c = '\n' then none
    else if c = '\\' then
      match rest with
      | [] => none
      | d :: rest' =>
        let kept :=
          if d = 'n' && isExpression then ['\n']
          else if d = '\n' then (if isExpression then ['\n'] else ['\\', '\n'])
          else if d = mark && !(d = '&' && !isExpression) then [d]
          else ['\\', d]
        (readUntil mark isExpression rest').map (fun r => (kept ++ r.1, r.2))
    else if c = '[' && isExpression then
      let (inside, later) := bracketed rest
      if later.length ≤ rest.length then
        (readUntil mark isExpression later).map (fun r => (c :: inside ++ r.1, r.2))
      else none
    else (readUntil mark isExpression rest).map (fun r => (c :: r.1, r.2))
termination_by cs.length

/-- The expression of a text; the empty text stands for the last one that was used. -/
def soughtOf (m : Manner) (rest text : List Char) (foldsCase : Bool) : Except Fault Sought :=
  if text.isEmpty then .ok ⟨none, foldsCase⟩
  else
    match Regular.read m.style (String.ofList text) with
    | .ok r => .ok ⟨some r, foldsCase⟩
    | .error fault => wrong rest fault.message

/-- A number at the beginning, with what follows it. -/
def readNumber (cs : List Char) : Option (Nat × List Char) :=
  Numeral.readIn 10 cs

/-- An expression between marks as an address, with its flags. -/
def readHolding (m : Manner) (mark : Char) (cs : List Char) :
    Except Fault (Address × List Char) := do
  match readUntil mark true cs with
  | none => wrong [] "unterminated address regex"
  | some (text, rest) => do
    let flags := rest.takeWhile (fun c => c == 'I' || c == 'M')
    let rest := rest.drop flags.length
    let sought ← soughtOf m rest text (flags.contains 'I')
    pure (.holding sought, rest)

/-- **An address,** if there is one here. -/
def readAddress (m : Manner) (cs : List Char) : Except Fault (Option Address × List Char) := do
  match cs with
  | '$' :: rest => pure (some .last, rest)
  | '/' :: rest => do
    let (a, rest) ← readHolding m '/' rest
    pure (some a, rest)
  | '\\' :: mark :: rest => do
    let (a, rest) ← readHolding m mark rest
    pure (some a, rest)
  | _ =>
    match readNumber cs with
    | none => pure (none, cs)
    | some (n, '~' :: rest) =>
      match readNumber rest with
      | some (step, rest) => pure (some (.stepped n step), rest)
      | none => pure (some (.stepped n 0), rest)
    | some (n, rest) => pure (some (.line n), rest)

/-- The end of a range behind the comma. -/
def readRangeEnd (m : Manner) (cs : List Char) : Except Fault (RangeEnd × List Char) := do
  match cs with
  | '+' :: rest =>
    match readNumber rest with
    | some (n, rest) => pure (.more n, rest)
    | none => wrong rest "expected number"
  | '~' :: rest =>
    match readNumber rest with
    | some (n, rest) => pure (.multiple n, rest)
    | none => wrong rest "expected number"
  | _ => do
    match ← readAddress m cs with
    | (some a, rest) => pure (.upTo a, rest)
    | (none, c :: rest) =>
      let _ := c
      wrong rest "unexpected `,\x27"
    | (none, []) => wrong [] "unexpected `,\x27"

/-- The lines that are named here. -/
def readLines (m : Manner) (cs : List Char) : Except Fault (Lines × List Char) := do
  let (first, rest) ← readAddress m cs
  let behind := rest.dropWhile isBlankHere
  let (stop, rest) ← (match first, behind with
    | some _, ',' :: more => do
      let (stop, rest) ← readRangeEnd m (more.dropWhile isBlankHere)
      pure (some stop, rest)
    | _, _ => pure (none, rest))
  let rest := rest.dropWhile isBlankHere
  match rest with
  | '!' :: more =>
    let more := more.dropWhile isBlankHere
    match more with
    | '!' :: later => wrong later "multiple `!\x27s"
    | _ => pure (⟨first, stop, true⟩, more)
  | _ => pure (⟨first, stop, false⟩, rest)

/-- The end of an instruction. -/
def readEnd (cs : List Char) : Except Fault (List Char) :=
  match cs.dropWhile isBlankHere with
  | [] => .ok []
  | '\n' :: rest => .ok rest
  | ';' :: rest => .ok rest
  | '\x7d' :: rest => .ok ('\x7d' :: rest)
  | '#' :: rest => .ok ('#' :: rest)
  | _ :: rest => wrong rest "extra characters after command"

/-- The characters of a text that is to be printed, up to the end of its line. A reverse
solidus keeps line ends, and is dropped. -/
def readText : List Char → List Char × List Char
  | [] => ([], [])
  | '\n' :: rest => ([], rest)
  | '\\' :: c :: rest =>
    let later := readText rest
    (if c = 't' then '\t' :: later.1 else c :: later.1, later.2)
  | c :: rest =>
    let later := readText rest
    if c = '\\' then later else (c :: later.1, later.2)

/-- A text that is to be printed, behind the letter. -/
def readPrinted (cs : List Char) : Except Fault (String × List Char) :=
  let start := cs.dropWhile isBlankHere
  let text (cs : List Char) : Except Fault (String × List Char) :=
    let (text, rest) := readText cs
    .ok (if cs.isEmpty then "" else String.ofList text ++ "\n", rest)
  match start with
  | [] => wrong [] "expected \\ after `a\x27, `c\x27 or `i\x27"
  | '\\' :: rest =>
    match rest.dropWhile isBlankHere with
    | '\n' :: more => text more
    | _ => text rest
  | '\n' :: rest => wrong rest "expected \\ after `a\x27, `c\x27 or `i\x27"
  | _ => text start

/-- The name of a file, up to the end of the line. -/
def readFileName (cs : List Char) : Except Fault (String × List Char) :=
  let name := (cs.dropWhile isBlankHere).takeWhile (fun c => c != '\n')
  let rest := (cs.dropWhile isBlankHere).drop name.length
  if name.isEmpty then wrong rest "missing filename in r/R/w/W commands"
  else .ok (String.ofList name, rest.drop 1)

/-- The name of a place to jump to. -/
def readLabel (endsAtBrace : Bool) (cs : List Char) : String × List Char :=
  let start := cs.dropWhile isBlankHere
  let name := start.takeWhile (fun c =>
    !(isBlankSpace c || c == ';' || (endsAtBrace && c == '\x7d')))
  (String.ofList name, start.drop name.length)
where
  /-- Blanks and line ends. -/
  isBlankSpace (c : Char) : Bool := isBlankHere c || c == '\n' || c == '\r'

/-! ### Changes -/

/-- What is put for what was found, as it is written. -/
def partsOf : List Char → List Part
  | [] => []
  | '&' :: cs => .group 0 :: partsOf cs
  | '\\' :: c :: cs =>
    if c.isDigit then .group (c.toNat - 48) :: partsOf cs
    else
      match c with
      | 'U' => .casing .upper :: partsOf cs
      | 'L' => .casing .lower :: partsOf cs
      | 'u' => .casing .upperNext :: partsOf cs
      | 'l' => .casing .lowerNext :: partsOf cs
      | 'E' => .casing .kept :: partsOf cs
      | 'x' =>
        let digits := (cs.take 2).takeWhile (Numeral.isDigitIn 16)
        if digits.isEmpty then .character 'x' :: partsOf cs
        else .character (Char.ofNat (Numeral.ofDigits 16 digits)) :: partsOf (cs.drop digits.length)
      | _ => .character ((Regular.controls.lookup c).getD c) :: partsOf cs
  | c :: cs => .character c :: partsOf cs
termination_by cs => cs.length
decreasing_by all_goals simp only [List.length_cons, List.length_drop]; omega

/-- The flags of a change, up to the end of the instruction. What was read so far is
handed on. -/
def readFlags (c : Change) (foldsCase hasNumber : Bool) (cs : List Char) :
    Except Fault (Change × Bool × List Char) :=
  match cs with
  | [] => .ok (c, foldsCase, [])
  | '\n' :: rest => .ok (c, foldsCase, rest)
  | ';' :: rest => .ok (c, foldsCase, rest)
  | '\x7d' :: _ => .ok (c, foldsCase, cs)
  | '#' :: _ => .ok (c, foldsCase, cs)
  | 'g' :: rest =>
    if c.isGlobal then wrong rest "multiple `g\x27 options to `s\x27 command"
    else readFlags { c with isGlobal := true } foldsCase hasNumber rest
  | 'p' :: rest =>
    if c.isPrinted then wrong rest "multiple `p\x27 options to `s\x27 command"
    else readFlags { c with isPrinted := true } foldsCase hasNumber rest
  | 'w' :: rest =>
    match readFileName rest with
    | .error fault => .error fault
    | .ok (name, later) => .ok ({ c with file := some name }, foldsCase, later)
  | d :: rest =>
    if d = 'i' || d = 'I' then readFlags c true hasNumber rest
    else if d = 'm' || d = 'M' || isBlankHere d then readFlags c foldsCase hasNumber rest
    else if d.isDigit then
      let digits := d :: rest.takeWhile Char.isDigit
      let later := rest.drop (digits.length - 1)
      let n := Numeral.ofDigits 10 digits
      if hasNumber then wrong later "multiple number options to `s\x27 command"
      else if n = 0 then wrong later "number option to `s\x27 command may not be zero"
      else if later.length ≤ rest.length then
        readFlags { c with occurrence := n } foldsCase true later
      else .ok (c, foldsCase, later)
    else wrong rest "unknown option to `s\x27"
termination_by cs.length
decreasing_by all_goals exact Nat.lt_succ_of_le (by first | assumption | exact Nat.le_refl _)

/-- The greatest number of a group in what is put for what was found. -/
def greatestGroup (parts : List Part) : Nat :=
  parts.foldl (fun n p =>
    match p with
    | .group m => max n m
    | _ => n) 0

/-- **A change** behind its letter. -/
def readChange (m : Manner) (cs : List Char) : Except Fault (Change × List Char) := do
  match cs with
  | [] => wrong [] "unterminated `s\x27 command"
  | mark :: rest =>
    match readUntil mark true rest with
    | none => wrong [] "unterminated `s\x27 command"
    | some (text, rest) =>
      match readUntil mark false rest with
      | none => wrong [] "unterminated `s\x27 command"
      | some (replacement, rest) => do
        let parts := partsOf replacement
        let (c, foldsCase, rest) ← readFlags { sought := ⟨none, false⟩, parts } false false rest
        let sought ← soughtOf m rest text foldsCase
        let most := greatestGroup parts
        match sought.expression with
        | some (_, groups) =>
          if groups < most then
            wrong rest ("invalid reference \\" ++ toString most ++
              " on `s\x27 command\x27s RHS")
          else pure ({ c with sought := sought }, rest)
        | none => pure ({ c with sought := sought }, rest)

/-- The characters of a table of characters. -/
def tableOf : List Char → List Char
  | '\\' :: '\\' :: cs => '\\' :: tableOf cs
  | '\\' :: c :: cs =>
    match Regular.controls.lookup c with
    | some control => control :: tableOf cs
    | none => '\\' :: tableOf (c :: cs)
  | c :: cs => c :: tableOf cs
  | [] => []
termination_by cs => cs.length

/-- A table of characters behind its letter. -/
def readTable (cs : List Char) : Except Fault (List (Char × Char) × List Char) := do
  match cs with
  | [] => wrong [] "unterminated `y\x27 command"
  | mark :: rest =>
    match readUntil mark false rest with
    | none => wrong [] "unterminated `y\x27 command"
    | some (first, rest) =>
      match readUntil mark false rest with
      | none => wrong [] "unterminated `y\x27 command"
      | some (second, rest) =>
        let (a, b) := (tableOf first, tableOf second)
        if a.length != b.length then
          wrong rest "strings for `y\x27 command are different lengths"
        else do
          let rest ← readEnd rest
          pure (a.zip b, rest)

/-! ### Instructions -/

/-- The letters of orders that are written alone. -/
def plainOrders : List (Char × Order) :=
  [('=', .number), ('d', .delete), ('D', .deleteFirst), ('g', .recall), ('G', .recallBehind),
    ('h', .keep), ('H', .keepBehind), ('n', .next), ('N', .nextBehind), ('p', .print),
    ('P', .printFirst), ('x', .exchange), ('z', .empty), ('F', .fileName)]

/-- An order with a number behind its letter, or without. -/
def readCounted (order : Nat → Order) (otherwise : Nat) (cs : List Char) :
    Except Fault (Order × List Char) := do
  match readNumber (cs.dropWhile isBlankHere) with
  | some (n, rest) => pure (order n, ← readEnd rest)
  | none => pure (order otherwise, ← readEnd cs)

/-- **An order** behind its letter; blocks are read elsewhere. -/
def readOrder (m : Manner) (lines : Lines) (c : Char) (cs : List Char) :
    Except Fault (Order × List Char) := do
  match plainOrders.lookup c with
  | some order => pure (order, ← readEnd cs)
  | none =>
    match c with
    | ':' =>
      if lines.first.isSome then wrong cs ": doesn\x27t want any addresses"
      else
        let (name, rest) := readLabel false cs
        if name = "" then wrong rest "\x22:\x22 lacks a label" else pure (.label name, rest)
    | 'a' => (readPrinted cs).map (fun r => (.textBehind r.1, r.2))
    | 'i' => (readPrinted cs).map (fun r => (.textNow r.1, r.2))
    | 'c' => (readPrinted cs).map (fun r => (.textInstead r.1, r.2))
    | 'b' => do
      let (name, rest) := readLabel true cs
      pure (.jump name, ← readEnd rest)
    | 't' => do
      let (name, rest) := readLabel true cs
      pure (.jumpIfChanged name, ← readEnd rest)
    | 'T' => do
      let (name, rest) := readLabel true cs
      pure (.jumpUnlessChanged name, ← readEnd rest)
    | 'l' => readCounted .display 70 cs
    | 'q' =>
      if lines.stop.isSome then wrong cs "command only uses one address"
      else readCounted .quit 0 cs
    | 'Q' =>
      if lines.stop.isSome then wrong cs "command only uses one address"
      else readCounted .quitSilently 0 cs
    | 'r' => (readFileName cs).map (fun r => (.fileBehind r.1, r.2))
    | 'w' => (readFileName cs).map (fun r => (.writeTo r.1, r.2))
    | 's' => (readChange m cs).map (fun r => (.substitute r.1, r.2))
    | 'y' => (readTable cs).map (fun r => (.translate r.1, r.2))
    | _ => wrong cs ("unknown command: `" ++ String.singleton c ++ "\x27")

/-- What follows the end of the line. -/
def behindLine : List Char → List Char
  | [] => []
  | c :: cs => if c = '\n' then c :: cs else behindLine cs

/-- Whether a range begins in front of the first line, which only an expression ends. -/
def isWrongStart (lines : Lines) : Bool :=
  match lines.first, lines.stop with
  | some (.line 0), some (.upTo (.holding _)) => false
  | some (.line 0), _ => true
  | _, _ => false

/-- **The instructions of a script,** within a number of blocks. -/
def readInstructions (m : Manner) (depth : Nat) (cs : List Char) :
    Except Fault (List Instruction) :=
  match cs with
  | [] => if depth = 0 then .ok [] else .error ⟨none, "unmatched `\x7b\x27"⟩
  | c :: rest =>
    if isBlankHere c || c = ';' || c = '\n' then readInstructions m depth rest
    else if c = '#' then
      if (behindLine rest).length ≤ rest.length then
        readInstructions m depth (behindLine rest)
      else .ok []
    else
      match readLines m (c :: rest) with
      | .error fault => .error fault
      | .ok (lines, []) => if lines.first.isSome || lines.isNegated then
          wrong [] "missing command" else .ok []
      | .ok (lines, letter :: behind) =>
        if isWrongStart lines then wrong behind "invalid usage of line address 0"
        else if letter = '\x7b' then
          if behind.length ≤ rest.length then
            (readInstructions m (depth + 1) behind).map (⟨lines, .opened⟩ :: ·)
          else .ok []
        else if letter = '\x7d' then
          if depth = 0 then wrong behind "unexpected `\x7d\x27"
          else if lines.first.isSome then wrong behind "\x7d doesn\x27t want any addresses"
          else
            match readEnd behind with
            | .error fault => .error fault
            | .ok later =>
              if later.length ≤ rest.length then
                (readInstructions m (depth - 1) later).map (⟨lines, .closed⟩ :: ·)
              else .ok []
        else if letter = '#' then wrong behind "comments don\x27t accept any addresses"
        else
          match readOrder m lines letter behind with
          | .error fault => .error fault
          | .ok (order, later) =>
            if later.length ≤ rest.length then
              (readInstructions m depth later).map (⟨lines, order⟩ :: ·)
            else .ok [⟨lines, order⟩]
termination_by cs.length

/-- **Reads a script.** -/
def read (m : Manner) (text : String) : Except Fault (List Instruction) :=
  readInstructions m 0 text.toList

end Edit

end Program

end GoPlanner

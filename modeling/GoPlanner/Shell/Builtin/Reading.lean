import GoPlanner.Shell.Builtin.Basic
import GoPlanner.Shell.Field
import GoPlanner.Shell.Variable

/-!
# Builtin Commands That Read

A line of the input is divided into variables in the same way as a value is divided into
fields, but the last variable takes all that is left. Options are read from arguments one
at a time, into a variable as well.

## Main definitions

* `Shell.Builtin.read`: variables from a line.
* `Shell.Builtin.getopts`: a variable from options.
-/

namespace GoPlanner

namespace Shell

namespace Builtin

/-! ### Lines -/

/-- Characters of a line, each with whether it may divide the line. -/
abbrev Line : Type :=
  List (Char × Bool)

/-- **The next line** of a text, whether it is ended, and how many characters belong to
it. A reverse solidus quotes the next character and takes a line end back. -/
def lineOf (isRaw : Bool) : List Char → Line × Bool × Nat
  | [] => ([], false, 0)
  | '\n' :: _ => ([], true, 1)
  | '\\' :: c :: cs =>
    if isRaw then
      let later := lineOf isRaw (c :: cs)
      (('\\', true) :: later.1, later.2.1, later.2.2 + 1)
    else
      let later := lineOf isRaw cs
      (if c = '\n' then later.1 else (c, false) :: later.1, later.2.1, later.2.2 + 2)
  | c :: cs =>
    let later := lineOf isRaw cs
    let kept := !(c == '\\' && !isRaw) && c != '\x00'
    (if kept then (c, true) :: later.1 else later.1, later.2.1, later.2.2 + 1)

/-- Whether a character divides a line, and whether it is a blank that does so. -/
def isDivider (separators : List Char) (c : Char × Bool) : Bool :=
  c.2 && separators.contains c.1

/-- Whether a character is a blank that divides a line. -/
def isBlankDivider (separators : List Char) (c : Char × Bool) : Bool :=
  isDivider separators c && isBlankSeparator c.1

/-- The line behind one separator and the blanks around it. -/
def behindSeparator (separators : List Char) (line : Line) : Line :=
  match line.dropWhile (isBlankDivider separators) with
  | c :: rest =>
    if isDivider separators c then rest.dropWhile (isBlankDivider separators) else c :: rest
  | [] => []

/-- **The values of variables from a line.** The last one takes all that is left, without
blanks behind it; a single separator behind a single field does not count either. -/
def divided (separators : List Char) : Nat → Line → List String
  | 0, _ => []
  | n + 1, line =>
    let field := line.takeWhile (fun c => !isDivider separators c)
    let behind := behindSeparator separators (line.drop field.length)
    if n = 0 then
      let kept := if behind.isEmpty then field
        else (line.reverse.dropWhile (isBlankDivider separators)).reverse
      [String.ofList (kept.map (·.1))]
    else String.ofList (field.map (·.1)) :: divided separators n behind

/-- **Reads variables from a line** of the input. -/
def read : Builtin := fun _ arguments => do
  let (options, names) ← optionsOf "r" "p" arguments
  if names.isEmpty then fail "arg count"
  else do
    let text ← readable 0
    let (line, isEnded, length) := lineOf (isGiven options 'r') text.toList
    consume 0 (String.ofList (text.toList.take length))
    let separators := separatorsOf (← get)
    let values := divided separators names.length
      (line.dropWhile (isBlankDivider separators))
    setStatus (if isEnded then 0 else 1)
    (names.zip values).forM (fun v => assign v.1 v.2 false)

/-! ### Options -/

/-- Whether an option is known, and if so, whether it has a value. -/
def isValued? (known : List Char) (c : Char) : Option Bool :=
  match known with
  | [] => none
  | k :: rest =>
    if k = c then some (rest.head? == some ':')
    else
      match rest with
      | ':' :: rest' => isValued? rest' c
      | rest => isValued? rest c

/-- What was read from options. -/
structure OptionRead where
  /-- The letter. -/
  letter : Char
  /-- The value that belongs to it; if there is none, the variable is removed. -/
  value : Option String
  /-- The number of the argument that is next. -/
  index : Nat
  /-- How far the argument in front of it has been read. -/
  position : Option Nat := none
  /-- The complaint. -/
  complaint : Option String := none

/-- Reads the option of a letter, behind which other letters may stand. -/
def readOption (known : List Char) (words : List String) (index : Nat) (position : Nat)
    (c : Char) (rest : List Char) : OptionRead :=
  let isQuiet := known.head? == some ':'
  let behind := if rest.isEmpty then none else some (position + 1)
  match isValued? known c with
  | none =>
    if isQuiet then { letter := '?', value := some (String.singleton c), index, position := behind }
    else
      { letter := '?', value := none, index, position := behind
        complaint := some ("Illegal option -" ++ String.singleton c) }
  | some false => { letter := c, value := some "", index, position := behind }
  | some true =>
    if !rest.isEmpty then { letter := c, value := some (String.ofList rest), index }
    else
      match words[index - 1]? with
      | some value => { letter := c, value := some value, index := index + 1 }
      | none =>
        if isQuiet then { letter := ':', value := some (String.singleton c), index }
        else
          { letter := '?', value := none, index
            complaint := some ("No arg for -" ++ String.singleton c ++ " option") }

/-- The next option among words; the answer is the number of the next word if there is
none. -/
def nextOption (known : List Char) (words : List String) (index : Nat) (position : Option Nat) :
    Except Nat OptionRead :=
  let letters := match position with
    | some n => if index ≤ 1 then [] else ((words[index - 2]?.getD "").toList).drop n
    | none => []
  match letters with
  | c :: rest => .ok (readOption known words index (position.getD 0) c rest)
  | [] =>
    match (words[index - 1]?.getD "").toList with
    | ['-', '-'] => .error (index + 1)
    | '-' :: c :: rest => .ok (readOption known words (index + 1) 1 c rest)
    | _ => .error index

/-- Sets a variable without regard to what it means. -/
def put (name value : String) : Action Unit :=
  modify (fun s => s.assign name value false)

/-- **Reads the next option** into a variable. -/
def getopts : Builtin := fun _ arguments => do
  let (_, operands) ← optionsOf "" "" arguments
  match operands with
  | known :: name :: more => do
    let s ← get
    let words := if more.isEmpty then s.arguments else more
    let (index, position) :=
      if words.length + 1 < s.optionIndex then (1, none) else (s.optionIndex, s.optionPosition)
    match nextOption known.toList words index position with
    | .error index => do
      modify (fun s => { s with optionIndex := index, optionPosition := none })
      put "OPTIND" (toString index)
      setStatus 1
      assign name "?" false
    | .ok found => do
      match found.complaint with
      | some text => do
        let _ ← write 2 (text ++ "\n")
      | none => pure ()
      match found.value with
      | some value => assign "OPTARG" value false
      | none => Shell.unset "OPTARG"
      modify (fun s => { s with optionIndex := found.index, optionPosition := found.position })
      put "OPTIND" (toString found.index)
      setStatus 0
      assign name (String.singleton found.letter) false
  | _ => fail "Usage: getopts optstring var [arg]"

end Builtin

end Shell

end GoPlanner

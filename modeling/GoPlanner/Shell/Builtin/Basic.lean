import GoPlanner.Shell.Signal
import GoPlanner.Text.Numeral

/-!
# Builtin Commands

A builtin command changes the shell that runs it. It reads its options from its first
arguments; a wrong one is an error, which ends the command.

## Main definitions

* `Shell.Builtin`: builtin commands.
* `Shell.Builtin.optionsOf`: options in front of arguments.
* `Shell.Builtin.numberOf`: numbers among arguments.
* `Shell.Builtin.inApostrophes`: values as a shell reads them.
-/

namespace GoPlanner

namespace Shell

/-- **A builtin command** does something with its arguments. -/
abbrev Builtin : Type :=
  Inner → List String → Action Unit

namespace Builtin

/-! ### Output -/

/-- Prints a text, and complains if that cannot be done. -/
def print (text : String) : Action Unit := do
  let isDone ← write 1 text
  if isDone then pure ()
  else do
    complain (((← get).command.getD "") ++ ": I/O error")
    setStatus 1

/-- A value in apostrophes. Apostrophes in it stand between quotation marks. The kind of
the marks that are open is handed on. -/
def inApostrophesFrom (open? : Option Char) : List Char → List Char
  | [] => open?.toList
  | c :: cs =>
    let mark := if c = '\x27' then '\x22' else '\x27'
    if open? = some mark then c :: inApostrophesFrom open? cs
    else open?.toList ++ mark :: c :: inApostrophesFrom (some mark) cs

/-- **A value as a shell reads it.** -/
def inApostrophes (value : String) : String :=
  match value.toList with
  | [] => "\x27\x27"
  | '\x27' :: cs => String.ofList ('\x27' :: inApostrophesFrom (some '\x27') ('\x27' :: cs))
  | cs => String.ofList (inApostrophesFrom none cs)

/-! ### Arguments -/

/-- Options with their values, and the arguments behind them. -/
abbrev Options : Type :=
  List (Char × String) × List String

/-- The options of one argument, with the arguments behind them. -/
def lettersOf (plain valued : List Char) : List Char → List String → Except String Options
  | [], rest => .ok ([], rest)
  | c :: cs, rest =>
    if valued.contains c then
      match cs, rest with
      | [], value :: rest' => .ok ([(c, value)], rest')
      | [], [] => .error ("No arg for -" ++ String.singleton c ++ " option")
      | cs, rest => .ok ([(c, String.ofList cs)], rest)
    else if plain.contains c then
      (lettersOf plain valued cs rest).map (fun r => ((c, "") :: r.1, r.2))
    else .error ("Illegal option -" ++ String.singleton c)

/-- The options in front of arguments. -/
def optionsIn (plain valued : List Char) (arguments : List String) : Except String Options :=
  match arguments with
  | [] => .ok ([], [])
  | argument :: rest =>
    match argument.toList with
    | ['-', '-'] => .ok ([], rest)
    | '-' :: c :: cs =>
      match lettersOf plain valued (c :: cs) rest with
      | .error text => .error text
      | .ok (first, rest') =>
        if rest'.length ≤ rest.length then
          (optionsIn plain valued rest').map (fun r => (first ++ r.1, r.2))
        else .ok (first, rest')
    | _ => .ok ([], argument :: rest)
termination_by arguments.length

/-- **The options in front of arguments;** some have values. -/
def optionsOf (plain valued : String) (arguments : List String) : Action Options := do
  match optionsIn plain.toList valued.toList arguments with
  | .ok found => pure found
  | .error text => fail text

/-- Whether an option is among others. -/
def isGiven (options : List (Char × String)) (letter : Char) : Bool :=
  options.any (fun o => o.1 == letter)

/-- **The number of an argument.** -/
def numberOf (argument : String) : Action Nat := do
  match Program.decimal? argument with
  | some n => pure n
  | none => fail ("Illegal number: " ++ argument)

/-- Does nothing. -/
def nothing : Builtin := fun _ _ =>
  setStatus 0

end Builtin

end Shell

end GoPlanner

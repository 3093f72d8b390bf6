import GoPlanner.Program.Basic

/-!
# Options of Programs

Options may stand anywhere among the arguments, until two hyphens end them. An option is a
letter, and letters may be written together; the value of an option is what follows its
letter, or the next argument. Long names stand for letters.

## Main definitions

* `Program.Allowed`: the options of a program.
* `Program.Given`: the options and operands among arguments.
* `Program.given?`: reads arguments.
* `Program.withOptions`: a program that is run with its options.
-/

namespace GoPlanner

namespace Program

/-- **The options of a program.** -/
structure Allowed where
  /-- The name of the program. -/
  name : String
  /-- Letters without a value. -/
  plain : String := ""
  /-- Letters with a value. -/
  valued : String := ""
  /-- Long names, and the letters that they stand for. -/
  long : List (String × Char) := []
  /-- Whether options end at the first operand. -/
  isStrict : Bool := false
  /-- The status of a wrong use. -/
  misuse : Nat := 1

/-- **The options and operands** among arguments. -/
structure Given where
  /-- The options in order, with their values. -/
  options : List (Char × String) := []
  /-- The other arguments. -/
  operands : List String := []
deriving Inhabited

namespace Given

/-- Whether an option is given. -/
def has (g : Given) (letter : Char) : Bool :=
  g.options.any (fun o => o.1 == letter)

/-- The last value of an option. -/
def value? (g : Given) (letter : Char) : Option String :=
  g.options.reverse.lookup letter

/-- All values of an option. -/
def values (g : Given) (letter : Char) : List String :=
  (g.options.filter (fun o => o.1 == letter)).map (·.2)

/-- Of some options the one that is given last. -/
def last? (g : Given) (letters : String) : Option Char :=
  (g.options.reverse.find? (fun o => letters.contains o.1)).map (·.1)

/-- With one more option. -/
def withOption (letter : Char) (value : String) (g : Given) : Given :=
  { g with options := (letter, value) :: g.options }

/-- With one more operand. -/
def withOperand (operand : String) (g : Given) : Given :=
  { g with operands := operand :: g.operands }

end Given

/-- The long names that a name is an abbreviation of. -/
def longNames (a : Allowed) (name : String) : List (String × Char) :=
  match a.long.lookup name with
  | some letter => [(name, letter)]
  | none => a.long.filter (fun l => startsWith name l.1)

/-- **The options and operands among arguments,** or a complaint. Letters that are still
to be read from the last argument are handed on. -/
def given? (a : Allowed) (letters : List Char) (arguments : List String) :
    Except String Given :=
  match letters, arguments with
  | c :: more, rest =>
    if a.plain.contains c then (given? a more rest).map (Given.withOption c "")
    else if a.valued.contains c then
      match more, rest with
      | [], value :: rest' => (given? a [] rest').map (Given.withOption c value)
      | [], [] => .error ("option requires an argument -- \x27" ++ String.singleton c ++ "\x27")
      | more, rest => (given? a [] rest).map (Given.withOption c (String.ofList more))
    else .error ("invalid option -- \x27" ++ String.singleton c ++ "\x27")
  | [], [] => .ok {}
  | [], argument :: rest =>
    if argument = "--" then .ok { operands := rest }
    else
      match argument.toList with
      | '-' :: '-' :: long =>
        let name := String.ofList (long.takeWhile (fun c => c != '='))
        let value := if long.contains '=' then
            some (String.ofList (long.drop (name.length + 1)))
          else none
        match longNames a name with
        | [(full, letter)] =>
          if a.plain.contains letter then
            if value.isNone then (given? a [] rest).map (Given.withOption letter "")
            else .error ("option \x27--" ++ full ++ "\x27 doesn\x27t allow an argument")
          else
            match value with
            | some value => (given? a [] rest).map (Given.withOption letter value)
            | none =>
              match rest with
              | value :: rest' => (given? a [] rest').map (Given.withOption letter value)
              | [] => .error ("option \x27--" ++ full ++ "\x27 requires an argument")
        | _ => .error ("unrecognized option \x27" ++ argument ++ "\x27")
      | '-' :: c :: more => given? a (c :: more) rest
      | _ =>
        if a.isStrict then .ok { operands := argument :: rest }
        else (given? a [] rest).map (Given.withOperand argument)
termination_by (arguments.length, letters.length)

/-- The complaint about a wrong use of a program. -/
def misused (a : Allowed) (text : String) : Doing Unit := do
  complain (a.name ++ ": " ++ text)
  referToHelp a.misuse a.name

/-- **A program that is run with its options.** -/
def withOptions (a : Allowed) (run : Given → Doing Unit) : Program :=
  fun arguments =>
    match given? a [] arguments with
    | .ok g => run g
    | .error text => misused a text

/-- A program that needs an operand. -/
def withOperands (a : Allowed) (run : Given → Doing Unit) : Program :=
  withOptions a (fun g =>
    if g.operands.isEmpty then misused a "missing operand" else run g)

end Program

end GoPlanner

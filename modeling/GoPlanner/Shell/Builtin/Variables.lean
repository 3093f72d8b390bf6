import GoPlanner.Shell.Builtin.Basic
import GoPlanner.Shell.Setting
import GoPlanner.Shell.Variable

/-!
# Builtin Commands for Variables

## Main definitions

* `Shell.Builtin.mark`: variables that programs see, and constant ones.
* `Shell.Builtin.local`, `Shell.Builtin.unset`: variables that end.
* `Shell.Builtin.setOptions`, `Shell.Builtin.shift`: options and arguments.
-/

namespace GoPlanner

namespace Shell

namespace Builtin

/-! ### Marks of variables -/

/-- A name, and the value behind the sign if there is one. -/
def nameAndValue (argument : String) : String × Option String :=
  let cs := argument.toList
  let name := cs.takeWhile (fun c => c != '=')
  match cs.drop name.length with
  | _ :: value => (String.ofList name, some (String.ofList value))
  | [] => (argument, none)

/-- The lines that show variables, in the order of their names. -/
def listed (start : String) (bindings : List (String × Variable)) : String :=
  let sorted := bindings.mergeSort (fun a b => decide (a.1 ≤ b.1))
  String.join (sorted.map (fun b =>
    start ++ b.1 ++ ((b.2.value.map (fun v => "=" ++ inApostrophes v)).getD "") ++ "\n"))

/-- Marks a variable; it is set if there is a value. -/
def markOne (change : Variable → Variable) (argument : String) : Action Unit := do
  let (name, value) := nameAndValue argument
  match value with
  | some value => assign name value false
  | none => if !isName name then fail (name ++ ": bad variable name")
  modify (fun s => s.bind name (change ((s.bindings.lookup name).getD {})))

/-- **Marks variables,** or lists those that are marked. -/
def mark (name : String) (isMarked : Variable → Bool) (change : Variable → Variable) : Builtin :=
  fun _ arguments => do
    let (options, operands) ← optionsOf "p" "" arguments
    setStatus 0
    if !options.isEmpty || operands.isEmpty then
      print (listed (name ++ " ") ((← get).bindings.filter (fun b => isMarked b.2)))
    else operands.forM (markOne change)

/-- Shows variables to programs. -/
def exportTo : Builtin :=
  mark "export" (·.isExported) (fun v => { v with isExported := true })

/-- Makes variables constant. -/
def readonly : Builtin :=
  mark "readonly" (·.isConstant) (fun v => { v with isConstant := true })

/-! ### Variables that end -/

/-- **Saves variables** until the function ends. -/
def localTo : Builtin := fun _ arguments => do
  let (_, operands) ← optionsOf "" "" arguments
  setStatus 0
  if (← get).saved.isEmpty then fail "not in a function"
  else
    operands.forM (fun argument => do
      let (name, value) := nameAndValue argument
      if name != "-" then do
        if !isName name then fail (name ++ ": bad variable name")
        saveLocally name
        match value with
        | some value => assign name value false
        | none => pure ())

/-- **Removes variables** or functions. -/
def unset : Builtin := fun _ arguments => do
  let (options, operands) ← optionsOf "fv" "" arguments
  setStatus 0
  if (options.getLast?.map (·.1)) = some 'f' then
    modify (fun s => { s with
      functions := s.functions.filter (fun f => !operands.contains f.1) })
  else operands.forM Shell.unset

/-! ### Options and arguments -/

/-- **Sets options and arguments,** or lists all variables. -/
def setOptions : Builtin := fun _ arguments => do
  setStatus 0
  if arguments.isEmpty then
    print (listed "" ((← get).bindings.filter (fun b => b.2.value.isSome)))
  else
    match Settings.read false arguments with
    | .error text => fail text
    | .ok wanted => do
      modify (fun s => s.apply wanted)
      let s ← get
      wanted.listings.forM (fun inWords => print (s.listing inWords))
      match wanted.operands with
      | some operands =>
        modify (fun s => { s with
          arguments := operands
          optionIndex := 1
          optionPosition := none })
      | none => pure ()

/-- **Takes arguments away** from the first one on. -/
def shift : Builtin := fun _ arguments => do
  let n ← match arguments with
    | [] => pure 1
    | a :: _ => numberOf a
  if (← get).arguments.length < n then fail "can\x27t shift that many"
  else
    modify (fun s => { s with
      arguments := s.arguments.drop n
      optionIndex := 1
      optionPosition := none
      status := 0 })

end Builtin

end Shell

end GoPlanner

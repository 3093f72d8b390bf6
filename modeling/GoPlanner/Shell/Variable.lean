import GoPlanner.Shell.State
import GoPlanner.Text.Numeral

/-!
# Variables and Parameters

A parameter is a variable, an argument by its number, or one of the values that the shell
keeps for itself under a special character. A variable may be constant, may be seen by
the programs that are started, and may be restored at the end of a function.

## Main definitions

* `Shell.State.valueOf?`, `Shell.State.parameter?`: values.
* `Shell.assign`, `Shell.unset`: changes of variables.
* `Shell.saveLocally`, `Shell.inScope`: variables of functions.
* `Shell.State.environment`: what programs see.
-/

namespace GoPlanner

namespace Shell

/-! ### Values -/

/-- The value of a variable. -/
def State.valueOf? (s : State) (name : String) : Option String :=
  (s.bindings.lookup name).bind (·.value)

/-- The letters of the options that are set. -/
def State.optionLetters (s : State) : String :=
  String.ofList ("pubaCEVvxsnmiIfe".toList.filter s.options.contains)

/-- The character that stands between arguments written together. -/
def State.joiner (s : State) : String :=
  match s.valueOf? "IFS" with
  | none => " "
  | some ifs => String.ofList (ifs.toList.take 1)

/-- **The value of a parameter.** -/
def State.parameter? (s : State) (name : String) : Option String :=
  match name with
  | "@" => some (s.joiner.intercalate s.arguments)
  | "*" => some (s.joiner.intercalate s.arguments)
  | "#" => some (toString s.arguments.length)
  | "?" => some (toString s.status)
  | "$" => some (toString s.process)
  | "!" => s.lastJob.map toString
  | "-" => some s.optionLetters
  | "0" => some s.name
  | _ =>
    match Numeral.readIn 10 name.toList with
    | some (0, []) => some s.name
    | some (n + 1, []) => s.arguments[n]?
    | _ => s.valueOf? name

/-! ### Rows of tables -/

/-- The row of a name in a table with a number of rows. -/
def rowOf (rows : Nat) (name : String) : Nat :=
  let numbers := name.toList.map Char.toNat
  (16 * numbers.headD 0 + numbers.foldl (· + ·) 0) % rows

/-- Entries in the order of their rows. -/
def inRows (rows : Nat) (entries : List (String × String)) : List (String × String) :=
  entries.mergeSort (fun a b => decide (rowOf rows a.1 ≤ rowOf rows b.1))

/-- What programs see of the variables. -/
def State.environment (s : State) : List (String × String) :=
  inRows 39 (s.bindings.filterMap (fun b =>
    if b.2.isExported then b.2.value.map (fun v => (b.1, v)) else none))

/-! ### Changes -/

/-- Entries with one in the stead of the one of that name, or behind the others. -/
def withEntry {α : Type} (name : String) (value : α) : List (String × α) → List (String × α)
  | [] => [(name, value)]
  | b :: others =>
    if b.1 = name then (name, value) :: others else b :: withEntry name value others

/-- Puts a variable in the stead of the one of that name. -/
def State.bind (s : State) (name : String) (v : Variable) : State :=
  { s with bindings := withEntry name v s.bindings }

/-- Sets a variable without any question. -/
def State.assign (s : State) (name value : String) (isExported : Bool) : State :=
  let before := (s.bindings.lookup name).getD {}
  s.bind name { before with
    value := some value
    isExported := before.isExported || isExported || s.options.contains 'a' }

/-- **Sets a variable.** Its name must be one, and it must not be constant. -/
def assign (name value : String) (isExported : Bool) : Action Unit := do
  if !isName name then fail (name ++ ": bad variable name")
  else if ((← get).bindings.lookup name).any (·.isConstant) then
    fail (name ++ ": is read only")
  else do
    modify (fun s => s.assign name value isExported)
    if name = "OPTIND" then
      modify (fun s => { s with
        optionIndex := max 1 (((Numeral.readIn 10 value.toList).map (·.1)).getD 1)
        optionPosition := none })
    else if name = "PATH" then modify (fun s => { s with found := [] })

/-- **Removes a variable,** unless it is constant. -/
def unset (name : String) : Action Unit := do
  if !isName name then fail (name ++ ": bad variable name")
  else if ((← get).bindings.lookup name).any (·.isConstant) then fail (name ++ ": is read only")
  else modify (fun s => { s with bindings := s.bindings.filter (fun b => b.1 != name) })

/-! ### Variables of functions -/

/-- **Saves a variable** that the innermost function has to restore. -/
def saveLocally (name : String) : Action Unit :=
  modify (fun s =>
    match s.saved with
    | [] => s
    | first :: others =>
      if first.any (fun b => b.1 == name) then s
      else { s with saved := ((name, s.bindings.lookup name) :: first) :: others })

/-- The state with a variable as it was saved. -/
def State.restore (s : State) (b : String × Option Variable) : State :=
  match b.2 with
  | some v => s.bind b.1 v
  | none => { s with bindings := s.bindings.filter (fun c => c.1 != b.1) }

/-- **Restores the variables** that are saved while a computation runs. -/
def inScope {α : Type} (a : Action α) : Action α := do
  modify (fun s => { s with saved := [] :: s.saved })
  let result ← attempt a
  modify (fun s => { (s.saved.headD []).foldl State.restore s with saved := s.saved.tail })
  resume result

end Shell

end GoPlanner

import GoPlanner.Shell.Builtin.Basic

/-!
# Builtin Commands for Processes

A command in the background is run to its end at once, and its status is kept for those
who wait for it.

## Main definitions

* `Shell.Builtin.kill`, `Shell.Builtin.trap`: signals.
* `Shell.Builtin.wait`: processes that were not waited for.
* `Shell.Builtin.umask`: the permissions of new files.
-/

namespace GoPlanner

namespace Shell

namespace Builtin

/-! ### Signals -/

/-- The wrong use of the command that sends signals. -/
def killUsage {α : Type} : Action α :=
  fail ("Usage: kill [-s sigspec | -signum | -sigspec] [pid | job]... or\n" ++
    "kill -l [exitstatus]")

/-- The process that an argument stands for. -/
def processOf (argument : String) : Action Nat := do
  match argument.toList with
  | '%' :: _ => fail ("No such job: " ++ argument)
  | '-' :: cs => numberOf (String.ofList cs)
  | _ => numberOf argument

/-- Sends a signal to a process, and tells whether that could be done. A process in the
background counts as one that is run until somebody waits for it. -/
def send (signal process : Nat) : Action Bool := do
  let s ← get
  if process = s.process then do
    if signal != 0 then set { s with signals := s.signals ++ [(process, signal)] }
    pure true
  else if (s.jobs.lookup process).isSome then do
    if signal != 0 && !isHarmless signal then
      set { s with jobs := s.jobs.map (fun (j : Nat × Nat) =>
        if j.1 = process then (process, killedStatus signal) else j) }
    pure true
  else pure false

/-- Sends a signal to processes. -/
def sendAll (signal : Nat) (arguments : List String) : Action Unit := do
  setStatus 0
  arguments.forM (fun a => do
    if ← send signal (← processOf a) then pure ()
    else do
      complain "No such process\n"
      setStatus 1)

/-- The name of the signal of a number or a status. -/
def listSignals (arguments : List String) : Action Unit := do
  match arguments with
  | [] => print ("0\n" ++ Program.ended signalNames.tail)
  | a :: _ => do
    let n ← numberOf a
    let signal := if 128 < n then n - 128 else n
    if 0 < signal && signal < signalNames.length then print (signalName signal ++ "\n")
    else fail ("invalid signal number or exit status: " ++ a)
  setStatus 0

/-- Signals other than the end of the shell by their names. -/
def sendable? (word : String) : Option Nat :=
  if word.toList.map Char.toUpper = "EXIT".toList then none else signal? word

/-- **Sends signals.** -/
def kill : Builtin := fun _ arguments => do
  let start := match arguments with
    | first :: rest =>
      match first.toList with
      | '-' :: cs => (sendable? (String.ofList cs)).map (fun signal => (signal, rest))
      | _ => some (15, arguments)
    | [] => none
  match arguments, start with
  | [], _ => killUsage
  | _, some (_, []) => killUsage
  | _, some (signal, processes) => sendAll signal processes
  | _, none => do
    let (options, operands) ← optionsOf "l" "s" arguments
    let named ← (options.filter (fun o => o.1 == 's')).mapM (fun o =>
      match sendable? o.2 with
      | some signal => pure signal
      | none => fail ("invalid signal number or name: " ++ o.2))
    if isGiven options 'l' then
      if named.isEmpty then listSignals operands else killUsage
    else if operands.isEmpty then killUsage
    else sendAll (named.getLast?.getD 15) operands

/-- Sets what is done when a signal comes; without an action that is what it does by
itself. -/
def setTrap (action : Option String) (signal : Nat) : Action Unit :=
  modify (fun s =>
    let others := s.traps.filter (fun t => t.1 != signal)
    { s with traps := (action.map (fun a => (signal, a))).toList ++ others })

/-- Sets traps for signals, up to the first that is none. -/
def setTraps (action : Option String) : List String → Action Unit
  | [] => setStatus 0
  | word :: others =>
    match signal? word with
    | some signal => do
      setTrap action signal
      setTraps action others
    | none => do
      let _ ← write 2 ("trap: " ++ word ++ ": bad trap\n")
      setStatus 1

/-- **Sets traps,** or lists them. -/
def trap : Builtin := fun _ arguments => do
  let (_, operands) ← optionsOf "" "" arguments
  match operands with
  | [] => do
    let traps := (← get).traps.mergeSort (fun a b => decide (a.1 ≤ b.1))
    setStatus 0
    print (String.join (traps.map (fun t =>
      "trap -- " ++ inApostrophes t.2 ++ " " ++ signalName t.1 ++ "\n")))
  | first :: rest =>
    if rest.isEmpty || (Program.decimal? first).any (· < signalNames.length) then
      setTraps none operands
    else setTraps (if first = "-" then none else some first) rest

/-! ### Waiting -/

/-- Waits for a process. -/
def waitFor (argument : String) : Action Unit := do
  let n ← processOf argument
  match (← get).jobs.lookup n with
  | some status =>
    if 128 < status && status < killedStatus signalNames.length then died (status - 128)
    else setStatus status
  | none => setStatus 127

/-- **Waits for processes;** without arguments for all of them. -/
def wait : Builtin := fun _ arguments => do
  let (_, operands) ← optionsOf "" "" arguments
  setStatus 0
  if operands.isEmpty then modify (fun s => { s with jobs := [] })
  else operands.forM waitFor

/-- Lists processes. All of them are done when they could be listed. -/
def jobs : Builtin := fun _ arguments => do
  let _ ← optionsOf "lp" "" arguments
  setStatus 0

/-- Refuses to change a process. -/
def control : Builtin := fun _ arguments => do
  let (_, operands) ← optionsOf "" "" arguments
  match operands with
  | [] => fail "No current job"
  | a :: _ => fail ("No such job: " ++ a)

/-! ### Limits -/

/-- Octal digits of a number, at least a number of them. -/
def octal (n : Nat) : String :=
  Program.padded '0' 4 (String.ofList (Nat.toDigits 8 n))

/-- The permissions of one group in letters. -/
def permissionLetters (n : Nat) : String :=
  (if n / 4 % 2 = 0 then "r" else "") ++ (if n / 2 % 2 = 0 then "w" else "") ++
    (if n % 2 = 0 then "x" else "")

/-- **Sets the permissions** that new files do not have, or prints them. -/
def umask : Builtin := fun _ arguments => do
  let (options, operands) ← optionsOf "S" "" arguments
  let mask := (← get).mask
  setStatus 0
  match operands with
  | [] =>
    if options.isEmpty then print (octal mask ++ "\n")
    else
      print ("u=" ++ permissionLetters (mask / 64) ++ ",g=" ++ permissionLetters (mask / 8 % 8) ++
        ",o=" ++ permissionLetters (mask % 8) ++ "\n")
  | a :: _ =>
    let cs := a.toList
    if cs.all (Numeral.isDigitIn 8) && !cs.isEmpty then
      modify (fun s => { s with mask := Numeral.ofDigits 8 cs % 512 })
    else if cs.any (fun c => c.isDigit) then fail ("Illegal number: " ++ a)
    else if cs.all ("ugoarwxXst+-=,".toList.contains ·) then pure ()
    else fail ("Illegal mode: " ++ a)

/-- Prints a limit: there is none. -/
def ulimit : Builtin := fun _ arguments => do
  let (_, operands) ← optionsOf "HSatfdscmlpnvwr" "" arguments
  setStatus 0
  match operands with
  | [] => print "unlimited\n"
  | [limit] =>
    if limit != "unlimited" && !(limit.toList.all Char.isDigit) then complainFor "bad number"
  | _ => complainFor "too many arguments"
where
  /-- Complains with the status of a wrong use. -/
  complainFor (text : String) : Action Unit := do
    complain text
    setStatus 2

/-- Prints how long processes have run: no time that counts. -/
def times : Builtin := fun _ _ => do
  setStatus 0
  print "0m0.000000s 0m0.000000s\n0m0.000000s 0m0.000000s\n"

end Builtin

end Shell

end GoPlanner

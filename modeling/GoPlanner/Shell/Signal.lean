import GoPlanner.Program.Basic
import GoPlanner.Shell.Expansion

/-!
# Signals

A signal ends a process, unless that process has set a trap for it. The shell waits until
its command is done before it runs the trap.

## Main definitions

* `Shell.signalNames`: the names of signals, by number.
* `Shell.signal?`: the signal that a word stands for.
* `Shell.deliver`: what signals to this shell do.
* `Shell.died`: what is told about a process that a signal ended.
-/

namespace GoPlanner

namespace Shell

/-- **The names of signals,** by number; the end of a shell is the first of them. -/
def signalNames : List String :=
  ["EXIT", "HUP", "INT", "QUIT", "ILL", "TRAP", "ABRT", "BUS", "FPE", "KILL", "USR1", "SEGV",
    "USR2", "PIPE", "ALRM", "TERM", "16", "CHLD", "CONT", "STOP", "TSTP", "TTIN", "TTOU",
    "URG", "XCPU", "XFSZ", "VTALRM", "PROF", "WINCH", "IO", "PWR", "SYS", "32", "33", "RTMIN"] ++
    (List.range 15).map (fun n => "RTMIN+" ++ toString (n + 1)) ++
    (List.range 14).map (fun n => "RTMAX-" ++ toString (14 - n)) ++ ["RTMAX"]

/-- What is told about a process that a signal ended. -/
def signalTexts : List String :=
  ["", "Hangup", "", "Quit", "Illegal instruction", "Trace/breakpoint trap", "Aborted",
    "Bus error", "Floating point exception", "Killed", "User defined signal 1",
    "Segmentation fault", "User defined signal 2", "", "Alarm clock", "Terminated",
    "Stack fault", "", "", "", "", "", "", "", "CPU time limit exceeded",
    "File size limit exceeded", "Virtual timer expired", "Profiling timer expired", "",
    "I/O possible", "Power failure", "Bad system call"]

/-- **The signal that a word stands for:** its number or its name. -/
def signal? (word : String) : Option Nat :=
  match Program.decimal? word with
  | some n => if n < 65 then some n else none
  | none => signalNames.findIdx? (fun name => name == String.ofList (word.toList.map Char.toUpper))

/-- The name of a signal. -/
def signalName (signal : Nat) : String :=
  signalNames.getD signal (toString signal)

/-- **What a signal does** to this shell. -/
def receive (inner : Inner) (signal : Nat) : Action Unit := do
  let s ← get
  match s.traps.lookup signal with
  | some "" => pure ()
  | some action => do
    let before := s.trappedStatus
    set { s with trappedStatus := some (before.getD s.status), command := none }
    inner.script false action
    modify (fun s' => { s' with status := s.status, trappedStatus := before })
  | none => if isHarmless signal then pure () else throw (.killed signal)

/-- **What signals to this shell do.** A shell within another one leaves them to that
one. -/
def deliver (inner : Inner) : Action Unit := do
  let s ← get
  if s.isInner then pure ()
  else do
    set { s with signals := s.signals.filter (fun x => x.1 != s.process) }
    (s.signals.filter (fun x => x.1 == s.process)).forM (fun x => receive inner x.2)

/-- **What is told about a process** that a signal ended, and its status. -/
def died (signal : Nat) : Action Unit := do
  let text := signalTexts.getD signal ""
  if text != "" then do
    let _ ← write 2 (text ++ "\n")
  setStatus (killedStatus signal)

end Shell

end GoPlanner

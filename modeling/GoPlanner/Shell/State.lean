import GoPlanner.Session
import GoPlanner.Shell.Token
import GoPlanner.Text.Octets

/-!
# States of Shells

A running shell changes files, writes to its channels, and keeps variables, functions and
options. All texts are octets. A channel leads to a stream, and several channels may lead
to the same one; a stream is the output or the complaints of the whole run, an open file
with the position in it, or a pipe with the text that nobody has read so far. The writer
of a pipe runs to its end before the reader starts.

## Main definitions

* `Shell.Stream`: where channels lead.
* `Shell.Variable`, `Shell.State`: the state of a shell.
* `Shell.Jump`: how a command may leave what surrounds it.
* `Shell.Action`: computations of a shell.
* `Shell.write`, `Shell.readable`, `Shell.consume`: what goes through channels.
* `Shell.complain`, `Shell.fail`: complaints and errors.
-/

namespace GoPlanner

namespace Shell

/-- **Where a channel leads.** -/
inductive Stream where
  /-- To the output of the run. -/
  | output
  /-- To the complaints of the run. -/
  | complaints
  /-- Nowhere; there is nothing to read. -/
  | nowhere
  /-- To a file, at a position. -/
  | file (place : Place) (position : Nat) (opening : Opening)
  /-- To a pipe with a text in it. -/
  | pipe (text : String)
deriving DecidableEq, Inhabited

/-- **A variable.** -/
structure Variable where
  /-- Its value, if it has one. -/
  value : Option String := none
  /-- Whether programs see it. -/
  isExported : Bool := false
  /-- Whether it keeps its value. -/
  isConstant : Bool := false
deriving DecidableEq, Inhabited

/-- **The state of a shell.** The first fields belong to the whole run; the others change
for each shell within it. -/
structure State where
  /-- The files; the working directory is theirs. -/
  tree : FileTree
  /-- The streams, by number. -/
  streams : List Stream := [.nowhere, .output, .complaints]
  /-- What was printed on the output of the run. -/
  output : String := ""
  /-- What was printed as a complaint. -/
  complaints : String := ""
  /-- The number of the next process. -/
  nextProcess : Nat := 4097
  /-- Signals to other processes. -/
  signals : List (Nat × Nat) := []
  /-- The number of this process. -/
  process : Nat := 4096
  /-- The streams of the channels. -/
  channels : List (Nat × Nat) := [(0, 0), (1, 1), (2, 2)]
  /-- The name by which the script calls itself. -/
  name : String
  /-- The arguments. -/
  arguments : List String
  /-- The variables. -/
  bindings : List (String × Variable) := []
  /-- The functions. -/
  functions : List (String × Command) := []
  /-- The texts that words stand for. -/
  aliases : List (String × String) := []
  /-- The documents of the script, by number. -/
  documents : List (Nat × Word) := []
  /-- The number of the next document. -/
  nextDocument : Nat := 0
  /-- The status of the last command. -/
  status : Nat := 0
  /-- The status of the last command whose output was taken. -/
  innerStatus : Nat := 0
  /-- The options that are set. -/
  options : List Char := []
  /-- What is done when a signal comes; the end of the shell counts as signal zero. -/
  traps : List (Nat × String) := []
  /-- The line of the command that is run. -/
  line : Nat := 1
  /-- The line that the reading of the script has come to. -/
  readerLine : Nat := 1
  /-- The builtin command that is run. -/
  command : Option String := none
  /-- How many functions are run. -/
  functionDepth : Nat := 0
  /-- How many loops are run in the function. -/
  loopDepth : Nat := 0
  /-- The variables that functions have to restore, the innermost function first. -/
  saved : List (List (String × Option Variable)) := []
  /-- The path of the working directory as it was asked for. -/
  directory : String := "/"
  /-- The processes that were not waited for, with their statuses. -/
  jobs : List (Nat × Nat) := []
  /-- The last of them. -/
  lastJob : Option Nat := none
  /-- Whether this is a shell within another one. -/
  isInner : Bool := false
  /-- The number of the argument that is read next for options. -/
  optionIndex : Nat := 1
  /-- How far the argument in front of it has been read, if letters are left in it. -/
  optionPosition : Option Nat := none
  /-- The programs that were found under their names. -/
  found : List (String × String) := []
  /-- The permissions that new files do not have. -/
  mask : Nat := 18
  /-- The status in front of the trap that is run. -/
  trappedStatus : Option Nat := none
deriving Inhabited

/-! ### Computations -/

/-- **How a command may leave** what surrounds it. -/
inductive Jump where
  /-- The shell ends, with the status in its state. -/
  | leaves
  /-- An error ends the shell or the builtin command. -/
  | fails
  /-- A number of loops ends. -/
  | breaks (count : Nat)
  /-- A number of loops ends, and the outermost of them goes on. -/
  | continues (count : Nat)
  /-- The function ends. -/
  | returns
  /-- A signal ends the shell. -/
  | killed (signal : Nat)
deriving DecidableEq, Inhabited

/-- **Computations of a shell.** -/
abbrev Action (α : Type) : Type :=
  ExceptT Jump (StateM State) α

/-- The outcome of a computation. -/
def Action.outcome {α : Type} (a : Action α) (s : State) : Except Jump α × State :=
  Id.run (StateT.run (ExceptT.run a) s)

/-- Runs a computation to its end, without being left. -/
def attempt {α : Type} (a : Action α) : Action (Except Jump α) := do
  let (result, s) := a.outcome (← get)
  set s
  pure result

/-- Goes on as a computation ended. -/
def resume {α : Type} : Except Jump α → Action α
  | .ok a => pure a
  | .error jump => throw jump

/-- **Changes part of the state** while a computation runs. -/
def during {α β : Type} (part : State → β) (put : β → State → State) (change : β → β)
    (a : Action α) : Action α := do
  let before := part (← get)
  modify (put (change before))
  let result ← attempt a
  modify (put before)
  resume result

/-! ### Paths and files -/

/-- The path that octets name. -/
def pathOf (octets : String) : Path :=
  ⟨Octets.toText octets⟩

/-- **A path from a directory,** without dots. -/
def pathFrom (directory path : String) : String :=
  let start := if path.startsWith "/" then [] else (pieces '/' directory).filter (· != "")
  let steps := (pieces '/' path).foldl (fun steps step =>
    if step = "" || step = "." then steps
    else if step = ".." then steps.dropLast
    else steps ++ [step]) start
  "/" ++ "/".intercalate steps

/-- The content at a place, as octets. -/
def octetsAt (t : FileTree) (place : Place) : String :=
  match t.node? place with
  | some (.file c _) => Octets.ofContent c
  | _ => ""

/-! ### Channels -/

/-- The number of the stream that a channel leads to. -/
def State.streamOf? (s : State) (channel : Nat) : Option Nat :=
  s.channels.lookup channel

/-- A text with other octets from a position on. -/
def overwritten (text : String) (position : Nat) (written : String) : String :=
  let cs := text.toList
  let gap := List.replicate (position - cs.length) '\x00'
  String.ofList (cs.take position ++ gap ++ written.toList ++ cs.drop (position + written.length))

/-- The state behind writing a text to a stream, unless that cannot be written to. -/
def State.writeTo? (s : State) (number : Nat) (text : String) : Option State :=
  match s.streams[number]? with
  | some .output => some { s with output := s.output ++ text }
  | some .complaints => some { s with complaints := s.complaints ++ text }
  | some .nowhere => some s
  | some (.pipe before) =>
    some { s with streams := s.streams.set number (.pipe (before ++ text)) }
  | some (.file place position opening) =>
    if opening = .reading then none
    else
      match s.tree.node? place with
      | some (.file c _) =>
        let before := Octets.ofContent c
        let position := if opening = .appending then before.length else position
        some { s with
          tree := s.tree.setContent place (Octets.toContent (overwritten before position text))
          streams := s.streams.set number (.file place (position + text.length) opening) }
      | _ => some s
  | none => none

/-- **Writes a text** to a channel, and tells whether that could be done. -/
def write (channel : Nat) (text : String) : Action Bool := do
  let s ← get
  match s.streamOf? channel with
  | none => pure (text == "")
  | some number =>
    match s.writeTo? number text with
    | some s' => do
      set s'
      pure true
    | none => pure (text == "")

/-- What can be read from a stream. -/
def State.readable (s : State) (number : Nat) : String :=
  match s.streams[number]? with
  | some (.pipe text) => text
  | some (.file place position opening) =>
    if opening = .reading || opening = .both then
      String.ofList ((octetsAt s.tree place).toList.drop position)
    else ""
  | _ => ""

/-- The stream behind a text that was read from it. -/
def Stream.behind (text : String) : Stream → Stream
  | pipe all => pipe (String.ofList (all.toList.drop text.length))
  | file place position opening => file place (position + text.length) opening
  | other => other

/-- What can be read from a channel; it is not used up. -/
def readable (channel : Nat) : Action String := do
  let s ← get
  pure (((s.streamOf? channel).map s.readable).getD "")

/-- **Uses up a text** that can be read from a channel. -/
def consume (channel : Nat) (text : String) : Action Unit :=
  modify (fun s =>
    match s.streamOf? channel with
    | none => s
    | some number =>
      { s with streams := s.streams.modify number (Stream.behind text) })

/-- A new stream, by its number. -/
def newStream (stream : Stream) : Action Nat := do
  let n := (← get).streams.length
  modify (fun s => { s with streams := s.streams ++ [stream] })
  pure n

/-- Lets a channel lead to a stream. -/
def connect (channel number : Nat) : Action Unit :=
  modify (fun s =>
    { s with channels := (channel, number) :: s.channels.filter (fun c => c.1 != channel) })

/-- Closes a channel. -/
def disconnect (channel : Nat) : Action Unit :=
  modify (fun s => { s with channels := s.channels.filter (fun c => c.1 != channel) })

/-- Restores the channels behind a computation. -/
def keepingChannels {α : Type} (a : Action α) : Action α :=
  during (·.channels) (fun channels s => { s with channels := channels }) id a

/-! ### Complaints -/

/-- The beginning of a complaint. -/
def complaintStart : Action String := do
  let s ← get
  pure (s.name ++ ": " ++ toString s.line ++ ": " ++
    ((s.command.map (· ++ ": ")).getD ""))

/-- **Complains** about the command that is run. -/
def complain (text : String) : Action Unit := do
  let _ ← write 2 ((← complaintStart) ++ text ++ "\n")
  pure ()

/-- The status of the last command. -/
def setStatus (status : Nat) : Action Unit :=
  modify (fun s => { s with status := status })

/-- **An error:** a complaint, and the command does not go on. -/
def fail {α : Type} (text : String) : Action α := do
  complain text
  setStatus 2
  throw .fails

/-- The text of a fault; if nothing is there, that is said in words of its own. -/
def faultText (fault : Fault) (missing : String) : String :=
  match fault with
  | .system n => if fault = .noEntry || fault = .notDirectory then missing else systemText n
  | other => other.message

/-! ### Signals -/

/-- Signals that do nothing unless there is a trap. -/
def isHarmless (signal : Nat) : Bool :=
  [0, 17, 18, 19, 20, 21, 22, 23, 28].contains signal

/-- Ends this shell if it was sent a signal that ends it while others were run. -/
def endIfKilled : Action Unit := do
  let s ← get
  let isFatal (x : Nat × Nat) : Bool :=
    x.1 == s.process && !isHarmless x.2 && (s.traps.lookup x.2).isNone
  match s.signals.find? isFatal with
  | some x => if s.isInner then pure () else throw (.killed x.2)
  | none => pure ()

/-! ### Options -/

/-- Whether an option is set. -/
def hasOption (option : Char) : Action Bool := do
  pure ((← get).options.contains option)

end Shell

end GoPlanner

import GoPlanner.Shell.Simple

/-!
# Running Scripts

A command is run step by step: each step runs the commands within a command by a function
that is handed down, so that the depth of a run is bounded. A script is read one line at a
time, because a line may change how the next one is read.

## Main definitions

* `Shell.step`: runs a command whose parts can be run.
* `Shell.runLines`: runs the lines of a script.
* `Shell.runWithin`, `Shell.scriptWithin`: commands and scripts, up to a depth.
* `Shell.inner`: how commands and scripts are run.
-/

namespace GoPlanner

namespace Shell

/-! ### Status -/

/-- **The end of a command:** signals are received, and a failure ends the shell if it is
to do so, unless the failure is asked for. -/
def finished (inner : Inner) (isTested isChecked : Bool) : Action Unit := do
  let status := (← get).status
  deliver inner
  if isChecked && status != 0 && !isTested && (← hasOption 'e') then throw .leaves

/-- Whether the last command succeeded. -/
def hasSucceeded : Action Bool := do
  pure ((← get).status == 0)

/-! ### Loops -/

/-- How often a loop is run at most. A loop that nobody stops ends as if nobody read what
it writes. -/
def maxRounds : Nat := 20000

/-- Whether a loop goes on behind a part of it. Jumps out of this loop end here. -/
def loopsOn (result : Except Jump Unit) : Action Bool :=
  match result with
  | .ok () => pure true
  | .error (.breaks (n + 2)) => throw (.breaks (n + 1))
  | .error (.breaks _) => pure false
  | .error (.continues (n + 2)) => throw (.continues (n + 1))
  | .error (.continues _) => pure true
  | .error jump => throw jump

/-- Runs a command within one loop more. -/
def inLoop (a : Action Unit) : Action Unit :=
  during (·.loopDepth) (fun n s => { s with loopDepth := n }) (· + 1) a

/-- One round of a loop with a test. The status of the loop is the one of its body, which
is kept in the meantime. -/
def testedRound (inner : Inner) (isTested isNegated : Bool) (test body : Command)
    (status : Nat) : Action (Option Nat) := do
  let tested ← attempt (inner.run true test)
  match tested with
  | .ok () => do
    if (← hasSucceeded) == isNegated then do
      setStatus status
      pure none
    else do
      let isOn ← loopsOn (← attempt (inner.run isTested body))
      let behind := (← get).status
      pure (if isOn then some behind else none)
  | jump => do
    let isOn ← loopsOn jump
    setStatus status
    pure (if isOn then some status else none)

/-- Runs the rounds of a loop with a test. -/
def testedRounds (inner : Inner) (isTested isNegated : Bool) (test body : Command) :
    Nat → Nat → Action Unit
  | 0, _ => throw (.killed 13)
  | n + 1, status => do
    match ← testedRound inner isTested isNegated test body status with
    | some status => testedRounds inner isTested isNegated test body n status
    | none => pure ()

/-- Runs a loop over values. -/
def valueRounds (inner : Inner) (isTested : Bool) (name : String) (body : Command) :
    List String → Action Unit
  | [] => pure ()
  | value :: values => do
    assign name value false
    if ← loopsOn (← attempt (inner.run isTested body)) then
      valueRounds inner isTested name body values

/-! ### Pipelines -/

/-- Runs the stages of a pipeline, of which the first one reads from a stream. They all
begin with the same status. -/
def runStages (inner : Inner) (isTested : Bool) (status : Nat) (input : Option Nat) :
    List Command → Action Unit
  | [] => pure ()
  | [last] =>
    keepingChannels (do
      input.toList.forM (connect 0)
      setStatus status
      subshell inner (inner.run isTested last))
  | stage :: stages => do
    let n ← newStream (.pipe "")
    keepingChannels (do
      input.toList.forM (connect 0)
      connect 1 n
      setStatus status
      subshell inner (inner.run isTested stage))
    runStages inner isTested status (some n) stages

/-- Runs a command in the background, where there is nothing to read. -/
def runBackground (inner : Inner) (command : Command) : Action Unit := do
  let n ← newStream .nowhere
  modify (fun s => { s with nextProcess := s.nextProcess + 1 })
  keepingChannels (do
    connect 0 n
    subshell inner (inner.run false command))
  modify (fun s =>
    let process := s.nextProcess - 1
    { s with jobs := s.jobs ++ [(process, s.status)], lastJob := some process, status := 0 })

/-! ### Commands -/

/-- Whether a text fits one of the patterns of an arm. -/
def fitsAny (inner : Inner) (text : String) : List Word → Action Bool
  | [] => pure false
  | w :: words => do
    if (← expandPattern inner w).fits text.toList then pure true else fitsAny inner text words

/-- Runs the first arm with a pattern that a text fits. -/
def runArms (inner : Inner) (isTested : Bool) (text : String) :
    List (List Word × Command) → Action Unit
  | [] => setStatus 0
  | arm :: arms => do
    if ← fitsAny inner text arm.1 then
      match arm.2 with
      | .skip => setStatus 0
      | body => inner.run isTested body
    else runArms inner isTested text arms

/-- **Runs a command whose parts can be run.** -/
def step (inner : Inner) (isTested : Bool) (c : Command) : Action Unit := do
  if ← hasOption 'n' then pure ()
  else
    match c with
    | .skip => pure ()
    | .simple line assignments words redirections => do
      runSimple inner isTested line assignments words redirections
      finished inner isTested true
    | .pipeline stages => do
      runStages inner isTested (← get).status none stages
      finished inner isTested true
    | .background command => do
      runBackground inner command
      finished inner isTested false
    | .negated command => do
      inner.run true command
      modify (fun s => { s with status := if s.status = 0 then 1 else 0 })
    | .both first second => do
      inner.run true first
      if ← hasSucceeded then inner.run isTested second
    | .either first second => do
      inner.run true first
      if !(← hasSucceeded) then inner.run isTested second
    | .sequence first second => do
      inner.run isTested first
      inner.run isTested second
    | .condition test success failure => do
      inner.run true test
      if ← hasSucceeded then inner.run isTested success
      else
        match failure with
        | .skip => setStatus 0
        | command => inner.run isTested command
    | .repeated isNegated test body =>
      inLoop (testedRounds inner isTested isNegated test body maxRounds 0)
    | .loop line name words body => do
      modify (fun s => { s with line := line })
      let values ← words.mapM (expandFields inner)
      setStatus 0
      inLoop (valueRounds inner isTested name body values.flatten)
    | .choice line word arms => do
      modify (fun s => { s with line := line })
      runArms inner isTested (← expandText inner word) arms
    | .subshell line command redirections => do
      modify (fun s => { s with line := line })
      let targets ← redirections.mapM (expandRedirection inner)
      keepingChannels (subshell inner (do
        targets.forM (perform inner)
        inner.run isTested command))
      finished inner isTested true
    | .redirected line command redirections => do
      modify (fun s => { s with line := line })
      keepingChannels (do
        if ← redirect inner redirections then inner.run isTested command
        else finished inner isTested true)
    | .definition _ name body => do
      modify (fun s => { s with
        functions := (name, body) :: s.functions.filter (fun f => f.1 != name)
        status := 0 })

/-! ### Scripts -/

/-- Shows the part of a script that was read. -/
def showRead (before behind : Reader) : Action Unit := do
  if ← hasOption 'v' then do
    let _ ← write 2 (String.ofList (before.rest.take (before.rest.length - behind.rest.length)))
  modify (fun s => { s with readerLine := behind.line })

/-- **Runs the lines of a script,** of which some may have been run. The number bounds
them. -/
def runLines (inner : Inner) (isTested hasRun : Bool) : Nat → Reader → Action Unit
  | 0, _ => pure ()
  | n + 1, r => do
    let s ← get
    let r := { r with aliases := s.aliases, documents := [], nextDocument := s.nextDocument }
    match readLine.run r with
    | .error fault => do
      modify (fun s => { s with line := fault.line })
      fail ("Syntax error: " ++ fault.text)
    | .ok (none, r') => do
      showRead r r'
      if !hasRun then setStatus 0
    | .ok (some command, r') => do
      showRead r r'
      modify (fun s => { s with
        documents := r'.documents ++ s.documents
        nextDocument := r'.nextDocument })
      match command with
      | .skip => runLines inner isTested hasRun n r'
      | command => do
        inner.run isTested command
        runLines inner isTested true n r'

/-- Runs a script whose commands can be run. -/
def runText (inner : Inner) (isTested : Bool) (text : String) : Action Unit :=
  during (fun s => (s.line, s.readerLine)) (fun lines s =>
      { s with line := lines.1, readerLine := lines.2 }) id
    (runLines inner isTested false (text.length + 2) { rest := text.toList })

mutual

/-- **Runs a command** up to a depth. -/
def runWithin (depth : Nat) (isTested : Bool) (c : Command) : Action Unit :=
  match depth with
  | 0 => throw (.killed 9)
  | n + 1 => step ⟨runWithin n, scriptWithin n⟩ isTested c

/-- **Runs a script** up to a depth. -/
def scriptWithin (depth : Nat) (isTested : Bool) (text : String) : Action Unit :=
  match depth with
  | 0 => throw (.killed 9)
  | n + 1 => runText ⟨runWithin n, scriptWithin n⟩ isTested text

end

/-- How deeply commands may be nested. -/
def maxDepth : Nat := 100000

/-- **How commands and scripts are run.** -/
def inner : Inner :=
  ⟨runWithin maxDepth, scriptWithin maxDepth⟩

end Shell

end GoPlanner

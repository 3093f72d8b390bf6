import GoPlanner.Shell.Process

/-!
# Programs That Start Others

Some programs are there to start other ones: with other variables, or with arguments from
the input. The programs that they start may do the same, so the number of programs that
start each other is bounded.

## Main definitions

* `Shell.wordsOf`: the words of a text as they become arguments.
* `Shell.launch`: starts the program at a path.
-/

namespace GoPlanner

namespace Shell

/-! ### Arguments from texts -/

/-- The word at the beginning of a text, with what follows it. Quotes and reverse solidi
keep blanks together. A quote that is not closed on its line is an error. -/
def firstWord : Nat → List Char → Except Char (List Char × List Char)
  | 0, cs => .ok ([], cs)
  | _, [] => .ok ([], [])
  | n + 1, '\\' :: c :: rest => (firstWord n rest).map (fun later => (c :: later.1, later.2))
  | n + 1, c :: rest =>
    if c = '\x22' || c = '\x27' then
      let inside := rest.takeWhile (fun d => d != c)
      if inside.length = rest.length || inside.contains '\n' then .error c
      else
        (firstWord n (rest.drop (inside.length + 1))).map (fun later =>
          (inside ++ later.1, later.2))
    else if isBlankSeparator c then .ok ([], c :: rest)
    else (firstWord n rest).map (fun later => (c :: later.1, later.2))

/-- **The words of a text.** The number bounds them. -/
def wordsOf : Nat → List Char → Except Char (List String)
  | 0, _ => .ok []
  | n + 1, cs =>
    match cs.dropWhile isBlankSeparator with
    | [] => .ok []
    | rest => do
      let (text, later) ← firstWord (rest.length + 1) rest
      pure (String.ofList text :: (← wordsOf n later))

/-- The words of a text in which all quotes count as closed. -/
def someWordsOf (text : String) : List String :=
  (wordsOf (text.length + 1) text.toList).toOption.getD []

/-- The parts of a list, each of a length. The number bounds them. -/
def chunks {α : Type} (length : Nat) : Nat → List α → List (List α)
  | 0, _ => []
  | n + 1, xs =>
    if xs.length ≤ length then [xs]
    else xs.take length :: chunks length n (xs.drop length)

/-- A text with another text put in for a mark. -/
def withMark (mark value text : String) : String :=
  text.replace mark value

/-- The settings of variables in front of a command, and the command. -/
def settings : List String → List (String × String) × List String
  | argument :: rest =>
    match argument.toList.span (fun c => c != '=') with
    | (name, '=' :: value) =>
      let later := settings rest
      ((String.ofList name, String.ofList value) :: later.1, later.2)
    | _ => ([], argument :: rest)
  | [] => ([], [])

/-! ### Starting -/

/-- The options of the programs that start others. -/
def starterOptions (name : String) : Program.Allowed :=
  match name with
  | "env" =>
    { name := name, plain := "i0", valued := "uS", isStrict := true, misuse := 125
      long := [("ignore-environment", 'i'), ("unset", 'u'), ("split-string", 'S')] }
  | "xargs" =>
    { name := name, plain := "0rt", valued := "nILPds", isStrict := true
      long := [("null", '0'), ("no-run-if-empty", 'r'), ("max-args", 'n'), ("verbose", 't'),
        ("replace", 'I'), ("delimiter", 'd'), ("max-lines", 'L'), ("max-procs", 'P')] }
  | _ => { name := name, valued := "n", isStrict := true, misuse := 125 }

/-- The status of a program that cannot be started. -/
def refusedStatus (fault : Fault) : Nat :=
  if [Fault.noEntry, .notDirectory, .nameTooLong, .tooManyLinks].contains fault then 127 else 126

/-- The texts that arguments are made from, in the order in which they are read. -/
def itemsOf (g : Program.Given) (text : String) : Except Char (List String) :=
  if g.has '0' then .ok ((pieces '\x00' text).filter (· != ""))
  else
    match g.value? 'd' with
    | some mark =>
      let mark := if mark = "\\n" then '\n' else mark.toList.headD '\n'
      let parts := pieces mark text
      .ok (if parts.getLast? = some "" then parts.dropLast else parts)
    | none =>
      if g.has 'I' || g.has 'L' then
        .ok (((pieces '\n' text).map (fun l =>
          String.ofList (l.toList.dropWhile isBlankSeparator))).filter (· != ""))
      else wordsOf (text.length + 1) text.toList

/-- The commands that arguments make. -/
def commandsOf (g : Program.Given) (items : List String) : List (List String) :=
  let command := if g.operands.isEmpty then ["echo"] else g.operands
  match g.value? 'I' with
  | some mark => items.map (fun item => command.map (withMark mark item))
  | none =>
    if g.has 'L' then
      (chunks (((g.value? 'L').bind Program.decimal?).getD 1) (items.length + 1) items).map
        (fun lines => command ++ lines.flatMap someWordsOf)
    else if items.isEmpty && g.has 'r' then []
    else
      let length := match (g.value? 'n').bind Program.decimal? with
        | some n => max n 1
        | none => items.length + 1
      (chunks length (items.length + 1) items).map (command ++ ·)

mutual

/-- **Starts the program at a path.** The answer is why it cannot be started. -/
def launch (depth : Nat) (inner : Inner) (name path : String) (arguments : List String) :
    Action (Option Fault) :=
  match depth with
  | 0 => pure (some (.system 7))
  | n + 1 => do
    match resolveExecutable (← get).tree maxInterpreters name path arguments with
    | .error .badFormat => do
      runShell inner "/bin/sh" (path :: arguments)
      pure none
    | .error fault => pure (some fault)
    | .ok s => do
      if shellNames.contains s.program then runShell inner s.called s.arguments
      else
        match Program.ofName? s.program with
        | some p => runProgram p s.program s.called s.arguments
        | none => start n inner s.program s.called s.arguments
      pure none

/-- Runs a program that starts others. -/
def start (depth : Nat) (inner : Inner) (starter called : String) (arguments : List String) :
    Action Unit :=
  match depth with
  | 0 => setStatus 126
  | n + 1 => do
    let begin (command : List String) : Action Unit := do
      match command with
      | [] => setStatus 0
      | name :: rest => do
        let refused (fault : Fault) : Action Unit := do
          let shown := if starter = "env" then Program.quoted name
            else Program.quotedIfNeeded name
          let _ ← write 2 (called ++ ": " ++ shown ++ ": " ++ Program.reasonOf fault ++ "\n")
          if starter = "env" && name.contains ' ' && fault = .noEntry then do
            let _ ← write 2 (called ++ ": use -[v]S to pass options in shebang lines\n")
          setStatus (refusedStatus fault)
        let s ← get
        let searching := if (s.valueOf? "PATH").isSome then s
          else s.assign "PATH" "/bin:/usr/bin" false
        match pathsOf searching name with
        | .error fault => refused (if name = "" then .noEntry else fault)
        | .ok paths => do
          match ← startFirst (fun path => launch n inner name path rest) .noEntry paths with
          | none => pure ()
          | some fault => refused fault
    match Program.given? (starterOptions starter) [] arguments with
    | .error text => runProgram (fun _ => Program.misused (starterOptions starter) text) starter called []
    | .ok g =>
      match starter with
      | "env" => do
        let split := ((g.value? 'S').map someWordsOf).getD []
        let (set, command) := settings (split ++ g.operands)
        let s ← get
        let before := s.bindings
        let kept := if g.has 'i' then []
          else s.environment.filter (fun v => !(g.values 'u').contains v.1)
        let all := set.foldl (fun found v => withEntry v.1 v.2 found) kept
        modify (fun s => { s with
          bindings := if g.has 'i' then []
            else s.bindings.filter (fun b => !(g.values 'u').contains b.1) })
        set.forM (fun v => modify (fun s => s.assign v.1 v.2 true))
        if command.isEmpty then
          runProgram (fun _ =>
            Program.say (Program.ended (all.map (fun v => v.1 ++ "=" ++ v.2)))) starter called []
        else begin command
        modify (fun s => { s with bindings := before })
      | "xargs" => do
        let text ← readable 0
        consume 0 text
        match itemsOf g text with
        | .error quote => do
          let kind := if quote = '\x27' then "single" else "double"
          let _ ← write 2 (called ++ ": unmatched " ++ kind ++ " quote; by default quotes are " ++
            "special to xargs unless you use the -0 option\n")
          setStatus 1
        | .ok items => do
          let statuses ← (commandsOf g items).foldlM (fun statuses command => do
            if statuses.contains 124 then pure statuses
            else do
              if g.has 't' then do
                let _ ← write 2 (" ".intercalate command ++ "\n")
              begin command
              let status := (← get).status
              if status = 255 then do
                let _ ← write 2 (called ++ ": " ++ command.headD "" ++
                  ": exited with status 255; aborting\n")
                pure (124 :: statuses)
              else pure (status :: statuses)) []
          setStatus (
            if statuses.contains 124 then 124
            else if statuses.any (fun n => n == 126 || n == 127) then
              (statuses.reverse.find? (126 ≤ ·)).getD 0
            else if statuses.any (· != 0) then 123
            else 0)
      | "nice" =>
        if g.operands.isEmpty then
          runProgram (fun _ => Program.say "0\n") starter called []
        else begin g.operands
      | _ => if g.operands.isEmpty then setStatus 0 else begin g.operands

end

end Shell

end GoPlanner

import GoPlanner.Shell.Arithmetic
import GoPlanner.Shell.Field
import GoPlanner.Shell.Variable

/-!
# Expansion

Before a command is run, its words are expanded: parameters, commands and expressions are
replaced by their values. One word may so become many fields, or none; a word whose fields
are not asked for becomes one text.

## Main definitions

* `Shell.Inner`: how commands and scripts within a command are run.
* `Shell.subshell`, `Shell.captured`: commands that keep their changes to themselves.
* `Shell.expandWord`: the marks of a word.
* `Shell.expandFields`, `Shell.expandText`, `Shell.expandPattern`: what a word stands for.
-/

namespace GoPlanner

namespace Shell

/-- **How commands and scripts within a command are run.** -/
structure Inner where
  /-- Runs a command; it matters whether its failure is asked for. -/
  run : Bool → Command → Action Unit
  /-- Runs a script; it matters in the same way. -/
  script : Bool → String → Action Unit

/-! ### Shells within shells -/

/-- The status of a shell that a signal ended. -/
def killedStatus (signal : Nat) : Nat :=
  128 + signal

/-- **Runs what is to be done at the end of a shell.** The status stays as it is, unless
the shell is left once more. -/
def leaving (inner : Inner) (a : Action Unit) : Action Unit := do
  let result ← attempt a
  match result, (← get).traps.lookup 0 with
  | .error (.killed n), _ => throw (.killed n)
  | _, none => resume result
  | _, some action => do
    let status := (← get).status
    modify (fun s => { s with
      traps := s.traps.filter (fun t => t.1 != 0)
      trappedStatus := some status
      command := none })
    match ← attempt (inner.script false action) with
    | .error (.killed n) => throw (.killed n)
    | .error .leaves => throw .leaves
    | _ => do
      setStatus status
      throw .leaves

/-- What another shell leaves behind: files, streams, and the numbers of processes. -/
def State.afterShell (s s' : State) : State :=
  { s with
    tree := { s'.tree with cwd := s.tree.cwd }
    streams := s'.streams
    output := s'.output
    complaints := s'.complaints
    nextProcess := s'.nextProcess
    signals := s'.signals }

/-- **A shell within this one,** which has the same variables, but keeps what it changes
to itself. Its status is that of its last command. -/
def subshell (inner : Inner) (a : Action Unit) : Action Unit := do
  let s ← get
  let (result, s') := (leaving inner a).outcome
    { s with isInner := true, traps := s.traps.filter (fun t => t.2 == ""), jobs := [] }
  set (s.afterShell s')
  match result with
  | .error (.killed n) => setStatus (killedStatus n)
  | _ => setStatus (s'.status % 256)

/-- Characters without line ends behind them. -/
def withoutLineEnds (text : String) : String :=
  String.ofList (text.toList.reverse.dropWhile (fun c => c == '\n')).reverse

/-- **The output of a command.** -/
def captured (inner : Inner) (command : Command) : Action String := do
  let status := (← get).status
  let n ← newStream (.pipe "")
  keepingChannels (do
    connect 1 n
    subshell inner (inner.run false command))
  endIfKilled
  modify (fun s => { s with status := status, innerStatus := s.status })
  let text := (← get).readable n
  modify (fun s => { s with streams := s.streams.set n .nowhere })
  pure (withoutLineEnds (String.ofList (text.toList.filter (fun c => c != '\x00'))))

/-! ### Home directories -/

/-- The home directory of a user; without a name it is that of the one who runs the
script. -/
def homeOf? (s : State) (user : String) : Option String :=
  if user = "" then s.valueOf? "HOME"
  else if user = "root" then some "/root"
  else none

/-- A word in which a tilde at its beginning stands for a home directory. -/
def homeAtStart (s : State) (ends : List Char) (w : Word) : Word :=
  match w with
  | .character '~' false :: rest =>
    let name := rest.takeWhile (fun
      | Piece.character c false => !ends.contains c
      | _ => false)
    let behind := rest.drop name.length
    let isWhole := match behind with
      | [] => true
      | .character c false :: _ => ends.contains c
      | _ => false
    match isWhole, (plain? name).bind (homeOf? s) with
    | true, some home => literal home ++ behind
    | _, _ => w
  | _ => w
where
  /-- A text that is not divided. -/
  literal (text : String) : Word :=
    text.toList.map (fun c => Piece.character c true)

/-- A word in which a tilde at its beginning or behind a colon stands for a home
directory. -/
def homes (s : State) (w : Word) : Word :=
  let parts := w.splitOnP (fun
    | Piece.character ':' false => true
    | _ => false)
  [Piece.character ':' false].intercalate (parts.map (homeAtStart s ['/', ':']))

/-! ### Values -/

/-- The complaint about a parameter that has no value. -/
def notSet {α : Type} (name : String) : Action α :=
  fail (name ++ ": parameter not set")

/-- The value of a parameter, which must have one if missing values are errors. -/
def demanded (name : String) : Action (Option String) := do
  match (← get).parameter? name with
  | some value => pure (some value)
  | none =>
    if ← hasOption 'u' then notSet name
    else pure none

/-- The text without the shortest or longest part at its beginning that fits a pattern. -/
def withoutStart (p : Wildcard) (isLongest : Bool) (text : List Char) : List Char :=
  let counts := List.range (text.length + 1)
  let counts := if isLongest then counts.reverse else counts
  match counts.find? (fun n => p.fits (text.take n)) with
  | some n => text.drop n
  | none => text

/-- The text without the shortest or longest part at its end that fits a pattern. -/
def withoutEnd (p : Wildcard) (isLongest : Bool) (text : List Char) : List Char :=
  let counts := List.range (text.length + 1)
  let counts := if isLongest then counts else counts.reverse
  match counts.find? (fun n => p.fits (text.drop n)) with
  | some n => text.take n
  | none => text

/-- Whether a parameter stands for the arguments, each of which is a field of its own. -/
def isSeparate (asksFields : Bool) (name : String) (isQuoted : Bool) : Bool :=
  asksFields && (name = "@" || (name = "*" && !isQuoted))

/-- The marks of texts each of which is a field of its own. -/
def marksOfEach (isQuoted : Bool) (texts : List String) : List Mark :=
  [Mark.gap].intercalate (texts.map (fun a =>
    if isQuoted then .field :: marksOf true false a else marksOf false true a))

/-- The marks of a parameter with a value. -/
def marksOfParameter (s : State) (asksFields : Bool) (name : String) (isQuoted : Bool)
    (value : String) : List Mark :=
  if isSeparate asksFields name isQuoted then marksOfEach isQuoted s.arguments
  else marksOf isQuoted asksFields value

/-- The marks of a parameter from the value of which something is cut off. Arguments count
as one text for that. -/
def marksOfCut (s : State) (asksFields : Bool) (name : String) (isQuoted : Bool)
    (cut : List Char → List Char) (value : String) : List Mark :=
  let cutText (text : String) : String := String.ofList (cut text.toList)
  if isSeparate asksFields name isQuoted then
    marksOfEach isQuoted (pieces '\x00' (cutText ("\x00".intercalate s.arguments)))
  else marksOf isQuoted asksFields (cutText value)

/-- The value of an expression. -/
def calculated (text : String) : Action String := do
  match Arithmetic.evaluate (← get).valueOf? text with
  | .ok (value, assigned) => do
    assigned.reverse.forM (fun a => assign a.1 (toString a.2) false)
    pure (toString value)
  | .error (.wrong reason) =>
    fail ("arithmetic expression: " ++ reason ++ ": \x22" ++ text ++ "\x22")
  | .error (.notNumber value) => fail ("Illegal number: " ++ value)

/-! ### Words -/

mutual

/-- **The marks of a word.** -/
def expandWord (inner : Inner) (asksFields isValue : Bool) (w : List Piece) :
    Action (List Mark) :=
  match w with
  | [] => pure []
  | .quotes :: .parameter "@" .none _ true :: .quotes :: rest => do
    let s ← get
    let first :=
      if asksFields then marksOfParameter s true "@" true ""
      else .field :: marksOf true false ((s.parameter? "@").getD "")
    pure (first ++ (← expandWord inner asksFields isValue rest))
  | piece :: rest => do
    let first ← expandPiece inner asksFields isValue piece
    pure (first ++ (← expandWord inner asksFields isValue rest))

/-- The marks of a piece of a word. -/
def expandPiece (inner : Inner) (asksFields isValue : Bool) (piece : Piece) :
    Action (List Mark) := do
  match piece with
  | .character c isQuoted => pure [.character c isQuoted (isValue && asksFields && !isQuoted)]
  | .quotes => pure [.field]
  | .substitution command isQuoted => do
    pure (marksOf isQuoted asksFields (← captured inner command))
  | .arithmetic expression isQuoted => do
    let text := textOfMarks (← expandWord inner false false expression)
    pure (marksOf isQuoted asksFields (← calculated text))
  | .parameter name change word isQuoted =>
    let value := (← get).parameter? name
    let isMissing (countsEmpty : Bool) : Bool :=
      value.isNone || (countsEmpty && value == some "")
    let itself : Action (List Mark) := do
      pure (marksOfParameter (← get) asksFields name isQuoted (value.getD ""))
    match change with
    | .none =>
      match ← demanded name with
      | some _ => itself
      | none => pure []
    | .length => do
      pure (marksOf isQuoted asksFields (toString ((← demanded name).getD "").length))
    | .fallback countsEmpty =>
      if isMissing countsEmpty then expandOther inner asksFields isQuoted word else itself
    | .assignment countsEmpty =>
      if isMissing countsEmpty then do
        let text := textOfMarks (← expandOther inner false isQuoted word)
        assign name text false
        pure (marksOf isQuoted asksFields text)
      else itself
    | .demand countsEmpty =>
      if isMissing countsEmpty then do
        let text := textOfMarks (← expandOther inner false isQuoted word)
        fail (name ++ ": " ++
          (if word.isEmpty then
            "parameter not set" ++ (if countsEmpty then " or null" else "")
          else text))
      else itself
    | .alternative countsEmpty =>
      if isMissing countsEmpty then pure []
      else expandOther inner asksFields isQuoted word
    | .withoutStart isLongest => do
      let text := (← demanded name).getD ""
      let p := Wildcard.ofMarked (charactersOfMarks (← expandWord inner false false word))
      pure (marksOfCut (← get) asksFields name isQuoted (withoutStart p isLongest) text)
    | .withoutEnd isLongest => do
      let text := (← demanded name).getD ""
      let p := Wildcard.ofMarked (charactersOfMarks (← expandWord inner false false word))
      pure (marksOfCut (← get) asksFields name isQuoted (withoutEnd p isLongest) text)
    | .unknown => fail "Bad substitution"

/-- The marks of a word that stands in the stead of a value. -/
def expandOther (inner : Inner) (asksFields isQuoted : Bool) (w : List Piece) :
    Action (List Mark) :=
  match w with
  | [] => pure []
  | .character '~' false :: rest => do
    if isQuoted then do
      pure (.character '~' true false :: (← expandWord inner asksFields true rest))
    else
      match rest, homeOf? (← get) "" with
      | [], some home => pure (marksOf true false home)
      | .character '/' false :: _, some home => do
        pure (marksOf true false home ++ (← expandWord inner asksFields true rest))
      | _, _ => do
        pure (.character '~' false asksFields :: (← expandWord inner asksFields true rest))
  | piece :: rest => do
    let first ← expandPiece inner asksFields true piece
    pure (first ++ (← expandWord inner asksFields true rest))

end

/-! ### What words stand for -/

/-- **The fields of a word.** -/
def expandFields (inner : Inner) (w : Word) : Action (List String) := do
  let marks ← expandWord inner true false (homeAtStart (← get) ['/'] w)
  let s ← get
  let parts := fields s marks
  if s.options.contains 'f' then pure (parts.map (fun f => String.ofList (f.map (·.1))))
  else pure (parts.flatMap (fileNames s.tree))

/-- **The text of a word** that is not divided. -/
def expandText (inner : Inner) (w : Word) : Action String := do
  pure (textOfMarks (← expandWord inner false false (homeAtStart (← get) ['/'] w)))

/-- The text of the value of an assignment. -/
def expandAssigned (inner : Inner) (w : Word) : Action String := do
  pure (textOfMarks (← expandWord inner false false (homes (← get) w)))

/-- **The pattern that a word stands for.** -/
def expandPattern (inner : Inner) (w : Word) : Action Wildcard := do
  pure (Wildcard.ofMarked (charactersOfMarks
    (← expandWord inner false false (homeAtStart (← get) ['/'] w))))

end Shell

end GoPlanner

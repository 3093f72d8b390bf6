import GoPlanner.Program.Format
import GoPlanner.Program.Option

/-!
# Programs That Print Their Arguments

## Main definitions

* `Program.echo`, `Program.shellEcho`: words on a line.
* `Program.pwd`, `Program.printenv`: where a program runs, and what it sees.
* `Program.basename`, `Program.dirname`: the parts of paths.
* `Program.seq`: numbers in order.
-/

namespace GoPlanner

namespace Program

/-! ### Words -/

/-- Words on a line as shells print them: with escapes, and without the end of the line
if the first word says so. -/
def spoken (arguments : List String) : String :=
  let (words, isOpen) := match arguments with
    | "-n" :: words => (words, true)
    | words => (words, false)
  let (text, isEnded) := unescaped (" ".intercalate words).toList
  String.ofList text ++ (if isEnded || isOpen then "" else "\n")

/-- Prints words as shells do. -/
def shellEcho : Program := fun arguments =>
  say (spoken arguments)

/-- The letters of options in front of words, and the words. -/
def echoOptions : List String → List Char × List String
  | argument :: rest =>
    match argument.toList with
    | '-' :: c :: more =>
      if (c :: more).all (['n', 'e', 'E'].contains ·) then
        let later := echoOptions rest
        (c :: more ++ later.1, later.2)
      else ([], argument :: rest)
    | _ => ([], argument :: rest)
  | [] => ([], [])

/-- **Prints words,** with escapes only if they are asked for. -/
def echo : Program := fun arguments => do
  let (letters, words) := echoOptions arguments
  let text := (" ".intercalate words).toList
  let escapes := (letters.reverse.find? (fun c => c != 'n')) = some 'e'
  let (text, isEnded) := if escapes then unescaped text else (text, false)
  say (String.ofList text ++ (if isEnded || letters.contains 'n' then "" else "\n"))

/-- Prints the path of the working directory. -/
def pwd : Program :=
  withOptions { name := "pwd", plain := "LP", long := [("logical", 'L'), ("physical", 'P')] }
    (fun g => do
      if !g.operands.isEmpty then complain "pwd: ignoring non-option arguments"
      say (Octets.ofText (← files).cwd.path.text ++ "\n"))

/-- Prints the variables that a program sees. -/
def printenv : Program := fun names => do
  let environment := (← get).environment
  if names.isEmpty then say (ended (environment.map (fun v => v.1 ++ "=" ++ v.2)))
  else
    names.forM (fun name =>
      match environment.lookup name with
      | some value => say (value ++ "\n")
      | none => finish 1)

/-! ### Parts of paths -/

/-- A path without slashes at its end; of the root one is left. -/
def withoutSlashes (path : String) : String :=
  match path.toList.reverse.dropWhile (fun c => c == '/') with
  | [] => if path = "" then "" else "/"
  | cs => String.ofList cs.reverse

/-- The last name of a path. -/
def lastName (path : String) : String :=
  if withoutSlashes path = "/" then "/" else lastPiece '/' (withoutSlashes path)

/-- The part of a path in front of its last name. -/
def directoryName (path : String) : String :=
  let path := withoutSlashes path
  let name := lastPiece '/' path
  let above := String.ofList (path.toList.take (path.length - name.length))
  if path = "/" then "/" else if above = "" then "." else withoutSlashes above

/-- A name without an ending, which must not be all of it. -/
def withoutEnding (ending name : String) : String :=
  if name ≠ ending && endsWith ending name then
    String.ofList (name.toList.take (name.length - ending.length))
  else name

/-- **Prints the last name** of a path. -/
def basename : Program :=
  let allowed : Allowed :=
    { name := "basename", plain := "az", valued := "s", isStrict := true
      long := [("multiple", 'a'), ("suffix", 's'), ("zero", 'z')] }
  withOperands allowed (fun g => do
    let stop := if g.has 'z' then "\x00" else "\n"
    if g.has 'a' || g.has 's' then
      let ending := (g.value? 's').getD ""
      g.operands.forM (fun p => say (withoutEnding ending (lastName p) ++ stop))
    else
      match g.operands with
      | _ :: _ :: extra :: _ => misused allowed ("extra operand " ++ quoted extra)
      | path :: ending => say (withoutEnding (ending.headD "") (lastName path) ++ stop)
      | [] => pure ())

/-- **Prints the directory** of a path. -/
def dirname : Program :=
  withOperands
    { name := "dirname", plain := "z", long := [("zero", 'z')] }
    (fun g => g.operands.forM (fun p =>
      say (directoryName p ++ (if g.has 'z' then "\x00" else "\n"))))

/-! ### Numbers -/

/-- Whole numbers from one to another; the count bounds them. -/
def numbersFrom : Nat → Int → Int → Int → List Int
  | 0, _, _, _ => []
  | n + 1, first, step, last =>
    if (0 < step && last < first) || (step < 0 && first < last) then []
    else first :: numbersFrom n (first + step) step last

/-- Arguments in which the first number cannot be taken for an option. -/
def guarded : List String → List String
  | [] => []
  | "--" :: rest => "--" :: rest
  | "-s" :: value :: rest => "-s" :: value :: guarded rest
  | "-f" :: value :: rest => "-f" :: value :: guarded rest
  | a :: rest => if (signed? a).isSome then "--" :: a :: rest else a :: guarded rest

/-- **Prints numbers in order.** -/
def seq : Program := fun arguments =>
  let allowed : Allowed :=
    { name := "seq", plain := "w", valued := "sf", isStrict := true
      long := [("separator", 's'), ("equal-width", 'w'), ("format", 'f')] }
  withOperands allowed (fun g => do
    match g.operands[3]?, g.operands.find? (fun a => (signed? a).isNone) with
    | some extra, _ => misused allowed ("extra operand " ++ quoted extra)
    | none, some wrong => misused allowed ("invalid floating point argument: " ++ quoted wrong)
    | none, none =>
      let (first, step, last) := match g.operands.filterMap signed? with
        | [last] => (1, 1, last)
        | [first, last] => (first, 1, last)
        | first :: step :: last :: _ => (first, step, last)
        | [] => (1, 1, 0)
      if step = 0 then misused allowed "invalid Zero increment value: \x270\x27"
      else do
        let all := numbersFrom ((last - first).natAbs + 1) first step last
        let width := if g.has 'w' then
            ([first, last].map (fun n => (toString n).length)).foldl max 0
          else 0
        let text (n : Int) : String :=
          if n < 0 then "-" ++ padded '0' (width - 1) (toString n.natAbs)
          else padded '0' width (toString n)
        let separator := (g.value? 's').getD "\n"
        if !all.isEmpty then say (separator.intercalate (all.map text) ++ "\n"))
    (guarded arguments)

end Program

end GoPlanner

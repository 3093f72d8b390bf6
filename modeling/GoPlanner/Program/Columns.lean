import GoPlanner.Program.Lines
import GoPlanner.Text.Wildcard

/-!
# Programs That Change Lines

Parts of lines are named by ranges of numbers, and characters by sets of them.

## Main definitions

* `Program.cut`, `Program.paste`, `Program.fold`: parts of lines.
* `Program.readSet`: sets of characters.
* `Program.tr`: other characters.
-/

namespace GoPlanner

namespace Program

/-! ### Parts of lines -/

/-- A range of numbers; it may have no end. -/
abbrev NumberRange : Type :=
  Nat × Option Nat

/-- The options of the program for parts of lines. -/
def cutOptions : Allowed :=
  { name := "cut", plain := "snzD", valued := "bcfdO"
    long := [("bytes", 'b'), ("characters", 'c'), ("fields", 'f'), ("delimiter", 'd'),
      ("only-delimited", 's'), ("complement", 'D'), ("output-delimiter", 'O')] }

/-- The range that a text stands for, or a complaint. -/
def rangeOf (isFields : Bool) (text : String) : Except String NumberRange :=
  let wrong : String :=
    (if isFields then "invalid field value " else "invalid byte/character position ") ++ quoted text
  let number (part : String) : Except String Nat :=
    match decimal? part with
    | some 0 =>
      .error ((if isFields then "fields" else "byte/character positions") ++ " are numbered from 1")
    | some n => .ok n
    | none => .error wrong
  match pieces '-' text with
  | [""] =>
    .error ((if isFields then "fields" else "byte/character positions") ++ " are numbered from 1")
  | [a] => (number a).map (fun n => (n, some n))
  | ["", ""] => .error "invalid range with no endpoint: -"
  | ["", b] => (number b).map (fun n => (1, some n))
  | [a, ""] => (number a).map (fun n => (n, none))
  | [a, b] => do
    let first ← number a
    let last ← number b
    if last < first then throw "invalid decreasing range" else pure (first, some last)
  | _ => .error wrong

/-- Whether a number is in one of some ranges. -/
def isListed (ranges : List NumberRange) (n : Nat) : Bool :=
  ranges.any (fun r => decide (r.1 ≤ n) && r.2.all (fun last => decide (n ≤ last)))

/-- The listed members of a row, in groups that follow each other without a gap. -/
def listedRuns {α : Type} (isChosen : Nat → Bool) (members : List α) : List (List α) :=
  ((members.zipIdx 1).splitOnP (fun m => !isChosen m.2)).filterMap (fun run =>
    if run.isEmpty then none else some (run.map (·.1)))

/-- **Shows parts of lines.** -/
def cut : Program :=
  withOptions cutOptions (fun g =>
    let lists := g.options.filter (fun o => ['b', 'c', 'f'].contains o.1)
    match lists with
    | [] => misused cutOptions "you must specify a list of bytes, characters, or fields"
    | _ :: _ :: _ => misused cutOptions "only one list may be specified"
    | [(letter, list)] =>
      let isFields := letter == 'f'
      let mark := (g.value? 'd').getD "\t"
      match (pieces ',' list).mapM (rangeOf isFields) with
      | .error text => misused cutOptions text
      | .ok ranges =>
        if 1 < mark.length then
          misused cutOptions "the delimiter must be a single character"
        else if !isFields && g.has 'd' then
          misused cutOptions "an input delimiter may be specified only when operating on fields"
        else
          let mark := mark.toList.headD '\x00'
          let isChosen (n : Nat) : Bool := isListed ranges n != g.has 'D'
          let between := (g.value? 'O').getD (if isFields then String.singleton mark else "")
          let part (line : String) : Option String :=
            if isFields then
              let fields := pieces mark line
              if fields.length = 1 then (if g.has 's' then none else some line)
              else some (between.intercalate (listedRuns isChosen fields).flatten)
            else
              some (between.intercalate ((listedRuns isChosen line.toList).map String.ofList))
          eachFile ("cut: " ++ ·) g.operands (fun _ text =>
            say (ended ((linesOf text).filterMap part))))

/-- The longest of some lists. -/
def longest (rows : List (List String)) : Nat :=
  (rows.map List.length).foldl max 0

/-- Texts with separators between them, one after the other and again from the beginning. -/
def separated (marks : List String) : Nat → List String → String
  | n, a :: b :: rest =>
    a ++ marks.getD (n % max marks.length 1) "" ++ separated marks (n + 1) (b :: rest)
  | _, [a] => a
  | _, [] => ""

/-- The separators that a text stands for. -/
def marksIn : List Char → List String
  | '\\' :: c :: cs =>
    (match c with
      | 'n' => "\n"
      | 't' => "\t"
      | '0' => ""
      | _ => String.singleton c) :: marksIn cs
  | c :: cs => String.singleton c :: marksIn cs
  | [] => []

/-- **Shows the lines of files side by side,** or the lines of each file on one line. -/
def paste : Program :=
  withOptions { name := "paste", plain := "sz", valued := "d"
                long := [("delimiters", 'd'), ("serial", 's')] } (fun g => do
    let marks := marksIn ((g.value? 'd').getD "\t").toList
    let names := if g.operands.isEmpty then ["-"] else g.operands
    let texts ← names.mapM (fun name => do
      match ← contentOf name with
      | .ok text => pure (linesOf text)
      | .error fault => do
        complainOf "paste" name fault
        pure [])
    if g.has 's' then say (ended (texts.map (separated marks 0)))
    else if (← get).status != 0 then pure ()
    else
      let shared := (names.filter (· == "-")).length
      let rows := if shared < 2 then texts
        else
          let lines := (((names.zip texts).find? (fun n => n.1 == "-")).map (·.2)).getD []
          (names.zip texts).zipIdx.map (fun n =>
            if n.1.1 = "-" then
              let place := ((names.take n.2).filter (· == "-")).length
              (lines.zipIdx.filter (fun l => l.2 % shared == place)).map (·.1)
            else n.1.2)
      say (ended ((List.range (longest rows)).map (fun i =>
        separated marks 0 (rows.map (fun row => row.getD i ""))))))

/-- A line in parts of a width, which end behind a blank if they can. The number bounds the
parts. -/
def foldedParts (width : Nat) (atBlanks : Bool) : Nat → List Char → List (List Char)
  | 0, _ => []
  | n + 1, cs =>
    if cs.length ≤ width then [cs]
    else
      let part := cs.take width
      let upToBlank := (part.reverse.dropWhile (fun c => c != ' ' && c != '\t')).reverse
      let part := if atBlanks && !upToBlank.isEmpty then upToBlank else part
      part :: foldedParts width atBlanks n (cs.drop part.length)

/-- **Shows lines of a width.** -/
def fold : Program := fun arguments =>
  let arguments := arguments.map (fun a =>
    if startsWith "-" a && (decimal? (String.ofList (a.toList.drop 1))).isSome then
      "-w" ++ String.ofList (a.toList.drop 1) else a)
  withOptions { name := "fold", plain := "bs", valued := "w"
                long := [("width", 'w'), ("spaces", 's'), ("bytes", 'b')] } (fun g =>
    let width := max 1 (((g.value? 'w').bind decimal?).getD 80)
    eachFile ("fold: " ++ ·) g.operands (fun _ text =>
      say (String.join ((linesWithEnds text).map (fun line =>
        let cs := (withoutEnd line).toList
        let parts := foldedParts width (g.has 's') (cs.length + 1) cs
        "\n".intercalate (parts.map String.ofList) ++
          (if endsWith "\n" line then "\n" else "")))))) arguments

/-! ### Sets of characters -/

/-- A character that may be written with a reverse solidus, with what follows it. -/
def readMember : List Char → Option (Char × List Char)
  | '\\' :: c :: cs =>
    match c with
    | 'n' => some ('\n', cs)
    | 't' => some ('\t', cs)
    | 'r' => some ('\r', cs)
    | 'a' => some ('\x07', cs)
    | 'b' => some ('\x08', cs)
    | 'f' => some ('\x0c', cs)
    | 'v' => some ('\x0b', cs)
    | _ =>
      let digits := ((c :: cs).take 3).takeWhile (fun d => '0' ≤ d && d ≤ '7')
      if digits.isEmpty then some (c, cs)
      else
        let n := digits.foldl (fun n d => n * 8 + (d.toNat - 48)) 0
        some (Char.ofNat (n % 256), (c :: cs).drop digits.length)
  | c :: cs => some (c, cs)
  | [] => none

/-- The characters of a class, in the order of their numbers. -/
def classMembers (name : String) : Option (List Char) :=
  (Wildcard.classOf? name).map (fun holds =>
    ((List.range 256).map Char.ofNat).filter (fun c => c.toNat < 128 && holds c))

/-- A class of characters or one that is repeated, behind the opening bracket, with what
follows the closing one. A repetition without a number fills a length. -/
def readBracketed (length : Nat) (cs : List Char) : Option (List Char × List Char) :=
  match cs with
  | ':' :: rest =>
    let name := rest.takeWhile Char.isAlpha
    match rest.drop name.length, classMembers (String.ofList name) with
    | ':' :: ']' :: later, some members => some (members, later)
    | _, _ => none
  | '=' :: c :: '=' :: ']' :: later => some ([c], later)
  | _ =>
    match readMember cs with
    | some (c, '*' :: rest) =>
      let digits := rest.takeWhile Char.isDigit
      match rest.drop digits.length with
      | ']' :: later =>
        let n := digits.foldl (fun n d =>
          n * (if digits.head? = some '0' then 8 else 10) + (d.toNat - 48)) 0
        some (List.replicate (if n = 0 then length else n) c, later)
      | _ => none
    | _ => none

/-- **The characters of a set,** or a complaint. Repetitions without a number are as long as
the given length. -/
def readSet (length : Nat) (cs : List Char) : Except String (List Char) :=
  match cs with
  | [] => .ok []
  | c :: cs' =>
    match (if c = '[' then readBracketed length cs' else none) with
    | some (members, later) =>
      if later.length ≤ cs'.length then (readSet length later).map (members ++ ·) else .ok members
    | none =>
      match readMember (c :: cs') with
      | none => .ok []
      | some (first, '-' :: d :: rest) =>
        match readMember (d :: rest) with
        | none => .ok [first]
        | some (last, later) =>
          if last < first then
            .error ("tr: range-endpoints of " ++
              quoted (String.ofList [first, '-', last]) ++
              " are in reverse collating sequence order")
          else if later.length ≤ cs'.length then
            (readSet length later).map
              (((List.range' first.toNat (last.toNat + 1 - first.toNat)).map Char.ofNat) ++ ·)
          else .ok [first]
      | some (first, later) =>
        if later.length ≤ cs'.length then (readSet length later).map (first :: ·) else .ok [first]
termination_by cs.length

/-! ### Other characters -/

/-- A text in which each of the given characters is not repeated. -/
def squeezeChars (isMember : Char → Bool) : List Char → List Char
  | a :: b :: rest =>
    if a = b && isMember a then squeezeChars isMember (b :: rest)
    else a :: squeezeChars isMember (b :: rest)
  | short => short

/-- A set that is as long as another one: its last character is repeated. -/
def extended (length : Nat) (set : List Char) : List Char :=
  match set.getLast? with
  | some c => set ++ List.replicate (length - set.length) c
  | none => set

/-- The options of the program for other characters. -/
def trOptions : Allowed :=
  { name := "tr", plain := "cCdst", isStrict := true
    long := [("complement", 'c'), ("delete", 'd'), ("squeeze-repeats", 's'),
      ("truncate-set1", 't')] }

/-- **Shows the input with other characters.** -/
def tr : Program :=
  withOptions trOptions (fun g => do
    let isNegated := g.has 'c' || g.has 'C'
    let (deletes, squeezes) := (g.has 'd', g.has 's')
    let needsTwo := deletes == squeezes
    match g.operands with
    | [] => misused trOptions "missing operand"
    | [only] =>
      if needsTwo then do
        complain ("tr: missing operand after " ++ quoted only)
        complain (if deletes then "Two strings must be given when both deleting and squeezing repeats."
          else "Two strings must be given when translating.")
        referToHelp 1 "tr"
      else run g isNegated deletes squeezes only none
    | [first, second] =>
      if deletes && !squeezes then do
        complain ("tr: extra operand " ++ quoted second)
        complain "Only one string may be given when deleting without squeezing repeats."
        referToHelp 1 "tr"
      else run g isNegated deletes squeezes first (some second)
    | _ :: _ :: third :: _ => misused trOptions ("extra operand " ++ quoted third))
where
  /-- Runs the program with its sets. -/
  run (g : Given) (isNegated deletes squeezes : Bool) (first : String) (second : Option String) :
      Doing Unit := do
    match readSet 0 first.toList with
    | .error text => refuse 1 text
    | .ok set =>
      let set := if isNegated then
          ((List.range 256).map Char.ofNat).filter (fun c => !set.contains c)
        else set
      match second.mapM (fun s => readSet set.length s.toList) with
      | .error text => refuse 1 text
      | .ok other => do
        if other == some [] && !deletes && !g.has 't' then
          refuse 1 "tr: when not truncating set1, string2 must be non-empty"
        else do
          let text := (← takeInput).toList
          if deletes then
            let left := text.filter (fun c => !set.contains c)
            say (String.ofList (if squeezes then squeezeChars ((other.getD []).contains ·) left
              else left))
          else
            match other with
            | none => say (String.ofList (squeezeChars (set.contains ·) text))
            | some other =>
              let other := if g.has 't' then other else extended set.length other
              let pairs := (set.zip other).reverse
              let changed := text.map (fun c => (pairs.lookup c).getD c)
              say (String.ofList (if squeezes then squeezeChars (other.contains ·) changed
                else changed))

end Program

end GoPlanner

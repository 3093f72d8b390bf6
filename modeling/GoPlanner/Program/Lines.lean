import GoPlanner.Program.Option

/-!
# Programs That Show Lines

## Main definitions

* `Program.cat`, `Program.tac`, `Program.rev`, `Program.nl`: all lines.
* `Program.head`, `Program.tail`: the first and the last lines.
* `Program.wc`: the numbers of lines, words and bytes.
* `Program.tee`: all lines, into files as well.
-/

namespace GoPlanner

namespace Program

/-! ### All lines -/

/-- A character that can be seen. -/
def shown (showsEnds showsTabs showsOdd : Bool) (c : Char) : String :=
  let n := c.toNat
  let plain (n : Nat) : String :=
    if n < 32 then "^" ++ String.singleton (Char.ofNat (n + 64))
    else if n = 127 then "^?"
    else String.singleton (Char.ofNat n)
  if c = '\n' then (if showsEnds then "$\n" else "\n")
  else if c = '\t' then (if showsTabs then "^I" else "\t")
  else if !showsOdd then String.singleton c
  else if n < 128 then plain n
  else "M-" ++ plain (n - 128)

/-- A text without all but the first of empty lines that follow each other. It matters
whether the line in front of the text is empty. -/
def squeezed : Bool → List String → List String
  | isBehind, line :: lines =>
    if line = "\n" then
      if isBehind then squeezed true lines else line :: squeezed true lines
    else line :: squeezed false lines
  | _, [] => []

/-- The numbers in front of lines, from a number on; empty lines may have none. -/
def numbersOf (countsEmpty : Bool) (n : Nat) : List String → List String
  | line :: lines =>
    if line = "\n" && !countsEmpty then "" :: numbersOf countsEmpty n lines
    else (padded ' ' 6 (toString n) ++ "\t") :: numbersOf countsEmpty (n + 1) lines
  | [] => []

/-- **Shows files** one after the other. -/
def cat : Program :=
  withOptions { name := "cat", plain := "AbeEnstTuv"
                long := [("show-all", 'A'), ("number-nonblank", 'b'), ("show-ends", 'E'),
                  ("number", 'n'), ("squeeze-blank", 's'), ("show-tabs", 'T'),
                  ("show-nonprinting", 'v')] } (fun g => do
    if g.options.all (fun o => o.1 == 'u') then
      eachFile ("cat: " ++ ·) g.operands (fun _ text => say text)
    else do
      let lines := linesWithEnds (← allOf ("cat: " ++ ·) g.operands)
      let lines := if g.has 's' then squeezed false lines else lines
      let has (letters : String) : Bool := letters.toList.any g.has
      let shownLine (line : String) : String :=
        String.join (line.toList.map (shown (has "AeE") (has "AtT") (has "Aetv")))
      let numbers :=
        if g.has 'b' then numbersOf false 1 lines
        else if g.has 'n' then numbersOf true 1 lines
        else lines.map (fun _ => "")
      say (String.join (List.zipWith (fun number line => number ++ shownLine line) numbers lines)))

/-- Shows lines in the other order. -/
def tac : Program :=
  withOptions { name := "tac" } (fun g =>
    eachFile (fun n => "tac: failed to open " ++ quoted n ++ " for reading") g.operands
      (fun _ text => say (String.join (linesWithEnds text).reverse)))

/-- Shows the characters of each line in the other order. -/
def rev : Program :=
  withOptions { name := "rev" } (fun g =>
    eachFile (fun n => "rev: cannot open " ++ n) g.operands (fun _ text =>
      say (String.join ((linesWithEnds text).map (fun line =>
        String.ofList (withoutEnd line).toList.reverse ++
          (if endsWith "\n" line then "\n" else ""))))))

/-- Numbers lines that are not empty, or all of them. -/
def nl : Program :=
  withOptions { name := "nl", valued := "bwsnv" } (fun g => do
    let text ← allOf ("nl: " ++ ·) g.operands
    let width := ((g.value? 'w').bind decimal?).getD 6
    let mark := (g.value? 's').getD "\t"
    let start := ((g.value? 'v').bind decimal?).getD 1
    let style := (g.value? 'b').getD "t"
    let number (n : Nat) : String :=
      match g.value? 'n' with
      | some "ln" => paddedBehind ' ' width (toString n)
      | some "rz" => padded '0' width (toString n)
      | _ => padded ' ' width (toString n)
    let step (r : List String × Nat) (line : String) : List String × Nat :=
      if style = "n" || (style = "t" && line = "") then
        (r.1 ++ [String.ofList (List.replicate (width + mark.length) ' ') ++ line], r.2)
      else (r.1 ++ [number r.2 ++ mark ++ line], r.2 + 1)
    say (ended ((linesOf text).foldl step ([], start)).1))

/-! ### First and last lines -/

/-- A number with a unit behind it. -/
def sized? (text : String) : Option Nat :=
  let digits := text.toList.takeWhile Char.isDigit
  match decimal? (String.ofList digits), String.ofList (text.toList.drop digits.length) with
  | some n, "" => some n
  | some n, "b" => some (n * 512)
  | some n, "K" => some (n * 1024)
  | some n, "k" => some (n * 1024)
  | some n, "kB" => some (n * 1000)
  | some n, "M" => some (n * 1024 * 1024)
  | some n, "MB" => some (n * 1000 * 1000)
  | _, _ => none

/-- How many lines or characters of a text are shown, and from where. -/
structure Extent where
  /-- Whether characters count in the stead of lines. -/
  isChars : Bool := false
  /-- The sign in front of the number. -/
  sign : Option Char := none
  /-- The number. -/
  count : Nat := 10

/-- The extent that options ask for, or a complaint. -/
def extentOf (program : String) (g : Given) : Except String Extent :=
  match g.options.reverse.find? (fun o => o.1 == 'n' || o.1 == 'c') with
  | none => .ok {}
  | some (letter, value) =>
    let (sign, digits) := match value.toList with
      | '+' :: cs => (some '+', String.ofList cs)
      | '-' :: cs => (some '-', String.ofList cs)
      | _ => (none, value)
    match sized? digits with
    | some n => .ok ⟨letter == 'c', sign, n⟩
    | none =>
      .error (program ++ ": invalid number of " ++ (if letter = 'c' then "bytes" else "lines") ++
        ": " ++ quoted value)

/-- Arguments in which a hyphen or a plus sign in front of digits stands for a number of
lines. -/
def withCounts (signs : List Char) : List String → List String
  | argument :: rest =>
    match argument.toList with
    | c :: d :: cs =>
      if signs.contains c && d.isDigit then
        let digits := (d :: cs).takeWhile Char.isDigit
        let behind := cs.drop (digits.length - 1)
        let value := String.ofList ((if c = '+' then [c] else []) ++ digits)
        let letter := if behind.contains 'c' then "-c" else "-n"
        letter :: value :: rest
      else argument :: rest
    | _ => argument :: rest
  | [] => []

/-- The units of a text that an extent counts. -/
def Extent.units (e : Extent) (text : String) : List String :=
  if e.isChars then text.toList.map String.singleton else linesWithEnds text

/-- The beginning of a text, as long as an extent says. -/
def Extent.first (e : Extent) (text : String) : String :=
  let units := e.units text
  String.join (if e.sign = some '-' then units.take (units.length - e.count)
    else units.take e.count)

/-- The end of a text, as long as an extent says. -/
def Extent.last (e : Extent) (text : String) : String :=
  let units := e.units text
  String.join (if e.sign = some '+' then units.drop (e.count - 1)
    else units.drop (units.length - e.count))

/-- Shows parts of files, with their names if there are more than one. -/
def showParts (program : String) (g : Given) (part : String → Doing String) : Doing Unit := do
  let names := if g.operands.isEmpty then ["-"] else g.operands
  let isNamed := (1 < names.length && !g.has 'q') || g.has 'v'
  let header (isFirst : Bool) (name : String) : Doing Unit :=
    if isNamed then
      say ((if isFirst then "" else "\n") ++ "==> " ++
        (if name = "-" then "standard input" else name) ++ " <==\n")
    else pure ()
  let step (isFirst : Bool) (name : String) : Doing Bool := do
    match ← contentOf name with
    | .ok text => do
      header isFirst name
      say (← part text)
      pure false
    | .error fault => do
      if fault = .isDirectory then do
        header isFirst name
        complain (program ++ ": error reading " ++ quoted name ++ ": " ++ reasonOf fault)
      else
        complain (program ++ ": cannot open " ++ quoted name ++ " for reading: " ++ reasonOf fault)
      atLeast 1
      pure (isFirst && fault != .isDirectory)
  let _ ← names.foldlM step true
  pure ()

/-- **Shows the first lines.** What is not shown of the input is left to others. -/
def head : Program := fun arguments =>
  withOptions { name := "head", plain := "qvz", valued := "nc"
                long := [("lines", 'n'), ("bytes", 'c'), ("quiet", 'q'), ("verbose", 'v')] }
    (fun g =>
      match extentOf "head" g with
      | .error text => refuse 1 text
      | .ok e =>
        showParts "head" g (fun text => do
          let shown := e.first text
          giveBack (String.ofList (text.toList.drop shown.length))
          pure shown)) (withCounts ['-'] arguments)

/-- **Shows the last lines.** -/
def tail : Program := fun arguments =>
  withOptions { name := "tail", plain := "qvzfF", valued := "nc"
                long := [("lines", 'n'), ("bytes", 'c'), ("quiet", 'q'), ("verbose", 'v')] }
    (fun g =>
      match extentOf "tail" g with
      | .error text => refuse 1 text
      | .ok e => showParts "tail" g (fun text => pure (e.last text)))
    (withCounts ['-', '+'] arguments)

/-! ### Counts -/

/-- Whether a character stands between words. -/
def isBetweenWords (c : Char) : Bool :=
  c == ' ' || (9 ≤ c.toNat && c.toNat ≤ 13)

/-- The words of a text. -/
def wordsIn (text : String) : List (List Char) :=
  (text.toList.splitOnP isBetweenWords).filter (fun w => !w.isEmpty)

/-- How wide a line is shown. -/
def widthOf (line : String) : Nat :=
  line.toList.foldl (fun n c => if c = '\t' then n / 8 * 8 + 8 else if isOdd c then n else n + 1) 0

/-- The counts of a text: lines, words, characters, bytes, and the longest line. -/
def countsOf (text : String) : List Nat :=
  let lines := text.toList.count '\n'
  let longest := ((linesOf text).map widthOf).foldl max 0
  [lines, (wordsIn text).length, text.length, text.length, longest]

/-- The counts of all files together. -/
def total (a b : List Nat) : List Nat :=
  (a.zip b).zipIdx.map (fun n => if n.2 = 4 then max n.1.1 n.1.2 else n.1.1 + n.1.2)

/-- How wide counts are: as wide as the sizes of all files together, and wider if one of
the files has no size. -/
def countWidth (sizes : List (Option Nat)) : Nat :=
  let digits := (toString ((sizes.filterMap id).foldl (· + ·) 0)).length
  if sizes.any (·.isNone) then max 7 digits else digits

/-- **Counts** lines, words, and bytes. -/
def wc : Program :=
  withOptions { name := "wc", plain := "lwmcL"
                long := [("lines", 'l'), ("words", 'w'), ("chars", 'm'), ("bytes", 'c'),
                  ("max-line-length", 'L')] } (fun g => do
    let letters := ['l', 'w', 'm', 'c', 'L']
    let asked := if letters.any g.has then letters.filter g.has else ['l', 'w', 'c']
    let names := if g.operands.isEmpty then ["-"] else g.operands
    let scene ← get
    let sizes := names.filterMap (fun name =>
      if name = "-" then some (if scene.isFile then some scene.input.length else none)
      else
        match scene.tree.find (pathOf name) with
        | .ok (_, .file c _) => some (some (Octets.ofContent c).length)
        | .ok _ => some none
        | .error _ => if name = "/dev/null" then some none else none)
    let width := if names.length = 1 && asked.length = 1 then 1 else countWidth sizes
    let line (counts : List Nat) (name : String) : Doing Unit :=
      let numbers := (letters.zip counts).filter (fun n => asked.contains n.1)
      say (" ".intercalate (numbers.map (fun n => padded ' ' width (toString n.2))) ++
        (if name = "" then "" else " " ++ name) ++ "\n")
    let counts ← names.mapM (fun name => do
      let shown := if g.operands.isEmpty then "" else name
      match ← contentOf name with
      | .ok text => do
        line (countsOf text) shown
        pure (countsOf text)
      | .error fault => do
        complainOf "wc" name fault
        if fault = .isDirectory then line [0, 0, 0, 0, 0] shown
        pure [0, 0, 0, 0, 0])
    if 1 < names.length then line (counts.foldl total [0, 0, 0, 0, 0]) "total")

/-! ### Copies -/

/-- **Shows the input,** and writes it to files. -/
def tee : Program :=
  withOptions { name := "tee", plain := "aip", long := [("append", 'a')] } (fun g => do
    let text ← takeInput
    say text
    g.operands.forM (fun name => do
      if name != "/dev/null" then do
        let before ← if g.has 'a' then contentOf name else pure (.ok "")
        let content := Octets.toContent ((before.toOption.getD "") ++ text)
        match ← change (fun t => t.write (pathOf name) content) with
        | none => pure ()
        | some fault => complainOf "tee" name fault))

end Program

end GoPlanner

import GoPlanner.Program.Option

/-!
# Programs That Order Lines

Lines are compared by keys, one after the other; lines that are equal by all keys are
compared as a whole, so that the order does not depend on the input.

## Main definitions

* `Program.Order.Key`: what lines are compared by.
* `Program.Order.compareLines`: the order of lines.
* `Program.sort`, `Program.uniq`, `Program.comm`: the programs.
-/

namespace GoPlanner

namespace Program

namespace Order

/-! ### Keys -/

/-- **A key:** where it begins and ends in a line, and how it is compared. Fields and
characters are numbered from one on; the end may be the end of its field or of the line. -/
structure Key where
  /-- The field that it begins in. -/
  field : Nat := 1
  /-- The character of the field that it begins with. -/
  char : Nat := 1
  /-- The field that it ends in. -/
  lastField : Option Nat := none
  /-- The last character of that field, or zero for its end. -/
  lastChar : Nat := 0
  /-- The letters of its options. -/
  letters : List Char := []
  /-- The letters that count for its end. -/
  lastLetters : List Char := []
deriving Inhabited

/-- One end of a key: field, character, and letters. -/
def readEnd (text : String) : Option (Nat × Option Nat × List Char) :=
  let cs := text.toList
  let digits := cs.takeWhile Char.isDigit
  let rest := cs.drop digits.length
  (decimal? (String.ofList digits)).bind (fun field =>
    match rest with
    | '.' :: more =>
      let digits := more.takeWhile Char.isDigit
      let letters := more.drop digits.length
      (decimal? (String.ofList digits)).map (fun char => (field, some char, letters))
    | letters => some (field, none, letters))

/-- The key that a text stands for. -/
def key? (text : String) : Option Key :=
  match pieces ',' text with
  | [first] => (readEnd first).map (fun f => ⟨f.1, f.2.1.getD 1, none, 0, f.2.2, []⟩)
  | [first, last] =>
    (readEnd first).bind (fun f => (readEnd last).map (fun l =>
      ⟨f.1, f.2.1.getD 1, some l.1, l.2.1.getD 0, f.2.2 ++ l.2.2, l.2.2⟩))
  | _ => none

/-- Blanks between fields. -/
def isBlank (c : Char) : Bool :=
  c == ' ' || c == '\t' || c == '\n'

/-- The fields of a line. Without a separator the blanks in front of a field are part of
it. -/
def fieldsOf (separator : Option Char) (line : List Char) : List (List Char) :=
  match separator with
  | some mark => line.splitOn mark
  | none => divided (line.length + 1) line
where
  /-- Fields that begin with their blanks. The number bounds them. -/
  divided : Nat → List Char → List (List Char)
    | 0, _ => []
    | _, [] => []
    | n + 1, cs =>
      let blanks := cs.takeWhile isBlank
      let word := (cs.drop blanks.length).takeWhile (fun c => !isBlank c)
      (blanks ++ word) :: divided n (cs.drop (blanks.length + word.length))

/-- Where a field begins in a line. -/
def offsetOf (separator : Option Char) (fields : List (List Char)) (n : Nat) : Nat :=
  ((fields.take (n - 1)).map List.length).foldl (· + ·) 0 +
    (if separator.isSome then min (n - 1) fields.length else 0)

/-- The part of a line that a key stands for. -/
def Key.part (separator : Option Char) (k : Key) (line : List Char) : List Char :=
  let fields := fieldsOf separator line
  let start := min (offsetOf separator fields k.field) line.length
  let skips (letters : List Char) (from' : Nat) : Nat :=
    if letters.contains 'b' then from' + ((line.drop from').takeWhile isBlank).length else from'
  let start := skips k.letters start + (k.char - 1)
  let stop := match k.lastField with
    | none => line.length
    | some n =>
      let first := min (offsetOf separator fields n) line.length
      if k.lastChar = 0 then first + (fields.getD (n - 1) []).length
      else skips k.lastLetters first + k.lastChar
  (line.take stop).drop start

/-! ### Comparing -/

/-- The number at the beginning of a text: its digits without the point, and how many of
them stand behind the point. -/
def numberOf (cs : List Char) : Int × Nat :=
  let cs := cs.dropWhile isBlank
  let (isNegative, cs) := match cs with
    | '-' :: rest => (true, rest)
    | rest => (false, rest)
  let whole := cs.takeWhile Char.isDigit
  let fraction := match cs.drop whole.length with
    | '.' :: rest => rest.takeWhile Char.isDigit
    | _ => []
  let digits : Int := ((decimal? (String.ofList (whole ++ fraction))).getD 0 : Nat)
  (if isNegative then -digits else digits, fraction.length)

/-- The order of numbers. -/
def compareNumbers (a b : Int × Nat) : Ordering :=
  compare (a.1 * Int.pow 10 b.2) (b.1 * Int.pow 10 a.2)

/-- The order of texts by their characters. -/
def compareTexts : List Char → List Char → Ordering
  | [], [] => .eq
  | [], _ :: _ => .lt
  | _ :: _, [] => .gt
  | a :: as, b :: bs => if a = b then compareTexts as bs else compare a b

/-- The runs of a text: of digits, which are compared as numbers, and of others. The
number bounds them. -/
def runs : Nat → List Char → List (List Char)
  | 0, _ => []
  | _, [] => []
  | n + 1, c :: cs =>
    let run := (c :: cs).takeWhile (fun d => d.isDigit == c.isDigit)
    run :: runs n ((c :: cs).drop run.length)

/-- The order of versions. -/
def compareVersions : List (List Char) → List (List Char) → Ordering
  | [], [] => .eq
  | [], _ :: _ => .lt
  | _ :: _, [] => .gt
  | a :: as, b :: bs =>
    let first :=
      match decimal? (String.ofList a), decimal? (String.ofList b) with
      | some m, some n => compare m n
      | _, _ => compareTexts a b
    if first = .eq then compareVersions as bs else first

/-- The size that a number with a unit stands for: the unit counts first. -/
def compareSizes (a b : List Char) : Ordering :=
  let unit (cs : List Char) : Nat :=
    let rest := (cs.dropWhile isBlank).dropWhile (fun c => c.isDigit || c == '.' || c == '-')
    match "KMGTPEZY".toList.idxOf? (rest.headD ' ').toUpper with
    | some n => n + 1
    | none => 0
  let first := compare (unit a) (unit b)
  if first = .eq then compareNumbers (numberOf a) (numberOf b) else first

/-- The order of two parts of lines under the letters of options. -/
def compareParts (letters : List Char) (a b : List Char) : Ordering :=
  let kept (cs : List Char) : List Char :=
    let cs := if letters.contains 'd' then cs.filter (fun c => c.isAlphanum || isBlank c) else cs
    let cs := if letters.contains 'i' then cs.filter (fun c => !isOdd c) else cs
    if letters.contains 'f' then cs.map Char.toUpper else cs
  let found :=
    if letters.contains 'n' || letters.contains 'g' then compareNumbers (numberOf a) (numberOf b)
    else if letters.contains 'h' then compareSizes a b
    else if letters.contains 'V' then
      compareVersions (runs a.length a) (runs b.length b)
    else compareTexts (kept a) (kept b)
  if letters.contains 'r' then found.swap else found

/-- The order of lines by keys. -/
def compareKeys (separator : Option Char) (a b : List Char) : List Key → Ordering
  | [] => .eq
  | k :: ks =>
    let first := compareParts k.letters (k.part separator a) (k.part separator b)
    if first = .eq then compareKeys separator a b ks else first

/-- How lines are ordered. -/
structure Way where
  /-- The character between fields. -/
  separator : Option Char
  /-- The keys. -/
  keys : List Key
  /-- Whether lines are compared as a whole in the end, and if so, backwards. -/
  last : Option Bool

/-- **The order of lines.** -/
def compareLines (w : Way) (a b : List Char) : Ordering :=
  let first := compareKeys w.separator a b w.keys
  if first != .eq then first
  else
    match w.last with
    | none => .eq
    | some isReversed => if isReversed then compareTexts b a else compareTexts a b

/-- The way that options ask for. Keys without options of their own have the common
ones. -/
def wayOf (g : Given) : Option Way :=
  let common := ("bdfghinrV".toList.filter g.has)
  let separator := (g.value? 't').map (fun t => if t = "\\0" then '\x00' else t.toList.headD ' ')
  ((g.values 'k').mapM key?).map (fun keys =>
    let keys := if keys.isEmpty then [{ letters := common }]
      else keys.map (fun k => if k.letters.isEmpty then
        { k with letters := common, lastLetters := common } else k)
    ⟨separator, keys, if g.has 's' || g.has 'u' then none else some (g.has 'r')⟩)

/-- Lines of which none is equal to the one in front of it. -/
def distinct (w : Way) : List (List Char) → List (List Char)
  | a :: b :: rest =>
    if compareLines w a b = .eq then distinct w (a :: rest) else a :: distinct w (b :: rest)
  | short => short
termination_by lines => lines.length

end Order

/-! ### Ordering -/

/-- **Puts lines in order.** -/
def sort : Program :=
  withOptions { name := "sort", plain := "bcCdfghimMnrRsuVz", valued := "kotST", misuse := 2
                long := [("numeric-sort", 'n'), ("reverse", 'r'), ("unique", 'u'), ("key", 'k'),
                  ("field-separator", 't'), ("ignore-case", 'f'), ("stable", 's'),
                  ("output", 'o'), ("check", 'c'), ("version-sort", 'V'),
                  ("human-numeric-sort", 'h'), ("ignore-leading-blanks", 'b'),
                  ("dictionary-order", 'd'), ("general-numeric-sort", 'g')] } (fun g => do
    match Order.wayOf g with
    | none => refuse 2 ("sort: invalid number at field start: invalid count at start of " ++
        quoted ((g.value? 'k').getD ""))
    | some w => do
      let text ← allOf (fun n => "sort: cannot read: " ++ n) g.operands
      if (← get).status != 0 then finish 2
      else
        let lines := (linesOf text).map String.toList
        if g.has 'c' || g.has 'C' then
          let wrong := (lines.zip lines.tail).zipIdx.find? (fun p =>
            let order := Order.compareLines w p.1.1 p.1.2
            order == .gt || (g.has 'u' && order == .eq))
          match wrong with
          | none => pure ()
          | some ((_, line), n) => do
            if g.has 'c' then
              complain ("sort: " ++ g.operands.headD "-" ++ ":" ++ toString (n + 2) ++
                ": disorder: " ++ String.ofList line)
            finish 1
        else do
          let sorted := lines.mergeSort (fun a b => Order.compareLines w a b != .gt)
          let sorted := if g.has 'u' then Order.distinct w sorted else sorted
          let result := ended (sorted.map String.ofList)
          match g.value? 'o' with
          | none => say result
          | some name => do
            match ← change (fun t => t.write (pathOf name) (Octets.toContent result)) with
            | none => pure ()
            | some fault => refuse 2 ("sort: open failed: " ++ quotedIfNeeded name ++ ": " ++
                reasonOf fault))

/-! ### Lines that follow each other -/

/-- Runs of lines that count as the same: the first of each, and how many there are. -/
def lineRuns (same : String → String → Bool) : List String → List (String × Nat)
  | [] => []
  | line :: lines =>
    match lineRuns same lines with
    | (first, n) :: others =>
      if same line first then (line, n + 1) :: others else (line, 1) :: (first, n) :: others
    | [] => [(line, 1)]

/-- **Shows lines that follow each other once.** -/
def uniq : Program :=
  withOptions { name := "uniq", plain := "cdDiuz", valued := "fsw"
                long := [("count", 'c'), ("repeated", 'd'), ("unique", 'u'),
                  ("ignore-case", 'i'), ("skip-fields", 'f'), ("skip-chars", 's'),
                  ("check-chars", 'w')] } (fun g => do
    if let some extra := g.operands[2]? then
      return ← misused { name := "uniq" } ("extra operand " ++ quoted extra)
    match ← contentOf (g.operands.headD "-") with
    | .error fault => complainOf "uniq" (g.operands.headD "-") fault
    | .ok text => do
      let number (letter : Char) : Option Nat := (g.value? letter).bind decimal?
      let key (line : String) : List Char :=
        let cs := line.toList
        let cs := (List.range ((number 'f').getD 0)).foldl (fun cs _ =>
          (cs.dropWhile Order.isBlank).dropWhile (fun c => !Order.isBlank c)) cs
        let cs := cs.drop ((number 's').getD 0)
        let cs := match number 'w' with
          | some n => cs.take n
          | none => cs
        if g.has 'i' then cs.map Char.toLower else cs
      let runs := lineRuns (fun a b => key a == key b) (linesOf text)
      let shown := runs.filter (fun r =>
        (!g.has 'd' || 1 < r.2) && (!g.has 'u' || r.2 == 1))
      let result := ended (shown.map (fun r =>
        (if g.has 'c' then padded ' ' 7 (toString r.2) ++ " " else "") ++ r.1))
      match g.operands with
      | _ :: target :: _ => do
        match ← change (fun t => t.write (pathOf target) (Octets.toContent result)) with
        | none => pure ()
        | some fault => complainOf "uniq" target fault
      | _ => say result)

/-! ### Common lines -/

/-- The lines of two ordered texts, each with the column it is shown in. The number bounds
them. -/
def columns : Nat → List String → List String → List (Nat × String)
  | 0, _, _ => []
  | _, [], ys => ys.map (fun y => (1, y))
  | _, xs, [] => xs.map (fun x => (0, x))
  | n + 1, x :: xs, y :: ys =>
    if x = y then (2, x) :: columns n xs ys
    else if x < y then (0, x) :: columns n xs (y :: ys)
    else (1, y) :: columns n (x :: xs) ys

/-- **Compares two ordered files** line by line. -/
def comm : Program :=
  withOptions { name := "comm", plain := "123" } (fun g =>
    match g.operands with
    | [a, b] => do
      match ← contentOf a, ← contentOf b with
      | .ok left, .ok right =>
        let (left, right) := (linesOf left, linesOf right)
        let hidden (n : Nat) : Bool := g.has (Char.ofNat (49 + n))
        let tabs (n : Nat) : String :=
          String.ofList (((List.range n).filter (fun i => !hidden i)).map (fun _ => '\t'))
        let found := columns (left.length + right.length + 1) left right
        say (ended ((found.filter (fun f => !hidden f.1)).map (fun f => tabs f.1 ++ f.2)))
      | .error fault, _ => complainOf "comm" a fault
      | _, .error fault => complainOf "comm" b fault
    | [] => misused { name := "comm" } "missing operand"
    | [a] => misused { name := "comm" } ("missing operand after " ++ quoted a)
    | _ :: _ :: c :: _ => misused { name := "comm" } ("extra operand " ++ quoted c))

end Program

end GoPlanner

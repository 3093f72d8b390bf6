import GoPlanner.Toml.Basic
import GoPlanner.Toml.Text

/-!
# Numbers and Times in TOML

A number is an integer of 64 bits, in one of four bases, or has a fraction or an exponent.
Dates and times start with digits as well, and are tried first. Of all readings the first
that fits is taken; what it leaves must then fit what follows the value.

## Main definitions

* `Toml.readTime`: a date, a time, or both.
* `Toml.readFraction`: a number with a fraction or an exponent.
* `Toml.readInteger`: an integer.
* `Toml.readNumber`: the first of these that fits.
-/

namespace GoPlanner

namespace Toml

/-! ### Digits -/

/-- Further digits of a run, in which single underscores may stand between digits. -/
def moreDigits (isDigit : Char → Bool) : List Char → List Char × List Char
  | '_' :: c :: cs =>
    if isDigit c then
      let r := moreDigits isDigit cs
      (c :: r.1, r.2)
    else ([], '_' :: c :: cs)
  | c :: cs =>
    if isDigit c then
      let r := moreDigits isDigit cs
      (c :: r.1, r.2)
    else ([], c :: cs)
  | [] => ([], [])

/-- A run of digits, at least one. -/
def readDigits (isDigit : Char → Bool) : List Char → Option (List Char × List Char)
  | c :: cs =>
    if isDigit c then
      let r := moreDigits isDigit cs
      some (c :: r.1, r.2)
    else none
  | [] => none

/-- A run of decimal digits without a zero in front. -/
def readDecimal : List Char → Option (List Char × List Char)
  | '0' :: cs => some (['0'], cs)
  | cs => readDigits Char.isDigit cs

/-- The number that digits stand for. -/
def numberOf (base : Nat) (digits : List Char) : Nat :=
  digits.foldl (fun n c => n * base + (hexValue? c).getD 0) 0

/-- A sign, and whether it is a minus. -/
def readSign : List Char → Bool × List Char
  | '+' :: cs => (false, cs)
  | '-' :: cs => (true, cs)
  | cs => (false, cs)

/-! ### Integers -/

/-- The integer of a sign and a size, if it has 64 bits. -/
def integer64? (negative : Bool) (size : Nat) : Option Int :=
  if negative then if size ≤ Nat.pow 2 63 then some (-size) else none
  else if size < Nat.pow 2 63 then some size
  else none

/-- An integer in another base than ten, behind the letter for the base. -/
def readBased (base : Nat) (cs : List Char) : Option (Toml × List Char) :=
  let isDigit (c : Char) := (hexValue? c).any (fun v => v < base)
  (readDigits isDigit cs).bind
    (fun r => (integer64? false (numberOf base r.1)).map (fun n => (.integer n, r.2)))

/-- **An integer.** -/
def readInteger : List Char → Option (Toml × List Char)
  | '0' :: 'x' :: cs => readBased 16 cs
  | '0' :: 'o' :: cs => readBased 8 cs
  | '0' :: 'b' :: cs => readBased 2 cs
  | cs =>
    let (negative, cs) := readSign cs
    (readDecimal cs).bind
      (fun r => (integer64? negative (numberOf 10 r.1)).map (fun n => (.integer n, r.2)))

/-! ### Fractions -/

/-- The digits behind a point. -/
def readPlaces : List Char → Option (List Char × List Char)
  | '.' :: cs => readDigits Char.isDigit cs
  | _ => none

/-- An exponent. -/
def readExponent : List Char → Option (Int × List Char)
  | c :: cs =>
    if c = 'e' || c = 'E' then
      let (negative, cs) := readSign cs
      (readDigits Char.isDigit cs).map (fun r =>
        let size : Int := numberOf 10 r.1
        (if negative then -size else size, r.2))
    else none
  | [] => none

/-- Whether `digits * 10 ^ exponent` is too large for a number of 64 bits: it is rounded
to 53 binary places, and nothing from `2 ^ 1024 - 2 ^ 970` on has a finite neighbour. -/
def isTooLarge (digits : List Char) (exponent : Int) : Bool :=
  let significant := digits.dropWhile (fun c => c == '0')
  let size := significant.length + exponent
  if significant.isEmpty || size < 309 then false
  else if 310 ≤ size then true
  else
    let n := numberOf 10 significant
    let limit := Nat.pow 2 1024 - Nat.pow 2 970
    if 0 ≤ exponent then limit ≤ n * Nat.pow 10 exponent.toNat
    else limit * Nat.pow 10 (-exponent).toNat ≤ n

/-- The text behind one of the words for numbers that are none. -/
def readSpecial : List Char → Option (List Char)
  | 'i' :: 'n' :: 'f' :: cs => some cs
  | 'n' :: 'a' :: 'n' :: cs => some cs
  | _ => none

/-- A number with a fraction, an exponent, or both. -/
def readPlainFraction (cs : List Char) : Option (Toml × List Char) :=
  let (negative, cs) := readSign cs
  match readDecimal cs with
  | none => none
  | some (whole, cs) =>
    let places := (readPlaces cs).getD ([], cs)
    let exponent := readExponent places.2
    let value := exponent.getD (0, places.2)
    if places.1.isEmpty && exponent.isNone then none
    else if !negative && isTooLarge (whole ++ places.1) (value.1 - places.1.length) then none
    else some (.fraction, value.2)

/-- **A number with a fraction,** or one of the words for numbers that are none. -/
def readFraction (cs : List Char) : Option (Toml × List Char) :=
  match readPlainFraction cs with
  | some r => some r
  | none => (readSpecial (readSign cs).2).map (fun rest => (.fraction, rest))

/-! ### Times -/

/-- A number of exactly two digits up to a limit. -/
def readPair (least most : Nat) : List Char → Option (Nat × List Char)
  | a :: b :: cs =>
    if a.isDigit && b.isDigit then
      let n := numberOf 10 [a, b]
      if least ≤ n && n ≤ most then some (n, cs) else none
    else none
  | _ => none

/-- The text behind a character that must be there. -/
def expect (c : Char) : List Char → Option (List Char)
  | d :: cs => if d = c then some cs else none
  | [] => none

/-- How many days a month has. -/
def daysIn (year month : Nat) : Nat :=
  if month = 2 then
    if year % 4 == 0 && (year % 100 != 0 || year % 400 == 0) then 29 else 28
  else if month = 4 || month = 6 || month = 9 || month = 11 then 30
  else 31

/-- The text behind a date. -/
def readDate : List Char → Option (List Char)
  | a :: b :: c :: d :: cs => do
    guard ([a, b, c, d].all Char.isDigit)
    let (month, cs) ← (expect '-' cs).bind (readPair 1 12)
    let (_, cs) ← (expect '-' cs).bind (readPair 1 (daysIn (numberOf 10 [a, b, c, d]) month))
    pure cs
  | _ => none

/-- The text behind a time of the day. -/
def readClock (cs : List Char) : Option (List Char) := do
  let (_, cs) ← readPair 0 23 cs
  let (_, cs) ← (expect ':' cs).bind (readPair 0 59)
  let (_, cs) ← (expect ':' cs).bind (readPair 0 60)
  match expect '.' cs with
  | none => pure cs
  | some digits =>
    let rest := digits.dropWhile Char.isDigit
    guard (rest.length < digits.length)
    pure rest

/-- The text behind the offset of a time zone. -/
def readOffset : List Char → Option (List Char)
  | c :: cs =>
    if c = 'Z' || c = 'z' then some cs
    else if c = '+' || c = '-' then do
      let (_, cs) ← readPair 0 23 cs
      let (_, cs) ← (expect ':' cs).bind (readPair 0 59)
      pure cs
    else none
  | [] => none

/-- The text behind a time of the day that follows a date. -/
def readClockAfterDate : List Char → Option (List Char)
  | c :: cs =>
    if c = 'T' || c = 't' || c = ' ' then
      (readClock cs).map (fun cs => (readOffset cs).getD cs)
    else none
  | [] => none

/-- **A date, a time, or both.** -/
def readTime (cs : List Char) : Option (Toml × List Char) :=
  match readDate cs with
  | some rest => some (.time, (readClockAfterDate rest).getD rest)
  | none => (readClock cs).map (fun rest => (.time, rest))

/-- **A number or a time.** -/
def readNumber (cs : List Char) : Option (Toml × List Char) :=
  (readTime cs).or ((readFraction cs).or (readInteger cs))

end Toml

end GoPlanner

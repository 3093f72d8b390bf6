import GoPlanner.Program.Basic
import GoPlanner.Text.Numeral

/-!
# Formats

A format is a text with directives, each of which a word is put in for. The format is used
again as long as there are words left; where there are none, a directive gets the empty
text or zero.

## Main definitions

* `Program.unescaped`: texts with escapes.
* `Program.Directive`: directives.
* `Program.printf`: prints words in a format.
-/

namespace GoPlanner

namespace Program

/-! ### Escapes -/

/-- The character of up to three digits in base eight, with what follows them. -/
def readOctal (cs : List Char) : Char × List Char :=
  let digits := (cs.take 3).takeWhile (Numeral.isDigitIn 8)
  (Char.ofNat (Numeral.ofDigits 8 digits % 256), cs.drop digits.length)

/-- The character that stands behind a reverse solidus, with what follows it. What is no
escape leaves the reverse solidus as it is. -/
def readEscape (cs : List Char) : Char × List Char :=
  match cs with
  | 'a' :: rest => ('\x07', rest)
  | 'b' :: rest => ('\x08', rest)
  | 'e' :: rest => ('\x1b', rest)
  | 'f' :: rest => ('\x0c', rest)
  | 'n' :: rest => ('\n', rest)
  | 'r' :: rest => ('\r', rest)
  | 't' :: rest => ('\t', rest)
  | 'v' :: rest => ('\x0b', rest)
  | '\\' :: rest => ('\\', rest)
  | c :: _ => if Numeral.isDigitIn 8 c then readOctal cs else ('\\', cs)
  | [] => ('\\', [])

/-- **A text with escapes,** and whether one of them ends it. An octal number may have a
zero in front of its digits. -/
def unescaped (cs : List Char) : List Char × Bool :=
  match cs with
  | [] => ([], false)
  | '\\' :: 'c' :: _ => ([], true)
  | '\\' :: rest =>
    let (c, later) := match rest with
      | '0' :: d :: more =>
        if Numeral.isDigitIn 8 d then readOctal (d :: more) else readEscape rest
      | _ => readEscape rest
    if later.length ≤ rest.length then
      let (text, isEnded) := unescaped later
      (c :: text, isEnded)
    else ([c], false)
  | c :: rest =>
    let (text, isEnded) := unescaped rest
    (c :: text, isEnded)
termination_by cs.length

/-! ### Directives -/

/-- **A directive.** -/
structure Directive where
  /-- Its flags. -/
  flags : List Char
  /-- The least length of the text. -/
  width : Nat
  /-- How many digits or characters are wanted. -/
  precision : Option Nat
  /-- What is printed. -/
  conversion : Char
deriving Inhabited

namespace Directive

/-- A text at its side of the width; zeros may fill the gap behind the sign. -/
def placed (d : Directive) (fillsZeros : Bool) (sign body : String) : String :=
  if d.flags.contains '-' then paddedBehind ' ' d.width (sign ++ body)
  else if fillsZeros && d.flags.contains '0' then
    sign ++ padded '0' (d.width - sign.length) body
  else padded ' ' d.width (sign ++ body)

/-- The sign of a number. -/
def sign (d : Directive) (isNegative : Bool) : String :=
  if isNegative then "-"
  else if d.flags.contains '+' then "+"
  else if d.flags.contains ' ' then " "
  else ""

/-- A number of digits as it is wanted. -/
def digits (d : Directive) (text : String) : String :=
  match d.precision with
  | none => text
  | some 0 => if text = "0" then "" else text
  | some p => padded '0' p text

/-- The text of a number with a sign. -/
def signedText (d : Directive) (n : Int) : String :=
  d.placed d.precision.isNone (d.sign (n < 0)) (d.digits (toString n.natAbs))

/-- The text of a number without a sign. -/
def unsignedText (d : Directive) (n : Nat) : String :=
  let inBase (base : Nat) : String := String.ofList (Nat.toDigits base n)
  let mark := d.flags.contains '#' && n != 0
  match d.conversion with
  | 'o' =>
    let text := d.digits (inBase 8)
    d.placed d.precision.isNone ""
      (if d.flags.contains '#' && !text.startsWith "0" then "0" ++ text else text)
  | 'x' => d.placed d.precision.isNone (if mark then "0x" else "") (d.digits (inBase 16))
  | 'X' =>
    d.placed d.precision.isNone (if mark then "0X" else "") (d.digits (inBase 16).toUpper)
  | _ => d.placed d.precision.isNone "" (d.digits (inBase 10))

/-- The text of characters. -/
def plainText (d : Directive) (text : String) : String :=
  d.placed false "" (match d.precision with
    | some p => String.ofList (text.toList.take p)
    | none => text)

end Directive

/-! ### Decimal fractions -/

/-- The nearest whole number to a fraction; of two the even one. -/
def rounded (numerator denominator : Nat) : Nat :=
  let q := numerator / denominator
  let twice := 2 * (numerator % denominator)
  if twice > denominator || (twice == denominator && q % 2 == 1) then q + 1 else q

/-- The magnitude of a finite number as a fraction. -/
def fractionOf (x : Float) : Nat × Nat :=
  let bits := x.toBits.toNat % Nat.pow 2 63
  let exponent := bits / Nat.pow 2 52
  let mantissa := if exponent = 0 then bits else bits % Nat.pow 2 52 + Nat.pow 2 52
  let exponent := max exponent 1
  if 1075 ≤ exponent then (mantissa * Nat.pow 2 (exponent - 1075), 1)
  else (mantissa, Nat.pow 2 (1075 - exponent))

/-- Digits with a point in front of the last ones. -/
def pointed (n places : Nat) (keepsPoint : Bool) : String :=
  let text := padded '0' (places + 1) (toString n)
  let whole := text.toList.take (text.length - places)
  if places = 0 then String.ofList whole ++ (if keepsPoint then "." else "")
  else String.ofList (whole ++ '.' :: text.toList.drop (text.length - places))

/-- A fraction with a number of places. -/
def fixedText (f : Nat × Nat) (places : Nat) (keepsPoint : Bool) : String :=
  pointed (rounded (f.1 * Nat.pow 10 places) f.2) places keepsPoint

/-- The exponent of the first digit of a fraction that is not zero. -/
def exponentOf (f : Nat × Nat) : Int :=
  if f.1 = 0 then 0
  else if f.2 ≤ f.1 then ((Nat.toDigits 10 (f.1 / f.2)).length : Int) - 1
  else
    let n := (Nat.toDigits 10 (f.2 / f.1)).length
    if f.2 ≤ f.1 * Nat.pow 10 (n - 1) then -((n - 1 : Nat) : Int) else -(n : Int)

/-- A fraction as digits behind its first one, and its exponent. -/
def scaled (f : Nat × Nat) (places : Nat) : Nat × Int :=
  let e := exponentOf f
  let shift := (places : Int) - e
  let digits := if 0 ≤ shift then rounded (f.1 * Nat.pow 10 shift.toNat) f.2
    else rounded f.1 (f.2 * Nat.pow 10 (-shift).toNat)
  if digits = Nat.pow 10 (places + 1) then (Nat.pow 10 places, e + 1) else (digits, e)

/-- A fraction with an exponent. -/
def scientificText (f : Nat × Nat) (places : Nat) (keepsPoint : Bool) : String :=
  let (digits, e) := scaled f places
  pointed digits places keepsPoint ++ (if e < 0 then "e-" else "e+") ++
    padded '0' 2 (toString e.natAbs)

/-- A text without the zeros behind its point. -/
def withoutZeros (text : String) : String :=
  if text.contains '.' then
    let kept := (text.toList.reverse.dropWhile (fun c => c == '0'))
    String.ofList ((if kept.head? = some '.' then kept.tail else kept).reverse)
  else text

/-- A fraction in the shorter of the two forms. -/
def generalText (f : Nat × Nat) (precision : Nat) (keepsZeros : Bool) : String :=
  let p := max precision 1
  let e := (scaled f (p - 1)).2
  if -4 ≤ e && e < p then
    let text := fixedText f ((p : Int) - 1 - e).toNat keepsZeros
    if keepsZeros then text else withoutZeros text
  else
    let (digits, e) := scaled f (p - 1)
    let text := pointed digits (p - 1) keepsZeros
    (if keepsZeros then text else withoutZeros text) ++ (if e < 0 then "e-" else "e+") ++
      padded '0' 2 (toString e.natAbs)

/-- The text of a number with a point. -/
def Directive.fractionText (d : Directive) (x : Float) : String :=
  let isNegative := x.toBits.toNat ≥ Nat.pow 2 63
  let marked := d.flags.contains '#'
  let text :=
    if x.isNaN then "nan"
    else if x.isInf then "inf"
    else
      let f := fractionOf x
      let p := d.precision.getD 6
      match d.conversion.toLower with
      | 'e' => scientificText f p marked
      | 'g' => generalText f p marked
      | _ => fixedText f p marked
  let text := if d.conversion.isUpper then text.toUpper else text
  d.placed (!x.isNaN && !x.isInf) (d.sign isNegative) text

/-- The number with a point at the beginning of a text, with what follows it. -/
def readFraction (cs : List Char) : Option (Float × List Char) :=
  let (isNegative, rest) := match cs.dropWhile Numeral.isSpace with
    | '-' :: rest => (true, rest)
    | '+' :: rest => (false, rest)
    | rest => (false, rest)
  let signed (x : Float) : Float := if isNegative then -x else x
  let whole := rest.takeWhile Char.isDigit
  let behind := rest.drop whole.length
  let places := match behind with
    | '.' :: more => more.takeWhile Char.isDigit
    | _ => []
  if whole.isEmpty && places.isEmpty then
    let lower := String.ofList (rest.map Char.toLower)
    if lower.startsWith "infinity" then some (signed (1 / 0), rest.drop 8)
    else if lower.startsWith "inf" then some (signed (1 / 0), rest.drop 3)
    else if lower.startsWith "nan" then some (0 / 0, rest.drop 3)
    else none
  else
    let behind := match behind with
      | '.' :: more => more.drop places.length
      | _ => behind
    let mantissa := Numeral.ofDigits 10 (whole ++ places)
    let (exponent, behind) := match behind with
      | c :: more =>
        let digits := if c = 'e' || c = 'E' then Numeral.readSigned (Numeral.readIn 10) more
          else none
        digits.getD (0, behind)
      | [] => (0, [])
    let scale := exponent - places.length
    some (signed (if scale < 0 then Float.ofScientific mantissa true scale.natAbs
      else Float.ofScientific mantissa false scale.natAbs), behind)

/-! ### Words -/

/-- Takes the next word. -/
def takeWord : StateT (List String) Doing (Option String) := do
  match ← get with
  | [] => pure none
  | word :: words => do
    set words
    pure (some word)

/-- Complains about a word that is no number, or about what follows the number in it. -/
def checkNumber (start word : String) (rest : Option (List Char)) (isLimited : Bool) :
    Doing Unit := do
  let wrong (text : String) : Doing Unit := do
    complain (start ++ word ++ ": " ++ text)
    atLeast 1
  match rest with
  | none => if word = "" then pure () else wrong "expected numeric value"
  | some [] => if isLimited then wrong (systemText 34) else pure ()
  | some _ => wrong "not completely converted"

/-- The number of the next word. A quotation mark in front of a character stands for its
number. -/
def takeNumber (start : String) (isSigned : Bool) : StateT (List String) Doing Int := do
  match ← takeWord with
  | none => pure 0
  | some word =>
    match word.toList with
    | '\x22' :: cs => pure ((cs.head?.map (fun c => (c.toNat : Int))).getD 0)
    | '\x27' :: cs => pure ((cs.head?.map (fun c => (c.toNat : Int))).getD 0)
    | cs => do
      let read := Numeral.readSigned Numeral.read cs
      let n := (read.map (·.1)).getD 0
      let limit := if isSigned then Numeral.limited n else min n (Int.pow 2 64 - 1)
      checkNumber start word (read.map (·.2)) (limit != n)
      pure (if isSigned then limit else limit % Int.pow 2 64)

/-- The number with a point of the next word. -/
def takeFraction (start : String) : StateT (List String) Doing Float := do
  match ← takeWord with
  | none => pure 0
  | some word => do
    let read := readFraction word.toList
    let x := (read.map (·.1)).getD 0
    checkNumber start word (read.map (·.2)) (x.isInf && word.toList.any Char.isDigit)
    pure x

/-- How a directive ends. -/
inductive Directed where
  /-- The format goes on. -/
  | continued
  /-- Nothing more is printed. -/
  | stopped
  /-- There is no such directive. -/
  | refused

/-- Prints what a directive asks for. -/
def direct (start : String) (d : Directive) : StateT (List String) Doing Directed := do
  let print (text : String) : StateT (List String) Doing Directed := do
    say text
    pure .continued
  match d.conversion with
  | 's' => print (d.plainText ((← takeWord).getD ""))
  | 'b' => do
    let (text, isEnded) := unescaped ((← takeWord).getD "").toList
    say (d.plainText (String.ofList text))
    pure (if isEnded then .stopped else .continued)
  | 'c' => print (d.placed false "" (String.ofList [(((← takeWord).getD "").toList).headD '\x00']))
  | 'd' => print (d.signedText (← takeNumber start true))
  | 'i' => print (d.signedText (← takeNumber start true))
  | c =>
    if ['o', 'u', 'x', 'X'].contains c then
      print (d.unsignedText (← takeNumber start false).toNat)
    else if ['e', 'E', 'f', 'F', 'g', 'G'].contains c then
      print (d.fractionText (← takeFraction start))
    else pure .refused

/-- A number in a directive, or the next word for an asterisk, with what follows it. -/
def takeSize (start : String) (cs : List Char) :
    StateT (List String) Doing (Option Int × List Char) := do
  match cs with
  | '*' :: rest => do
    pure (some (← takeNumber start true), rest)
  | _ =>
    let digits := cs.takeWhile Char.isDigit
    pure (if digits.isEmpty then none else some (Numeral.ofDigits 10 digits : Int),
      cs.drop digits.length)

/-- **Prints a format once.** The number bounds its length. -/
def fill (start : String) : Nat → List Char → StateT (List String) Doing Directed
  | 0, _ => pure .continued
  | _, [] => pure .continued
  | n + 1, '\\' :: rest => do
    let (c, later) := readEscape rest
    say (String.singleton c)
    fill start n later
  | n + 1, '%' :: '%' :: rest => do
    say "%"
    fill start n rest
  | n + 1, '%' :: rest => do
    let flags := rest.takeWhile (fun c => ['#', '-', '+', ' ', '0'].contains c)
    let (width, behind) ← takeSize start (rest.drop flags.length)
    let (precision, behind) ← (match behind with
      | '.' :: more => do
        let (p, later) ← takeSize start more
        pure (some (p.getD 0), later)
      | _ => pure (none, behind))
    match behind with
    | [] => do
      complain (start ++ "missing format character")
      pure .refused
    | c :: later => do
      let width := width.getD 0
      let d : Directive :=
        { flags := if width < 0 then '-' :: flags else flags
          width := width.natAbs
          precision := (precision.filter (0 ≤ ·)).map Int.toNat
          conversion := c }
      match ← direct start d with
      | .continued => fill start n later
      | .stopped => pure .stopped
      | .refused => do
        complain (start ++ String.ofList ('%' :: rest.take (rest.length - later.length)) ++
          ": invalid directive")
        pure .refused
  | n + 1, c :: rest => do
    say (String.singleton c)
    fill start n rest

/-- Prints a format as long as there are words for it, and at least once. -/
def fillAll (start : String) (format : List Char) : Nat → List String → Doing Directed
  | 0, _ => pure .continued
  | n + 1, words => do
    let (directed, later) ← (fill start (format.length + 1) format).run words
    match directed with
    | .continued =>
      if later.isEmpty || later.length == words.length then pure .continued
      else fillAll start format n later
    | other => pure other

/-- **Prints words in a format.** Complaints begin with the given text. -/
def printf (start : String) : Program := fun arguments => do
  match arguments with
  | [] => refuse 2 (start ++ "usage: printf format [arg ...]")
  | format :: words => do
    match ← fillAll start format.toList (words.length + 1) words with
    | .refused => finish 2
    | _ => pure ()

end Program

end GoPlanner

/-!
# Numerals

Whole numbers as they are written in programs: in base ten, with a leading zero in base
eight, and with the letter `x` behind it in base sixteen. Numbers are kept in 64 bits.

## Main definitions

* `Numeral.read`: the number at the beginning of a text.
* `Numeral.limited`, `Numeral.wrapped`: numbers in 64 bits.
-/

namespace GoPlanner

namespace Numeral

/-- A number as 64 bits keep it. -/
def wrapped (n : Int) : Int :=
  Int.bmod n (Nat.pow 2 64)

/-- The nearest number that 64 bits can hold. -/
def limited (n : Int) : Int :=
  max (-Int.pow 2 63) (min n (Int.pow 2 63 - 1))

/-- The value of a digit. -/
def digit? (c : Char) : Option Nat :=
  if c.isDigit then some (c.toNat - 48)
  else if 'a' ≤ c && c ≤ 'f' then some (c.toNat - 87)
  else if 'A' ≤ c && c ≤ 'F' then some (c.toNat - 55)
  else none

/-- Whether a character is a digit in a base. -/
def isDigitIn (base : Nat) (c : Char) : Bool :=
  match digit? c with
  | some d => d < base
  | none => false

/-- The number that digits in a base stand for. -/
def ofDigits (base : Nat) (digits : List Char) : Nat :=
  digits.foldl (fun n c => n * base + (digit? c).getD 0) 0

/-- The number in a base at the beginning of a text, with what follows it. -/
def readIn (base : Nat) (cs : List Char) : Option (Nat × List Char) :=
  let digits := cs.takeWhile (isDigitIn base)
  if digits.isEmpty then none else some (ofDigits base digits, cs.drop digits.length)

/-- **The number at the beginning of a text,** with what follows it. -/
def read (cs : List Char) : Option (Nat × List Char) :=
  match cs with
  | '0' :: 'x' :: rest => (readIn 16 rest).or (some (0, 'x' :: rest))
  | '0' :: 'X' :: rest => (readIn 16 rest).or (some (0, 'X' :: rest))
  | '0' :: _ => readIn 8 cs
  | _ => readIn 10 cs

/-- Blanks around numbers. -/
def isSpace (c : Char) : Bool :=
  c == ' ' || (9 ≤ c.toNat && c.toNat ≤ 13)

/-- The number with a sign at the beginning of a text, behind blanks, with what follows
it; the reader of numbers without a sign is given. -/
def readSigned (reader : List Char → Option (Nat × List Char)) (cs : List Char) :
    Option (Int × List Char) :=
  match cs.dropWhile isSpace with
  | '-' :: rest => (reader rest).map (fun r => (-(r.1 : Int), r.2))
  | '+' :: rest => (reader rest).map (fun r => ((r.1 : Int), r.2))
  | rest => (reader rest).map (fun r => ((r.1 : Int), r.2))

/-- **The number that a whole text stands for,** which may have a sign and blanks around
it. -/
def whole? (reader : List Char → Option (Nat × List Char)) (text : String) : Option Int :=
  match readSigned reader text.toList with
  | some (n, rest) => if rest.all isSpace then some (limited n) else none
  | none => none

end Numeral

end GoPlanner

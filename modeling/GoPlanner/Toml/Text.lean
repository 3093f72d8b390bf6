/-!
# Strings in TOML

There are four kinds of strings: between quotation marks, with escapes, and between
apostrophes, without; both on one line or, with three marks, on several. A line break in
a string is a line feed, whichever way it is written.

## Main definitions

* `Toml.isBlank`, `Toml.lineBreak?`: blanks and line breaks.
* `Toml.readBasic`, `Toml.readLongBasic`: strings with escapes.
* `Toml.readLiteral`, `Toml.readLongLiteral`: strings without.
* `Toml.readString`: a string of any kind.
-/

namespace GoPlanner

namespace Toml

/-- Blanks that do not end a line. -/
def isBlank (c : Char) : Bool :=
  c == ' ' || c == '\t'

/-- What follows a line break: a line feed, perhaps after a carriage return. -/
def lineBreak? : List Char → Option (List Char)
  | '\n' :: cs => some cs
  | '\r' :: '\n' :: cs => some cs
  | _ => none

/-- Characters that may stand on a line: no control characters but tabs. -/
def isPrintable (c : Char) : Bool :=
  c == '\t' || (32 ≤ c.toNat && c.toNat != 127)

/-- The number of a hexadecimal digit. -/
def hexValue? (c : Char) : Option Nat :=
  if c.isDigit then some (c.toNat - 48)
  else if 'a' ≤ c && c ≤ 'f' then some (c.toNat - 87)
  else if 'A' ≤ c && c ≤ 'F' then some (c.toNat - 55)
  else none

/-- The character of hexadecimal digits, if they are the number of one. -/
def unicode? (digits : List Char) : Option Char :=
  match digits.mapM hexValue? with
  | none => none
  | some values =>
    let n := values.foldl (fun n v => n * 16 + v) 0
    if n.isValidChar then some (Char.ofNat n) else none

/-- The character of a short escape. -/
def shortEscape? (c : Char) : Option Char :=
  if c = 'b' then some '\x08'
  else if c = 't' then some '\t'
  else if c = 'n' then some '\n'
  else if c = 'f' then some '\x0c'
  else if c = 'r' then some '\r'
  else if c = '\x22' then some '\x22'
  else if c = '\\' then some '\\'
  else none

/-- A character in front of a string that has been read. -/
def before (c : Option Char) (rest : Option (List Char × List Char)) :
    Option (List Char × List Char) :=
  c.bind (fun c => rest.map (fun r => (c :: r.1, r.2)))

/-- **A string with escapes,** behind its opening mark. -/
def readBasic : List Char → Option (List Char × List Char)
  | [] => none
  | '\x22' :: cs => some ([], cs)
  | '\\' :: 'u' :: a :: b :: c :: d :: cs => before (unicode? [a, b, c, d]) (readBasic cs)
  | '\\' :: 'U' :: a :: b :: c :: d :: e :: f :: g :: h :: cs =>
    before (unicode? [a, b, c, d, e, f, g, h]) (readBasic cs)
  | '\\' :: c :: cs => before (shortEscape? c) (readBasic cs)
  | c :: cs => if isPrintable c then before (some c) (readBasic cs) else none

/-- **A string with escapes on several lines,** behind its opening marks. While `skipping`,
blanks and line breaks are left out: that is what a reverse solidus at the end of a line
asks for. Up to two marks may stand in front of the closing ones. -/
def readLongBasic (skipping : Bool) : List Char → Option (List Char × List Char)
  | [] => none
  | '\x22' :: '\x22' :: '\x22' :: '\x22' :: '\x22' :: cs => some (['\x22', '\x22'], cs)
  | '\x22' :: '\x22' :: '\x22' :: '\x22' :: cs => some (['\x22'], cs)
  | '\x22' :: '\x22' :: '\x22' :: cs => some ([], cs)
  | '\r' :: '\n' :: cs =>
    if skipping then readLongBasic true cs else before (some '\n') (readLongBasic false cs)
  | '\n' :: cs =>
    if skipping then readLongBasic true cs else before (some '\n') (readLongBasic false cs)
  | '\\' :: 'u' :: a :: b :: c :: d :: cs =>
    before (unicode? [a, b, c, d]) (readLongBasic false cs)
  | '\\' :: 'U' :: a :: b :: c :: d :: e :: f :: g :: h :: cs =>
    before (unicode? [a, b, c, d, e, f, g, h]) (readLongBasic false cs)
  | '\\' :: c :: cs =>
    if (lineBreak? ((c :: cs).dropWhile isBlank)).isSome then readLongBasic true (c :: cs)
    else before (shortEscape? c) (readLongBasic false cs)
  | c :: cs =>
    if skipping && isBlank c then readLongBasic true cs
    else if isPrintable c then before (some c) (readLongBasic false cs)
    else none

/-- **A string without escapes,** behind its opening mark. -/
def readLiteral : List Char → Option (List Char × List Char)
  | [] => none
  | c :: cs =>
    if c = '\x27' then some ([], cs)
    else if isPrintable c then before (some c) (readLiteral cs)
    else none

/-- **A string without escapes on several lines,** behind its opening marks. -/
def readLongLiteral : List Char → Option (List Char × List Char)
  | [] => none
  | '\x27' :: '\x27' :: '\x27' :: '\x27' :: '\x27' :: cs => some (['\x27', '\x27'], cs)
  | '\x27' :: '\x27' :: '\x27' :: '\x27' :: cs => some (['\x27'], cs)
  | '\x27' :: '\x27' :: '\x27' :: cs => some ([], cs)
  | '\r' :: '\n' :: cs => before (some '\n') (readLongLiteral cs)
  | c :: cs =>
    if c = '\n' || isPrintable c then before (some c) (readLongLiteral cs) else none

/-- The text without a line break at its start. -/
def withoutLineBreak (cs : List Char) : List Char :=
  (lineBreak? cs).getD cs

/-- A string on one line, with its marks. -/
def readShortString : List Char → Option (List Char × List Char)
  | '\x22' :: cs => readBasic cs
  | '\x27' :: cs => readLiteral cs
  | _ => none

/-- **A string of any kind,** with its marks. A line break behind three opening marks does
not count. -/
def readString : List Char → Option (List Char × List Char)
  | '\x22' :: '\x22' :: '\x22' :: cs => readLongBasic false (withoutLineBreak cs)
  | '\x27' :: '\x27' :: '\x27' :: cs => readLongLiteral (withoutLineBreak cs)
  | cs => readShortString cs

end Toml

end GoPlanner

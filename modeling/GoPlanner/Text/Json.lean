/-!
# Lists of Strings as JSON

A plan is recorded as JSON: an array with one array of strings for every command. In a
string the quotation mark, the reverse solidus and control characters are escaped, with
the short form where there is one; all other characters stand for themselves.

## Main definitions

* `Json.quoted`: a string.
* `Json.array`: an array of strings on one line.
* `Json.indented`: an array of arrays of strings, one string a line.
-/

namespace GoPlanner

namespace Json

/-- The hexadecimal digit of a number below 16. -/
def hexDigit (n : Nat) : Char :=
  Char.ofNat (if n < 10 then 48 + n else 87 + n)

/-- **A character** inside a string. -/
def escaped (c : Char) : List Char :=
  if c = '\x22' then ['\\', '\x22']
  else if c = '\\' then ['\\', '\\']
  else if c = '\x08' then ['\\', 'b']
  else if c = '\t' then ['\\', 't']
  else if c = '\n' then ['\\', 'n']
  else if c = '\x0c' then ['\\', 'f']
  else if c = '\r' then ['\\', 'r']
  else if c.toNat < 32 then
    ['\\', 'u', '0', '0', hexDigit (c.toNat / 16), hexDigit (c.toNat % 16)]
  else [c]

/-- **A string** between quotation marks. -/
def quoted (s : String) : String :=
  String.ofList ('\x22' :: s.toList.flatMap escaped ++ ['\x22'])

/-- **An array of strings** on one line. -/
def array (strings : List String) : String :=
  "[" ++ ",".intercalate (strings.map quoted) ++ "]"

/-- An array whose entries stand on lines of their own behind some blanks; an empty array
stays on its line. -/
def lined (indent outer : String) (entries : List String) : String :=
  if entries.isEmpty then "[]"
  else "[\n" ++ ",\n".intercalate (entries.map (fun e => indent ++ e)) ++ "\n" ++ outer ++ "]"

/-- **An array of arrays of strings,** indented by four blanks for every array. -/
def indented (rows : List (List String)) : String :=
  lined "    " "" (rows.map (fun row => lined "        " "    " (row.map quoted)))

end Json

end GoPlanner

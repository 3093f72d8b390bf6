/-!
# Bytes as Text

A file holds text in UTF-8, or bytes that are no such text. Source files are read all the
same: every maximal run of bytes that starts a character but does not complete one, and
every byte that starts none, is read as one replacement character.

## Main definitions

* `Content`: what a file holds.
* `Content.ofBytes`: the content of given bytes.
* `Text.replacing`: bytes read with replacement characters.
* `Content.text?` and `Content.readable`: the strict and the lenient reading.
-/

namespace GoPlanner

/-- **What a file holds.** -/
inductive Content where
  /-- Text in UTF-8. -/
  | text (s : String)
  /-- Bytes that are no text. -/
  | binary (bytes : List UInt8)
deriving DecidableEq, Inhabited

namespace Text

/-- The replacement character. -/
def replacement : Char := '\uFFFD'

/-- Whether a byte continues a character. -/
def continues (b : UInt8) : Bool :=
  0x80 ≤ b && b ≤ 0xBF

/-- Whether a byte may follow the first byte of a character of three or four bytes. -/
def mayFollow (first second : UInt8) : Bool :=
  if first = 0xE0 then 0xA0 ≤ second && second ≤ 0xBF
  else if first = 0xED then 0x80 ≤ second && second ≤ 0x9F
  else if first = 0xF0 then 0x90 ≤ second && second ≤ 0xBF
  else if first = 0xF4 then 0x80 ≤ second && second ≤ 0x8F
  else continues second

/-- The character of a first byte, whose marker bits are removed, and continuing bytes. -/
def combined (first : Nat) (more : List UInt8) : Char :=
  Char.ofNat (more.foldl (fun n b => n * 64 + (b.toNat - 0x80)) first)

/-- **Bytes read with replacement characters.** -/
def replacing : List UInt8 → List Char
  | [] => []
  | a :: r =>
    if a < 0x80 then Char.ofNat a.toNat :: replacing r
    else if a < 0xC2 || 0xF4 < a then replacement :: replacing r
    else
      match r with
      | [] => [replacement]
      | b :: r' =>
        if a < 0xE0 then
          if continues b then combined (a.toNat - 0xC0) [b] :: replacing r'
          else replacement :: replacing (b :: r')
        else if !mayFollow a b then replacement :: replacing (b :: r')
        else
          match r' with
          | [] => [replacement]
          | c :: r'' =>
            if !continues c then replacement :: replacing (c :: r'')
            else if a < 0xF0 then combined (a.toNat - 0xE0) [b, c] :: replacing r''
            else
              match r'' with
              | [] => [replacement]
              | d :: r''' =>
                if continues d then combined (a.toNat - 0xF0) [b, c, d] :: replacing r'''
                else replacement :: replacing (d :: r''')
termination_by bytes => bytes.length
decreasing_by all_goals simp only [List.length_cons]; omega

/-- The bytes of a text in UTF-8. -/
def bytes (s : String) : List UInt8 :=
  s.toList.flatMap String.utf8EncodeChar

end Text

namespace Content

/-- The content of a file with the given bytes. -/
def ofBytes (bytes : List UInt8) : Content :=
  match String.fromUTF8? bytes.toByteArray with
  | some s => text s
  | none => binary bytes

/-- The bytes of a file. -/
def toBytes : Content → List UInt8
  | text s => Text.bytes s
  | binary bytes => bytes

/-- **The strict reading:** only text is read. -/
def text? : Content → Option String
  | text s => some s
  | binary _ => none

/-- **The lenient reading:** bytes that are no text are replaced. -/
def readable : Content → String
  | text s => s
  | binary bytes => String.ofList (Text.replacing bytes)

/-- The content with another content after it. -/
def append : Content → Content → Content
  | text s, text s' => text (s ++ s')
  | c, c' => ofBytes (c.toBytes ++ c'.toBytes)

end Content

end GoPlanner

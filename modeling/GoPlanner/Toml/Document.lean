import GoPlanner.Toml.Number

/-!
# Reading TOML Documents

A document is read line by line; strings, arrays and comments inside arrays may go over
several lines. Every key line is added to the table of the last header. A document is
refused as a whole if any line of it cannot be read or may not stand where it does.

## Main definitions

* `Toml.readKey`: a key, which may be dotted.
* `Toml.readValue`: a value.
* `Toml.Reading`: what has been read of a document.
* `Toml.ofText?`: the table of a document.
-/

namespace GoPlanner

namespace Toml

/-- How deep values may be nested, and how many parts a key may have. -/
def maxDepth : Nat :=
  79

/-! ### Blanks and comments -/

/-- The text behind blanks. -/
def skipBlanks (cs : List Char) : List Char :=
  cs.dropWhile isBlank

/-- The text behind a comment, if there is one; the line break is left. -/
def skipComment : List Char → List Char
  | '#' :: cs => cs.dropWhile isPrintable
  | cs => cs

/-- The text behind the rest of a line, on which only blanks and a comment may stand. -/
def readLineEnd (cs : List Char) : Option (List Char) :=
  match skipComment (skipBlanks cs) with
  | [] => some []
  | cs => lineBreak? cs

/-- The text behind blanks, line breaks and comments that end with their lines. -/
def skipLines (cs : List Char) : List Char :=
  let rest := skipBlanks cs
  match lineBreak? (skipComment rest) with
  | some later => if later.length < cs.length then skipLines later else rest
  | none => rest
termination_by cs.length

/-! ### Keys -/

/-- Characters of keys without marks. -/
def isKeyChar (c : Char) : Bool :=
  c.isAlphanum || c == '-' || c == '_'

/-- One part of a key. -/
def readKeyPart (cs : List Char) : Option (String × List Char) :=
  match readShortString cs with
  | some r => some (String.ofList r.1, r.2)
  | none =>
    if (cs.takeWhile isKeyChar).isEmpty then none
    else some (String.ofList (cs.takeWhile isKeyChar), cs.dropWhile isKeyChar)

/-- The parts of a key between dots, with the blanks around them. -/
def readKeyParts (cs : List Char) : Option (List String × List Char) :=
  match readKeyPart (skipBlanks cs) with
  | none => none
  | some (part, rest) =>
    match skipBlanks rest with
    | '.' :: later =>
      if later.length < cs.length then
        (readKeyParts later).map (fun r => (part :: r.1, r.2))
      else none
    | later => some ([part], later)
termination_by cs.length

/-- **A key:** the parts that lead to the last one, and the last one. -/
def readKey (cs : List Char) : Option (List String × String × List Char) :=
  match readKeyParts cs with
  | none => none
  | some (parts, rest) =>
    if maxDepth < parts.length then none
    else parts.getLast?.map (fun last => (parts.dropLast, last, rest))

/-! ### Values -/

/-- How a value is read. -/
abbrev ValueReader : Type :=
  List Char → Option (Toml × List Char)

/-- The items of an array with the bracket that closes it. A comma may stand behind the
last item. -/
def readItems (readItem : ValueReader) (items : List Toml) (cs : List Char) :
    Option (Toml × List Char) :=
  match skipLines cs with
  | ']' :: rest => some (.array items, rest)
  | rest =>
    match readItem rest with
    | none => none
    | some (item, rest) =>
      match skipLines rest with
      | ']' :: rest => some (.array (items ++ [item]), rest)
      | ',' :: rest =>
        if rest.length < cs.length then readItems readItem (items ++ [item]) rest else none
      | _ => none
termination_by cs.length

/-- A key with its value. -/
def readPair? (readItem : ValueReader) (cs : List Char) :
    Option ((List String × String × Toml) × List Char) :=
  match readKey cs with
  | some (path, key, '=' :: rest) =>
    (readItem (skipBlanks rest)).map (fun r => ((path, key, r.1), r.2))
  | _ => none

/-- The entries of a table between braces with the brace that closes it. They stand on one
line, and no comma stands behind the last one. -/
def readEntries (readItem : ValueReader) (entries : Entries) (cs : List Char) :
    Option (Toml × List Char) :=
  match readPair? readItem cs with
  | none => none
  | some ((path, key, value), rest) =>
    match assignInline path key value .defined entries, skipBlanks rest with
    | some entries, '}' :: rest => some (.inline .defined entries, rest)
    | some entries, ',' :: rest =>
      if rest.length < cs.length then readEntries readItem entries rest else none
    | _, _ => none
termination_by cs.length

/-- A table behind its opening brace. -/
def readInline (readItem : ValueReader) (cs : List Char) : Option (Toml × List Char) :=
  match skipBlanks cs with
  | '}' :: rest => some (.inline .defined [], rest)
  | rest => readEntries readItem [] rest

/-- **A value,** in which arrays and tables may be nested to some depth. -/
def readValue : Nat → ValueReader
  | depth, cs =>
    match cs with
    | '[' :: rest =>
      match depth with
      | 0 => none
      | d + 1 => readItems (readValue d) [] rest
    | '\x7b' :: rest =>
      match depth with
      | 0 => none
      | d + 1 => readInline (readValue d) rest
    | 't' :: 'r' :: 'u' :: 'e' :: rest => some (.boolean true, rest)
    | 'f' :: 'a' :: 'l' :: 's' :: 'e' :: rest => some (.boolean false, rest)
    | cs =>
      match readString cs with
      | some r => some (.text (String.ofList r.1), r.2)
      | none => readNumber cs

/-! ### Lines -/

/-- **What has been read of a document:** its table, and the header of the table that key
lines add to. -/
structure Reading where
  /-- The table of the document. -/
  root : Entries := []
  /-- The last header. -/
  header : List String := []
deriving Inhabited

namespace Reading

/-- Adds a key with its value to the table of the last header. -/
def addKey (r : Reading) (path : List String) (key : String) (value : Toml) :
    Option Reading :=
  (within false (assign path key value) r.header .defined r.root).map
    (fun root => { r with root := root })

/-- Goes on to the table of another header. -/
def addHeader (r : Reading) (path : List String) (key : String) (opened : Change) :
    Option Reading :=
  (within false opened path .defined r.root).map (fun root => ⟨root, path ++ [key]⟩)

end Reading

/-- Reads a header behind its first bracket. -/
def readHeader (r : Reading) : List Char → Option (Reading × List Char)
  | '[' :: cs =>
    match readKey cs with
    | some (path, key, ']' :: ']' :: rest) =>
      (r.addHeader path key (openElement key)).map (fun r => (r, rest))
    | _ => none
  | cs =>
    match readKey cs with
    | some (path, key, ']' :: rest) =>
      (r.addHeader path key (openTable key)).map (fun r => (r, rest))
    | _ => none

/-- Reads what stands on a line, up to the comment. -/
def readLine (r : Reading) (cs : List Char) : Option (Reading × List Char) :=
  match cs with
  | [] => some (r, [])
  | '[' :: rest => readHeader r rest
  | c :: _ =>
    if c = '#' || c = '\n' || c = '\r' then some (r, cs)
    else
      match readPair? (readValue maxDepth) cs with
      | some ((path, key, value), rest) => (r.addKey path key value).map (fun r => (r, rest))
      | none => none

/-- Reads the lines of a document. -/
def readLines (r : Reading) (cs : List Char) : Option Reading :=
  if cs.isEmpty then some r
  else
    match readLine r (skipBlanks cs) with
    | none => none
    | some (r, rest) =>
      match readLineEnd rest with
      | some later => if later.length < cs.length then readLines r later else none
      | none => none
termination_by cs.length

/-- **The table of a document.** A byte order mark in front of it does not count. -/
def ofText? (text : String) : Option Entries :=
  let cs := match text.toList with
    | '\uFEFF' :: cs => cs
    | cs => cs
  (readLines {} cs).map (·.root)

end Toml

end GoPlanner

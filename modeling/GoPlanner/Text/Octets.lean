import GoPlanner.Text.Utf8

/-!
# Octets

Some programs know no characters, only bytes. Their texts are written here as strings in
which every byte stands as the character of its number, so that lengths, cuts and
comparisons come out as these programs see them.

## Main definitions

* `Octets.ofText`, `Octets.ofContent`: texts and contents as octets.
* `Octets.toContent`, `Octets.toText`: the way back.
-/

namespace GoPlanner

namespace Octets

/-- Bytes as the characters of their numbers. -/
def ofBytes (bytes : List UInt8) : String :=
  String.ofList (bytes.map (fun b => Char.ofNat b.toNat))

/-- The bytes that the characters of a string are the numbers of. -/
def toBytes (octets : String) : List UInt8 :=
  octets.toList.map (fun c => UInt8.ofNat c.toNat)

/-- **A text** as octets. -/
def ofText (text : String) : String :=
  ofBytes (Text.bytes text)

/-- **The content of a file** as octets. -/
def ofContent (c : Content) : String :=
  ofBytes c.toBytes

/-- **Octets as the content** of a file. -/
def toContent (octets : String) : Content :=
  .ofBytes (toBytes octets)

/-- **Octets as a text,** in which bytes that are no text are replaced. -/
def toText (octets : String) : String :=
  (toContent octets).readable

end Octets

end GoPlanner

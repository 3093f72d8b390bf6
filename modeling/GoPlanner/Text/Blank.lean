/-!
# Blank Characters, Words, and Lines

Text is handled as a list of characters. This module fixes which characters count as
blank, and the three ways in which a text is cut up by them: trimming at the ends,
splitting into words, and splitting into lines.

## Main definitions

* `isBlank`: the white space characters of Unicode.
* `Text.trim`: a text without the blanks at its ends.
* `Text.words`: the maximal runs of characters that are not blank.
* `Text.lines`: the lines of a text; a line ends at a line feed, which a carriage
  return may precede, and the last line need not be ended.
-/

namespace GoPlanner

/-- **Blank characters.** The characters that have the Unicode property `White_Space`. -/
def isBlank (c : Char) : Bool :=
  let n := c.toNat
  (9 ≤ n && n ≤ 13) || n == 0x20 || n == 0x85 || n == 0xA0 || n == 0x1680 ||
    (0x2000 ≤ n && n ≤ 0x200A) || n == 0x2028 || n == 0x2029 || n == 0x202F ||
    n == 0x205F || n == 0x3000

namespace Text

/-- The text without its leading blanks. -/
def trimStart (cs : List Char) : List Char :=
  cs.dropWhile isBlank

/-- The text without its trailing blanks. -/
def trimEnd (cs : List Char) : List Char :=
  (cs.reverse.dropWhile isBlank).reverse

/-- The text without the blanks at either end. -/
def trim (cs : List Char) : List Char :=
  trimEnd (trimStart cs)

/-- **Words.** The maximal runs of characters that are not blank, in order. -/
def words (cs : List Char) : List (List Char) :=
  (cs.splitOnP isBlank).filter (fun w => !w.isEmpty)

/-- A line without the carriage return that stands before its line feed. -/
def dropReturn (line : List Char) : List Char :=
  if line.getLast? = some '\r' then line.dropLast else line

/-- **Lines.** Every piece that a line feed ends is a line, less one carriage return
before that line feed; what follows the last line feed is a line if it is not empty. -/
def lines (cs : List Char) : List (List Char) :=
  let pieces := cs.splitOn '\n'
  pieces.dropLast.map dropReturn ++ (pieces.getLast?.toList.filter (fun l => !l.isEmpty))

/-- The text without its first character if that is a byte order mark. -/
def dropByteOrderMark : List Char → List Char
  | c :: cs => if c = '\uFEFF' then cs else c :: cs
  | [] => []

end Text

/-- The text without the blanks at either end, on strings. -/
def trimmed (s : String) : String :=
  String.ofList (Text.trim s.toList)

/-- Whether a string starts with the given text. -/
def startsWith (start s : String) : Bool :=
  start.toList.isPrefixOf s.toList

/-- Whether a string ends with the given text. -/
def endsWith (stop s : String) : Bool :=
  stop.toList.isSuffixOf s.toList

/-- The pieces of a string between the occurrences of a character. -/
def pieces (separator : Char) (s : String) : List String :=
  (s.toList.splitOn separator).map String.ofList

/-- What follows the last occurrence of a character, or the whole string without one. -/
def lastPiece (separator : Char) (s : String) : String :=
  (pieces separator s).getLast?.getD s

end GoPlanner

/-!
# Shell Scripts

The program that runs the commands of a plan may be a shell script. A script is a list of
commands: simple ones, which consist of words and redirections, and compound ones. Words
are kept in pieces, because what a piece stands for is found out only when the command is
run.

## Main definitions

* `Shell.Change`: what is asked of the value of a parameter.
* `Shell.Piece`, `Shell.Word`: words before expansion.
* `Shell.Redirection`: where the channels of a command lead.
* `Shell.Command`: commands.
-/

namespace GoPlanner

namespace Shell

/-- **What is asked of the value of a parameter.** A test for a missing value may count
the empty value as missing. -/
inductive Change where
  /-- The value itself. -/
  | none
  /-- Its length. -/
  | length
  /-- Another text if the value is missing. -/
  | fallback (countsEmpty : Bool)
  /-- The same, and the parameter gets that text as its value. -/
  | assignment (countsEmpty : Bool)
  /-- A complaint if the value is missing. -/
  | demand (countsEmpty : Bool)
  /-- Another text unless the value is missing. -/
  | alternative (countsEmpty : Bool)
  /-- The value without what fits a pattern at its beginning. -/
  | withoutStart (isLongest : Bool)
  /-- The value without what fits a pattern at its end. -/
  | withoutEnd (isLongest : Bool)
  /-- Something that cannot be done. -/
  | unknown
deriving DecidableEq, Inhabited

/-- **How a file is opened** for a channel. -/
inductive Opening where
  /-- For reading. -/
  | reading
  /-- For writing; what it held is gone. -/
  | writing
  /-- The same, even if files are to be kept from that. -/
  | overwriting
  /-- For writing at its end. -/
  | appending
  /-- For reading and writing. -/
  | both
deriving DecidableEq, Inhabited

mutual

/-- **A piece of a word.** What stands in quotes is not divided on expansion. -/
inductive Piece where
  /-- A character that stands for itself. -/
  | character (c : Char) (isQuoted : Bool)
  /-- A quotation mark: there is a word here, even if it is empty. -/
  | quotes
  /-- The value of a parameter, with what is asked of it and the text that goes with
  that. -/
  | parameter (name : String) (change : Change) (word : List Piece) (isQuoted : Bool)
  /-- The output of a command. -/
  | substitution (command : Command) (isQuoted : Bool)
  /-- The value of an expression. -/
  | arithmetic (expression : List Piece) (isQuoted : Bool)

/-- **A redirection** of a channel. -/
inductive Redirection where
  /-- It leads to a file. -/
  | file (channel : Nat) (opening : Opening) (name : List Piece)
  /-- It leads to where another channel leads, or is closed. -/
  | channel (channel : Nat) (other : List Piece)
  /-- It gives the document of a number. -/
  | document (channel number : Nat)

/-- **Commands.** -/
inductive Command where
  /-- Nothing. -/
  | skip
  /-- A simple command on a line. -/
  | simple (line : Nat) (assignments : List (String × List Piece)) (words : List (List Piece))
      (redirections : List Redirection)
  /-- Commands of which each one reads what the one in front of it writes. -/
  | pipeline (stages : List Command)
  /-- A command that is not waited for. -/
  | background (inner : Command)
  /-- A command whose success is failure. -/
  | negated (inner : Command)
  /-- The second command is run if the first one succeeds. -/
  | both (first second : Command)
  /-- The second command is run if the first one fails. -/
  | either (first second : Command)
  /-- One command after the other. -/
  | sequence (first second : Command)
  /-- A condition. -/
  | condition (test success failure : Command)
  /-- A loop that goes on as long as a test succeeds or, if negated, fails. -/
  | repeated (isNegated : Bool) (test body : Command)
  /-- A loop over words. -/
  | loop (line : Nat) (name : String) (words : List (List Piece)) (body : Command)
  /-- A choice by patterns for a word. -/
  | choice (line : Nat) (word : List Piece) (arms : List (List (List Piece) × Command))
  /-- A command that keeps its changes to itself. -/
  | subshell (line : Nat) (inner : Command) (redirections : List Redirection)
  /-- A command with redirections. -/
  | redirected (line : Nat) (inner : Command) (redirections : List Redirection)
  /-- The definition of a function. -/
  | definition (line : Nat) (name : String) (body : Command)

end

/-- **A word** before expansion. -/
abbrev Word : Type :=
  List Piece

instance : Inhabited Piece := ⟨.quotes⟩

instance : Inhabited Command := ⟨.skip⟩

instance : Inhabited Redirection := ⟨.document 0 0⟩

/-! ### Names -/

/-- Characters that a name may begin with. -/
def isNameStart (c : Char) : Bool :=
  c.isAlpha || c == '_'

/-- Characters of names. -/
def isNameChar (c : Char) : Bool :=
  c.isAlphanum || c == '_'

/-- Whether a text is a name. -/
def isName (text : String) : Bool :=
  match text.toList with
  | [] => false
  | c :: cs => isNameStart c && cs.all isNameChar

/-- The text of a word in which nothing is quoted or expanded. -/
def plain? (w : Word) : Option String :=
  (w.mapM (fun
    | Piece.character c false => some c
    | _ => none)).map String.ofList

/-- **The assignment** that a word stands for: a name, and the word behind the sign. -/
def assignment? (w : Word) : Option (String × Word) :=
  let name := w.takeWhile (fun
    | Piece.character c false => isNameChar c
    | _ => false)
  match w.drop name.length, plain? name with
  | .character '=' false :: value, some text => if isName text then some (text, value) else none
  | _, _ => none

end Shell

end GoPlanner

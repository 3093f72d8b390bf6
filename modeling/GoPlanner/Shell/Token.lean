import GoPlanner.Shell.Basic

/-!
# Tokens of Shell Scripts

A script is read from its beginning to its end, one token after the other. How far the
reading has come is a value, which also holds what the tokens that were read have left to
do: the documents that begin behind the end of the line, and the words that aliases stand
for.

## Main definitions

* `Shell.Token`: tokens.
* `Shell.SyntaxFault`: why a script cannot be read.
* `Shell.Reader`: how far the reading of a script has come.
* `Shell.Reading`: computations that read on.
-/

namespace GoPlanner

namespace Shell

/-! ### Tokens -/

/-- **Tokens.** -/
inductive Token where
  /-- The end of the script. -/
  | scriptEnd
  /-- The end of a line. -/
  | lineEnd
  /-- An operator between commands. -/
  | operator (text : String)
  /-- An operator that redirects a channel. -/
  | redirection (channel : Option Nat) (text : String)
  /-- A word; it matters whether something in it is quoted. -/
  | word (pieces : Word) (isQuoted : Bool)
  /-- A word that has a meaning of its own at the beginning of a command. -/
  | reserved (word : String)
deriving Inhabited

namespace Token

/-- The name of a token in a complaint. -/
def name : Token → String
  | scriptEnd => "end of file"
  | lineEnd => "newline"
  | operator text => "\x22" ++ text ++ "\x22"
  | redirection _ _ => "redirection"
  | word _ _ => "word"
  | reserved text => "\x22" ++ text ++ "\x22"

/-- Whether a token is the given operator. -/
def isOperator (text : String) : Token → Bool
  | operator t => t == text
  | _ => false

/-- Whether a token is the given reserved word. -/
def isReserved (text : String) : Token → Bool
  | reserved t => t == text
  | _ => false

/-- Whether a token ends a list of commands. -/
def endsList : Token → Bool
  | scriptEnd => true
  | operator text => [")", ";;"].contains text
  | reserved text => ["do", "done", "elif", "else", "esac", "fi", "then", "\x7d"].contains text
  | _ => false

end Token

/-- The words that have a meaning of their own at the beginning of a command. -/
def reservedWords : List String :=
  ["!", "case", "do", "done", "elif", "else", "esac", "fi", "for", "if", "in", "then", "until",
    "while", "\x7b", "\x7d"]

/-! ### Readers -/

/-- **Why a script cannot be read,** with the line on which that is found. -/
structure SyntaxFault where
  /-- The line. -/
  line : Nat
  /-- What is wrong. -/
  text : String
deriving DecidableEq, Inhabited

/-- A document that begins behind the end of the line. -/
structure Awaited where
  /-- Its number. -/
  number : Nat
  /-- The line behind its end. -/
  mark : String
  /-- Whether nothing in it is expanded. -/
  isQuoted : Bool
  /-- Whether tabs at the beginning of its lines do not count. -/
  dropsTabs : Bool
deriving DecidableEq, Inhabited

/-- **How far the reading of a script has come.** -/
structure Reader where
  /-- What is left of the script. -/
  rest : List Char
  /-- The line that the reading is on. -/
  line : Nat := 1
  /-- A token that was read ahead. -/
  ahead : Option Token := none
  /-- The documents that begin behind the end of the line. -/
  awaited : List Awaited := []
  /-- The documents that were read, by their numbers. -/
  documents : List (Nat × Word) := []
  /-- The number of the next document. -/
  nextDocument : Nat := 0
  /-- The texts that words stand for. -/
  aliases : List (String × String) := []
  /-- The words whose texts are being read, with what is left of the script behind them. -/
  opened : List (String × Nat) := []
deriving Inhabited

/-- **Computations that read on.** -/
abbrev Reading (α : Type) : Type :=
  StateT Reader (Except SyntaxFault) α

namespace Reading

/-- The script cannot be read. -/
def refuse {α : Type} (text : String) : Reading α := do
  throw ⟨(← get).line, text⟩

/-- A token is not what should be here. -/
def unexpected {α : Type} (found : Token) (wanted : Option Token) : Reading α :=
  refuse (found.name ++ " unexpected" ++
    (match wanted with
      | some token => " (expecting " ++ token.name ++ ")"
      | none => ""))

/-- The next character, which is not used up. -/
def peek : Reading (Option Char) := do
  pure (← get).rest.head?

/-- Uses up one character. -/
def skip : Reading Unit :=
  modify (fun r => match r.rest with
    | '\n' :: cs => { r with rest := cs, line := r.line + 1 }
    | _ :: cs => { r with rest := cs }
    | [] => r)

/-- The text without line breaks that a reverse solidus takes back, and their number. -/
def joined : List Char → List Char × Nat
  | '\\' :: '\n' :: cs =>
    let later := joined cs
    (later.1, later.2 + 1)
  | cs => (cs, 0)

/-- The next character behind line breaks that are taken back. -/
def peekJoined : Reading (Option Char) := do
  modify (fun r =>
    let (rest, breaks) := joined r.rest
    { r with rest := rest, line := r.line + breaks })
  peek

/-- Uses up characters of a kind behind line breaks that are taken back, as many as there
are and at most a number. -/
def takeJoined (p : Char → Bool) : Nat → Reading String
  | 0 => pure ""
  | n + 1 => do
    match ← peekJoined with
    | some c =>
      if p c then do
        skip
        pure (String.singleton c ++ (← takeJoined p n))
      else pure ""
    | none => pure ""

/-- Puts a token back, which will be the next one. -/
def putBack (token : Token) : Reading Unit :=
  modify (fun r => { r with ahead := some token })

/-- The number of a new document. -/
def newDocument (mark : String) (isQuoted dropsTabs : Bool) : Reading Nat := do
  let n := (← get).nextDocument
  modify (fun r => { r with
    nextDocument := n + 1
    awaited := r.awaited ++ [⟨n, mark, isQuoted, dropsTabs⟩] })
  pure n

/-- How many characters are left. -/
def remaining : Reading Nat := do
  pure (← get).rest.length

end Reading

end Shell

end GoPlanner

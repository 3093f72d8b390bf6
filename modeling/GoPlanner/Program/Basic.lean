import GoPlanner.FileTree.Write
import GoPlanner.Text.Octets

/-!
# Small Programs

The programs that scripts call change files, read their input, and print. All texts are
octets. Output and complaints come in the order in which they are made, unless a program
holds its output back until it ends.

## Main definitions

* `Program.Scene`: what a program sees and changes.
* `Program.Doing`: computations of programs.
* `Program`: programs.
* `Program.say`, `Program.complain`: what programs print.
* `Program.quoted`, `Program.quotedIfNeeded`: names in complaints.
-/

namespace GoPlanner

namespace Program

/-- **What a program sees and changes.** -/
structure Scene where
  /-- The name of the program. -/
  name : String := ""
  /-- The name by which it was called. -/
  called : String := ""
  /-- The files. -/
  tree : FileTree
  /-- The variables that it sees. -/
  environment : List (String × String) := []
  /-- What is left of the input. -/
  input : String := ""
  /-- Whether the input is a file, of which what is left can be given back. -/
  isFile : Bool := false
  /-- Whether something was taken from the input. -/
  readsInput : Bool := false
  /-- Whether output is held back behind complaints. -/
  holdsBack : Bool := false
  /-- The output that is held back, or that was made since the last complaint. -/
  held : String := ""
  /-- What was printed, in order; complaints are marked. -/
  printed : List (Bool × String) := []
  /-- The status; zero means that all went well. -/
  status : Nat := 0
deriving Inhabited

/-- **Computations of programs.** -/
abbrev Doing (α : Type) : Type :=
  StateM Scene α

end Program

/-- **A program** does something with its arguments. -/
abbrev Program : Type :=
  List String → Program.Doing Unit

namespace Program

/-- What a program printed by its end, in order; complaints are marked. -/
def Scene.all (s : Scene) : List (Bool × String) :=
  s.printed ++ [(false, s.held)]

/-! ### Printing -/

/-- **Prints** a text. -/
def say (text : String) : Doing Unit :=
  modify (fun s => { s with held := s.held ++ text })

/-- Output is held back from now on. -/
def holdBack : Doing Unit :=
  modify (fun s => { s with holdsBack := true })

/-- A complaint in which the program goes by the name by which it was called. -/
def Scene.named (s : Scene) (text : String) : String :=
  if s.name != "" && startsWith (s.name ++ ": ") text then
    s.called ++ String.ofList (text.toList.drop s.name.length)
  else text

/-- **Complains.** The text begins with the name of the program. -/
def complain (text : String) : Doing Unit :=
  modify (fun s =>
    let text := s.named text
    if s.holdsBack then { s with printed := s.printed ++ [(true, text ++ "\n")] }
    else { s with printed := s.printed ++ [(false, s.held), (true, text ++ "\n")], held := "" })

/-- The program has a status. -/
def finish (status : Nat) : Doing Unit :=
  modify (fun s => { s with status := status })

/-- The status is at least a number. -/
def atLeast (status : Nat) : Doing Unit :=
  modify (fun s => { s with status := max s.status status })

/-- Complains, with a status. -/
def refuse (status : Nat) (text : String) : Doing Unit := do
  complain text
  finish status

/-- Tells where there is help about a program. -/
def referToHelp (status : Nat) (name : String) : Doing Unit := do
  let s ← get
  let name := if name = s.name then s.called else name
  refuse status ("Try \x27" ++ name ++ " --help\x27 for more information.")

/-- The reason for a fault, in words. -/
def reasonOf : Fault → String
  | .system n => systemText n
  | other => other.message

/-! ### Names in complaints -/

/-- Characters that are no part of plain text. -/
def isOdd (c : Char) : Bool :=
  c.toNat < 32 || 126 < c.toNat

/-- A character as an escape. -/
def escape (c : Char) : String :=
  match c with
  | '\n' => "\\n"
  | '\t' => "\\t"
  | '\r' => "\\r"
  | _ =>
    let n := c.toNat
    String.ofList ['\\', Char.ofNat (48 + n / 64), Char.ofNat (48 + n / 8 % 8),
      Char.ofNat (48 + n % 8)]

/-- A text between apostrophes, in which odd characters are written as escapes between
apostrophes of their own. -/
def apostrophed (isEscaping : Bool) : List Char → String
  | [] => if isEscaping then "\x27" else "\x27"
  | c :: cs =>
    if isOdd c then
      (if isEscaping then "" else "\x27$\x27") ++ escape c ++ apostrophed true cs
    else
      (if isEscaping then "\x27\x27" else "") ++
        (if c = '\x27' then "\x27\\\x27\x27" else String.singleton c) ++ apostrophed false cs

/-- **A name in quotes.** -/
def quoted (name : String) : String :=
  let cs := name.toList
  let isUnsafe (c : Char) : Bool := isOdd c || ['\x22', '$', '\x60', '\\', '!'].contains c
  if cs.contains '\x27' && !cs.any isUnsafe then "\x22" ++ name ++ "\x22"
  else "\x27" ++ apostrophed false cs

/-- Characters that have a meaning for shells. -/
def isMeant (c : Char) : Bool :=
  [' ', '!', '\x22', '$', '&', '\x27', '(', ')', '*', ';', '<', '=', '>', '?', '[', '\\', '^',
    '\x60', '|', ':'].contains c

/-- A name, which is in quotes only if shells would not take it as it is. -/
def quotedIfNeeded (name : String) : String :=
  let cs := name.toList
  if cs.isEmpty || cs.any (fun c => isOdd c || isMeant c) || cs.head? = some '#' ||
      cs.head? = some '~' || name = "\x7b" || name = "\x7d" then quoted name
  else name

/-- Complains about a file, with the reason for it. -/
def complainOf (program name : String) (fault : Fault) : Doing Unit := do
  complain (program ++ ": " ++ quotedIfNeeded name ++ ": " ++ reasonOf fault)
  atLeast 1

/-! ### Files -/

/-- The path that octets name. -/
def pathOf (octets : String) : Path :=
  ⟨Octets.toText octets⟩

/-- The files as they are. -/
def files : Doing FileTree := do
  pure (← get).tree

/-- Changes the files, or tells why that cannot be done. -/
def change (f : FileTree → Except Fault FileTree) : Doing (Option Fault) := do
  match f (← files) with
  | .ok t => do
    modify (fun s => { s with tree := t })
    pure none
  | .error fault => pure (some fault)

/-- All of the input. -/
def takeInput : Doing String := do
  let text := (← get).input
  modify (fun s => { s with input := "", readsInput := true })
  pure text

/-- Gives back what is not needed of the input. -/
def giveBack (text : String) : Doing Unit :=
  modify (fun s => if s.isFile then { s with input := text } else s)

/-- The content of a file, or of the input if the name is a hyphen. -/
def contentOf (name : String) : Doing (Except Fault String) := do
  if name = "-" || name = "/dev/stdin" then pure (.ok (← takeInput))
  else if name = "/dev/null" then pure (.ok "")
  else pure (((← files).content (pathOf name)).map Octets.ofContent)

/-- **Does something with the contents of files,** one after the other, and complains
about those that cannot be read. Without names the input is read. -/
def eachFile (complaint : String → String) (names : List String)
    (act : String → String → Doing Unit) : Doing Unit :=
  (if names.isEmpty then ["-"] else names).forM (fun name => do
    match ← contentOf name with
    | .ok text => act name text
    | .error fault => do
      complain (complaint name ++ ": " ++ reasonOf fault)
      atLeast 1)

/-- The contents of files that can be read, one behind the other. -/
def allOf (complaint : String → String) (names : List String) : Doing String := do
  let texts ← (if names.isEmpty then ["-"] else names).mapM (fun name => do
    match ← contentOf name with
    | .ok text => pure text
    | .error fault => do
      complain (complaint name ++ ": " ++ reasonOf fault)
      atLeast 1
      pure "")
  pure (String.join texts)

/-! ### Lines -/

/-- The lines of a text, each with its end if it has one. -/
def linesWithEnds (text : String) : List String :=
  let lines := text.toList.splitOn '\n'
  let ended := lines.dropLast.map (fun l => String.ofList (l ++ ['\n']))
  match lines.getLast? with
  | some (c :: cs) => ended ++ [String.ofList (c :: cs)]
  | _ => ended

/-- A line without its end. -/
def withoutEnd (line : String) : String :=
  if endsWith "\n" line then String.ofList line.toList.dropLast else line

/-- The lines of a text, without their ends. -/
def linesOf (text : String) : List String :=
  (linesWithEnds text).map withoutEnd

/-- Lines with their ends. -/
def ended (lines : List String) : String :=
  String.join (lines.map (· ++ "\n"))

/-! ### Numbers -/

/-- A text with a character in front of it, up to a length. -/
def padded (c : Char) (length : Nat) (text : String) : String :=
  String.ofList (List.replicate (length - text.length) c) ++ text

/-- A text with a character behind it, up to a length. -/
def paddedBehind (c : Char) (length : Nat) (text : String) : String :=
  text ++ String.ofList (List.replicate (length - text.length) c)

/-- The number that decimal digits stand for. -/
def decimal? (text : String) : Option Nat :=
  let cs := text.toList
  if cs.isEmpty || !cs.all Char.isDigit then none
  else some (cs.foldl (fun n c => n * 10 + (c.toNat - 48)) 0)

/-- The number that decimal digits with a sign stand for. -/
def signed? (text : String) : Option Int :=
  match text.toList with
  | '-' :: cs => (decimal? (String.ofList cs)).map (fun n => -(n : Int))
  | '+' :: cs => (decimal? (String.ofList cs)).map (fun n => (n : Int))
  | _ => (decimal? text).map (fun n => (n : Int))

end Program

end GoPlanner

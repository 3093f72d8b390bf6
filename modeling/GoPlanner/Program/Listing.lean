import GoPlanner.Program.Files
import GoPlanner.Text.Wildcard

/-!
# Listing Directories

Entries come in the order of their names, the operands that are no directories before the
contents of those that are.

## Main definitions

* `Program.Listed`: an entry in a list.
* `Program.ls`: lists directories.
-/

namespace GoPlanner

namespace Program

/-- **An entry in a list.** -/
structure Listed where
  /-- Its name in the list. -/
  name : String
  /-- Its place. -/
  place : Place
  /-- What stands there. -/
  node : Node
deriving Inhabited

/-- The size of an entry. -/
def sizeOf (node : Node) : Nat :=
  match node with
  | .directory => 4096
  | .file c _ => (Octets.ofContent c).length
  | .link target => target.text.utf8ByteSize

/-- The options of lists. -/
def listOptions : Allowed :=
  { name := "ls", plain := "abcdfghiklmnopqrstuvxABCDFGHLNQRSUXZ1", valued := "IwT", misuse := 2
    long := [("all", 'a'), ("almost-all", 'A'), ("directory", 'd'), ("classify", 'F'),
      ("quote-name", 'Q'), ("reverse", 'r'), ("recursive", 'R'), ("dereference", 'L'),
      ("ignore", 'I'), ("ignore-backups", 'B'), ("literal", 'N')] }

/-! ### Names in lists -/

/-- The mark behind the name of an entry that tells what it is. -/
def markOf (g : Given) (node : Node) : String :=
  match g.last? "Fp", node with
  | none, _ => ""
  | _, .directory => "/"
  | some 'F', .file _ true => "*"
  | some 'F', .link _ => "@"
  | _, _ => ""

/-- A name as it is listed. -/
def listedName (g : Given) (name : String) : String :=
  if g.has 'Q' then
    let written (c : Char) : String :=
      if c = '\x22' || c = '\\' then String.ofList ['\\', c]
      else if isOdd c then escape c
      else String.singleton c
    "\x22" ++ String.join (name.toList.map written) ++ "\x22"
  else name

/-- Entries in the order in which they are listed. -/
def inOrder (g : Given) (t : FileTree) (entries : List Listed) : List Listed :=
  let byName := entries.mergeSort (fun a b => decide (a.name ≤ b.name))
  let time (e : Listed) : Int := ((t.entry? e.place).map (·.modified)).getD 0
  let ordered := match g.last? "StUf" with
    | some 'S' => byName.mergeSort (fun a b => sizeOf b.node ≤ sizeOf a.node)
    | some 't' => byName.mergeSort (fun a b => time b ≤ time a)
    | _ => byName
  if g.has 'r' then ordered.reverse else ordered

/-- Parts with commas between them, in lines that are at most as long as given. -/
def commaLines (width used : Nat) : List String → String
  | [] => ""
  | [part] => (if used != 0 && width < used + part.length then "\n" else "") ++ part
  | part :: parts =>
    if used != 0 && width < used + part.length + 2 then
      "\n" ++ part ++ ", " ++ commaLines width (part.length + 2) parts
    else part ++ ", " ++ commaLines width (used + part.length + 2) parts

/-- Prints entries. -/
def printEntries (g : Given) (entries : List Listed) : Doing Unit :=
  let names := entries.map (fun e => listedName g e.name ++ markOf g e.node)
  if g.last? "1mCx" = some 'm' then
    if names.isEmpty then pure () else say (commaLines 79 0 names ++ "\n")
  else say (ended names)

/-! ### Directories -/

/-- Whether names like this one are listed. -/
def isListedName (g : Given) (name : String) : Bool :=
  (g.has 'a' || g.has 'A' || g.has 'f' || !startsWith "." name) &&
    !(g.has 'B' && endsWith "~" name) &&
    !(g.values 'I').any (fun w => (Wildcard.ofText w).fits name.toList)

/-- What is listed for an entry: links are followed if that is asked for. -/
def shownNode (g : Given) (t : FileTree) (place : Place) (node : Node) : Node :=
  if g.has 'L' then
    match t.find place.path with
    | .ok (_, target) => target
    | .error _ => node
  else node

/-- The entries of a directory. -/
def entriesOf (g : Given) (t : FileTree) (place : Place) : List Listed :=
  let dots : List Listed :=
    if g.last? "aA" = some 'a' || g.has 'f' then
      [⟨".", place, .directory⟩, ⟨"..", place.dropLast, .directory⟩]
    else []
  let others := (t.names place).filterMap (fun name =>
    let shown := Octets.ofText name
    let here := place ++ [name]
    if isListedName g shown then
      (t.node? here).map (fun node => ⟨shown, here, shownNode g t here node⟩)
    else none)
  inOrder g t (dots ++ others)

/-- The directories to be listed for one of them: itself and, if that is asked for, those
below it. The number bounds how deep they lie. -/
def deepDirectories (g : Given) (t : FileTree) : Nat → Listed → List Listed
  | 0, e => [e]
  | n + 1, e =>
    if g.has 'R' then
      let inside := (entriesOf g t e.place).filter (fun i =>
        i.node == .directory && i.name != "." && i.name != "..")
      e :: inside.flatMap (fun i => deepDirectories g t n { i with name := below e.name i.name })
    else [e]

/-- Prints the contents of directories. -/
def printDirectories (g : Given) (t : FileTree) (hasNames : Bool) :
    Bool → List Listed → Doing Unit
  | _, [] => pure ()
  | isFirst, e :: others => do
    if hasNames then
      say ((if isFirst then "" else "\n") ++ listedName g e.name ++ ":\n")
    printEntries g (entriesOf g t e.place)
    printDirectories g t hasNames false others

/-- **Lists directories.** -/
def ls : Program :=
  withOptions listOptions (fun g => do
    let t ← files
    let names := if g.operands.isEmpty then ["."] else g.operands
    let followsAll := g.has 'L'
    let followsDirectories := !g.has 'd' && g.last? "Fp" != some 'F'
    let listed ← names.filterMapM (fun name => do
      let entry := t.entryAt (pathOf name)
      let target := t.find (pathOf name)
      let found := match target with
        | .ok (_, .directory) => if followsAll || followsDirectories then target else entry
        | _ => if followsAll then target else entry
      match found with
      | .ok (place, node) => pure (some (Listed.mk name place node))
      | .error fault => do
        complain ("ls: cannot access " ++ quoted name ++ ": " ++ reasonOf fault)
        finish 2
        pure none)
    let (directories, others) :=
      if g.has 'd' then ([], listed)
      else listed.partition (fun e => e.node == .directory)
    printEntries g (inOrder g t others)
    let directories := inOrder g t directories
    let hasNames := g.has 'R' || 1 < names.length || 1 < directories.length
    if !others.isEmpty && !directories.isEmpty then say "\n"
    let all := directories.flatMap (deepDirectories g t (t.entries.length + 1))
    printDirectories g t hasNames true all)

end Program

end GoPlanner

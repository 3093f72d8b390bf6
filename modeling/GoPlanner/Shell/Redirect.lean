import GoPlanner.Shell.Expansion

/-!
# Redirections

A redirection lets a channel of a command lead elsewhere: to a file, to where another
channel leads, or to a document that stands in the script. The names in redirections are
expanded before the first one is made, and the first one that cannot be made is an error.

## Main definitions

* `Shell.Target`: redirections behind their expansion.
* `Shell.openFile`: the stream of a file.
* `Shell.redirect`: makes redirections.
-/

namespace GoPlanner

namespace Shell

/-! ### Opening files -/

/-- The stream that the name of a device stands for. -/
inductive Device where
  /-- A device that takes everything and gives nothing. -/
  | nowhere
  /-- Where a channel leads. -/
  | channel (number : Nat)
  /-- A device that is not there. -/
  | missing
deriving DecidableEq, Inhabited

/-- The device of a name. -/
def device? (name : String) : Option Device :=
  match name with
  | "/dev/null" => some .nowhere
  | "/dev/stdin" => some (.channel 0)
  | "/dev/stdout" => some (.channel 1)
  | "/dev/stderr" => some (.channel 2)
  | "/dev/tty" => some .missing
  | _ =>
    match name.toList with
    | ['/', 'd', 'e', 'v', '/', 'f', 'd', '/', c] =>
      if c.isDigit then some (.channel (c.toNat - 48)) else none
    | _ => none

/-- The complaint about a file that cannot be opened. -/
def openingComplaint (opening : Opening) (name : String) (fault : Fault) : String :=
  if opening = .reading then "cannot open " ++ name ++ ": " ++ faultText fault "No such file"
  else "cannot create " ++ name ++ ": " ++ faultText fault "Directory nonexistent"

/-- The tree behind opening a file for writing, and the place of the file. A file that
must not be lost is not opened. -/
def openedForWriting (t : FileTree) (opening : Opening) (isKept : Bool) (p : Path) :
    Except Fault (FileTree × Place) :=
  if isKept && opening = .writing && t.isFile p then .error .alreadyThere
  else
    match t.resolveWrite p with
    | .error fault => .error fault
    | .ok place =>
      let isNew := (t.node? place).isNone
      if isNew || opening = .writing || opening = .overwriting then
        .ok (t.setContent place (.text ""), place)
      else .ok (t, place)

/-- The stream of a file at a path. A directory can be opened for reading, but there is
nothing to read. -/
def openPath (opening : Opening) (name : String) : Action Nat := do
  let s ← get
  let refuse (fault : Fault) : Action Nat := fail (openingComplaint opening name fault)
  if opening = .reading then
    match s.tree.find (pathOf name) with
    | .error fault => refuse fault
    | .ok (place, .file _ _) => newStream (.file place 0 .reading)
    | .ok _ => newStream .nowhere
  else
    match openedForWriting s.tree opening (s.options.contains 'C') (pathOf name) with
    | .error fault => refuse fault
    | .ok (t, place) => do
      set { s with tree := t }
      newStream (.file place 0 opening)

/-- **The stream of a file.** A device that stands for a channel with a file behind it
stands for that file. -/
def openFile (opening : Opening) (name : String) : Action Nat := do
  let s ← get
  match device? name with
  | none => openPath opening name
  | some .nowhere => newStream .nowhere
  | some .missing => fail (openingComplaint opening name (.system 6))
  | some (.channel c) =>
    match s.streamOf? c with
    | none => fail (openingComplaint opening name .noEntry)
    | some n =>
      match s.streams[n]? with
      | some (.file place _ _) =>
        openPath opening (Octets.ofText place.path.text)
      | _ => pure n

/-! ### Making redirections -/

/-- **A redirection** behind its expansion. -/
inductive Target where
  /-- To a file. -/
  | file (channel : Nat) (opening : Opening) (name : String)
  /-- To where another channel leads. -/
  | other (channel number : Nat)
  /-- To nothing. -/
  | closed (channel : Nat)
  /-- To a document. -/
  | document (channel number : Nat)
deriving DecidableEq, Inhabited

/-- A redirection with its names expanded. A channel is one digit. -/
def expandRedirection (inner : Inner) : Redirection → Action Target
  | .file channel opening name => do
    pure (.file channel opening (← expandText inner name))
  | .document channel number => pure (.document channel number)
  | .channel channel other => do
    let text ← expandText inner other
    match text.toList with
    | ['-'] => pure (.closed channel)
    | [c] =>
      if c.isDigit then pure (.other channel (c.toNat - 48)) else wrong
    | _ => wrong
where
  /-- The channel is no number. -/
  wrong : Action Target := do
    modify (fun s => { s with line := s.readerLine })
    fail "Syntax error: Bad fd number"

/-- Makes a redirection. -/
def perform (inner : Inner) : Target → Action Unit
  | .file channel opening name => do
    connect channel (← openFile opening name)
  | .other channel number => do
    match (← get).streamOf? number with
    | some n => connect channel n
    | none => fail (toString number ++ ": Bad file descriptor")
  | .closed channel => disconnect channel
  | .document channel number => do
    let word := ((← get).documents.lookup number).getD []
    let text := textOfMarks (← expandWord inner false false word)
    connect channel (← newStream (.pipe text))

/-- **Makes redirections,** one after the other, and tells whether that could be done. The
names in them are expanded first, and an error in a name is an error of the shell. -/
def redirect (inner : Inner) (redirections : List Redirection) : Action Bool := do
  let targets ← redirections.mapM (expandRedirection inner)
  match ← attempt (targets.forM (perform inner)) with
  | .ok () => pure true
  | .error .fails => do
    setStatus 2
    pure false
  | .error jump => throw jump

end Shell

end GoPlanner

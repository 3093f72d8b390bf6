import GoPlanner.Shell.Builtin.Basic
import GoPlanner.Shell.Grammar
import GoPlanner.Shell.Process

/-!
# Builtin Commands for Names

The name of a command may be a reserved word, stand for another text, or be the name of a
builtin command, a function or a program. The tables of names have as many rows as the
shell gives them, and their lists are in the order of these rows.

## Main definitions

* `Shell.Builtin.names`: the names of builtin commands.
* `Shell.Builtin.describe`: what a name stands for, in words.
* `Shell.Builtin.alias`, `Shell.Builtin.unalias`: texts that words stand for.
* `Shell.Builtin.hash`: the programs that were found.
-/

namespace GoPlanner

namespace Shell

namespace Builtin

/-- The names of builtin commands that functions may have as well. -/
def regularNames : List String :=
  ["[", "alias", "bg", "cd", "chdir", "command", "echo", "false", "fg", "getopts", "hash",
    "jobs", "kill", "printf", "pwd", "read", "test", "true", "type", "ulimit", "umask",
    "unalias", "wait"]

/-- **The names of builtin commands.** -/
def names : List String :=
  specialNames ++ regularNames

/-! ### Texts that words stand for -/

/-- A line that shows what a word stands for. -/
def aliasLine (a : String × String) : String :=
  a.1 ++ "=" ++ inApostrophes a.2 ++ "\n"

/-- Complains about a word that stands for nothing. -/
def notFound (command word : String) : Action Unit := do
  let _ ← write 2 (command ++ ": " ++ word ++ " not found\n")
  setStatus 1

/-- **Lets words stand for texts,** or shows what they stand for. -/
def «alias» : Builtin := fun _ arguments => do
  setStatus 0
  if arguments.isEmpty then print (String.join ((inRows 39 (← get).aliases).map aliasLine))
  else
    arguments.forM (fun a => do
      let cs := a.toList
      let name := cs.take 1 ++ (cs.drop 1).takeWhile (fun c => c != '=')
      match cs.drop name.length with
      | _ :: value =>
        let entry := (String.ofList name, String.ofList value)
        modify (fun s =>
          { s with aliases := if (s.aliases.lookup entry.1).isSome then
              s.aliases.map (fun a => if a.1 = entry.1 then entry else a)
            else s.aliases ++ [entry] })
      | [] =>
        match (← get).aliases.lookup a with
        | some value => print (aliasLine (a, value))
        | none => notFound "alias" a)

/-- **Lets words stand for themselves.** -/
def unalias : Builtin := fun _ arguments => do
  let (options, operands) ← optionsOf "a" "" arguments
  setStatus 0
  if !options.isEmpty then modify (fun s => { s with aliases := [] })
  else
    operands.forM (fun word => do
      if ((← get).aliases.lookup word).isNone then notFound "unalias" word
      else modify (fun s => { s with aliases := s.aliases.filter (fun a => a.1 != word) }))

/-! ### Programs that were found -/

/-- Remembers where a program was found. -/
def remember (name path : String) : Action Unit :=
  modify (fun s =>
    if (s.found.lookup name).isSome then s else { s with found := s.found ++ [(name, path)] })

/-- Whether a name is one of a builtin command or a function. -/
def isOwn (s : State) (name : String) : Bool :=
  names.contains name || (s.functions.lookup name).isSome

/-- **Looks for programs,** or lists those that were found. -/
def hash : Builtin := fun _ arguments => do
  let (options, operands) ← optionsOf "r" "" arguments
  setStatus 0
  if !options.isEmpty then modify (fun s => { s with found := [] })
  else if operands.isEmpty then
    print (Program.ended ((inRows 31 (← get).found).map (·.2)))
  else
    operands.forM (fun name => do
      let s ← get
      if isOwn s name || name.contains '/' then pure ()
      else
        match pathsOf s name with
        | .ok paths => remember name (paths.headD name)
        | .error fault => do
          complain (name ++ ": " ++ faultText fault "not found")
          setStatus 1)

/-! ### Descriptions -/

/-- What a name stands for: in words, or in a form in which it could be used. -/
def described (s : State) (inWords : Bool) (name : String) : Option String :=
  let said (words : String) (plain : String) : Option String :=
    some (if inWords then name ++ " is " ++ words else plain)
  if reservedWords.contains name then said "a shell keyword" name
  else
    match s.aliases.lookup name with
    | some value =>
      said ("an alias for " ++ value) ("alias " ++ name ++ "=" ++ inApostrophes value)
    | none =>
      if specialNames.contains name then said "a special shell builtin" name
      else if (s.functions.lookup name).isSome then said "a shell function" name
      else if regularNames.contains name then said "a shell builtin" name
      else
        match s.found.lookup name with
        | some path => said ("a tracked alias for " ++ path) path
        | none =>
          match pathsOf s name with
          | .ok (path :: _) =>
            if s.tree.isPresent (pathOf path) then said path path
            else none
          | _ => none

/-- **Says what names stand for.** -/
def describe (inWords : Bool) (names : List String) : Action Unit := do
  setStatus 0
  names.forM (fun name => do
    let s ← get
    match described s inWords name with
    | some text => do
      print (text ++ "\n")
      if !isOwn s name && !name.contains '/' then
        match pathsOf s name with
        | .ok paths => remember name (paths.headD name)
        | .error _ => pure ()
    | none => do
      if inWords then print (name ++ ": not found\n")
      setStatus 127)

/-- Says what all names stand for. -/
def type : Builtin := fun _ arguments => do
  let (_, operands) ← optionsOf "" "" arguments
  describe true operands

/-- Says what one name stands for, if that is asked for. -/
def command : Builtin := fun _ arguments => do
  let (options, operands) ← optionsOf "pvV" "" arguments
  match options.find? (fun o => o.1 != 'p') with
  | some (letter, _) => describe (letter == 'V') (operands.take 1)
  | none => setStatus 0

end Builtin

end Shell

end GoPlanner

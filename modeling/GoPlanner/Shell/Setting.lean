import GoPlanner.Shell.State

/-!
# Options of Shells

An option of a shell has a letter and a name. A minus sign in front of letters sets them,
a plus sign takes them back, and the letter `o` stands for the name that follows. The
arguments of a shell that starts are read in the same way, with some letters more.

## Main definitions

* `Shell.settingNames`: the letters and names.
* `Shell.Settings`: what arguments ask for.
* `Shell.Settings.read`: reads arguments.
* `Shell.State.apply`: a shell with other options.
-/

namespace GoPlanner

namespace Shell

/-- **The names of the options,** with their letters. Two of them have none, and a
character that is no letter stands for each. -/
def settingNames : List (Char × String) :=
  [('e', "errexit"), ('f', "noglob"), ('I', "ignoreeof"), ('i', "interactive"), ('m', "monitor"),
    ('n', "noexec"), ('s', "stdin"), ('x', "xtrace"), ('v', "verbose"), ('V', "vi"),
    ('E', "emacs"), ('C', "noclobber"), ('a', "allexport"), ('b', "notify"), ('u', "nounset"),
    ('p', "privileged"), ('\x01', "nolog"), ('\x02', "debug")]

/-- **What arguments ask for.** -/
structure Settings where
  /-- The options, each with whether it is set or taken back. -/
  changes : List (Char × Bool) := []
  /-- Whether options are to be listed, and if so, in words. -/
  listings : List Bool := []
  /-- Whether a script is among the arguments. -/
  hasScript : Bool := false
  /-- The other arguments, if there is anything that ends the options. -/
  operands : Option (List String) := none
deriving Inhabited

namespace Settings

/-- One more change. -/
def change (letter : Char) (isSet : Bool) (s : Settings) : Settings :=
  { s with changes := (letter, isSet) :: s.changes }

/-- The letters of one argument, and the arguments that are left. -/
def readLetters (isStart isSet : Bool) :
    List Char → List String → Except String (Settings × List String)
  | [], rest => .ok ({}, rest)
  | c :: cs, rest =>
    if c = 'o' then
      match rest with
      | [] =>
        (readLetters isStart isSet cs []).map (fun r =>
          ({ r.1 with listings := isSet :: r.1.listings }, r.2))
      | name :: rest' =>
        match settingNames.find? (fun s => s.2 == name) with
        | some (letter, _) =>
          (readLetters isStart isSet cs rest').map (fun r => (r.1.change letter isSet, r.2))
        | none => .error ("Illegal option -o " ++ name)
    else if isStart && c = 'c' then
      (readLetters isStart isSet cs rest).map (fun r => ({ r.1 with hasScript := true }, r.2))
    else if isStart && c = 'l' then readLetters isStart isSet cs rest
    else if c.isAlpha && (settingNames.lookup c).isSome then
      (readLetters isStart isSet cs rest).map (fun r => (r.1.change c isSet, r.2))
    else .error ("Illegal option -" ++ String.singleton c)

/-- **What arguments ask for,** or a complaint. -/
def read (isStart : Bool) (arguments : List String) : Except String Settings :=
  match arguments with
  | [] => .ok {}
  | argument :: rest =>
    match argument.toList with
    | ['-'] =>
      let off := if isStart then [] else [('x', false), ('v', false)]
      .ok { changes := off, operands := if isStart || !rest.isEmpty then some rest else none }
    | ['-', '-'] => .ok { operands := some rest }
    | sign :: letters =>
      if sign = '-' || sign = '+' then
        match readLetters isStart (sign == '-') letters rest with
        | .error text => .error text
        | .ok (first, rest') =>
          if rest'.length ≤ rest.length then
            (read isStart rest').map (fun s => { s with
              changes := first.changes ++ s.changes
              listings := first.listings ++ s.listings
              hasScript := first.hasScript || s.hasScript })
          else .ok first
      else .ok { operands := some (argument :: rest) }
    | [] => .ok { operands := some (argument :: rest) }
termination_by arguments.length

/-- Options after changes. -/
def applyTo (s : Settings) (options : List Char) : List Char :=
  s.changes.foldl (fun options change =>
    let others := options.filter (· != change.1)
    if change.2 then change.1 :: others else others) options

end Settings

/-- **A shell with other options.** -/
def State.apply (s : State) (wanted : Settings) : State :=
  { s with options := wanted.applyTo s.options }

/-- The list of all options, in words or as commands that set them. -/
def State.listing (s : State) (inWords : Bool) : String :=
  if inWords then
    "Current option settings\n" ++ String.join (settingNames.map (fun o =>
      o.2 ++ String.ofList (List.replicate (16 - o.2.length) ' ') ++
        (if s.options.contains o.1 then "on" else "off") ++ "\n"))
  else
    String.join (settingNames.map (fun o =>
      "set " ++ (if s.options.contains o.1 then "-o " else "+o ") ++ o.2 ++ "\n"))

end Shell

end GoPlanner

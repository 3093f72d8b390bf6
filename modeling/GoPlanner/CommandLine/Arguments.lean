import GoPlanner.CommandLine.Basic

/-!
# Reading Arguments

Arguments are read from left to right. An option in two dashes takes its value from behind
an equals sign or from the next argument; flags in one dash can be run together. All other
arguments, and all behind a lone double dash, are positional. Values are checked only when
the next argument has been recognised, so an unknown option is reported before a bad value
in front of it.

## Main definitions

* `Parameter`, `Switch`: what can be given with and without a value.
* `Given`: what has been given so far.
* `Arguments`: the state of reading.
* `CommandLine.ofArguments`: reads a command line.
-/

namespace GoPlanner

/-- **What is given with a value.** -/
inductive Parameter where
  | input
  | buildDir
  | tagList
  | tags
  | goos
  | goarch
  | goroot
  | gopath
  | goMinor
  | projectFile
  | goTool
  | report
  | trace
deriving DecidableEq, Inhabited

/-- **What is given without a value.** -/
inductive Switch where
  | cgo
  | noCgo
  | execute
  | debug
  | quiet
  | verbose
  | help
  | version
deriving DecidableEq, Inhabited

/-- The option of a long name. -/
def Parameter.ofLong? (name : String) : Option Parameter :=
  [("tags", tags), ("goos", goos), ("goarch", goarch), ("goroot", goroot), ("gopath", gopath),
    ("go-minor", goMinor), ("config", projectFile), ("go-tool", goTool), ("dump", report),
    ("debug-trace", trace)].lookup name

/-- The flag of a long name. -/
def Switch.ofLong? (name : String) : Option Switch :=
  [("cgo", cgo), ("no-cgo", noCgo), ("execute", execute), ("debug", debug), ("quiet", quiet),
    ("verbose", verbose), ("help", help), ("version", version)].lookup name

/-- The flag of a letter. -/
def Switch.ofShort? (letter : Char) : Option Switch :=
  [('q', quiet), ('v', verbose), ('h', help), ('V', version)].lookup letter

/-- The positional argument of a number; the last one takes all further arguments. -/
def Parameter.ofPosition : Nat → Parameter
  | 0 => input
  | 1 => buildDir
  | _ => tagList

/-- **What has been given so far.** -/
structure Given where
  /-- The input. -/
  input : Option Path := none
  /-- The program that runs the commands. -/
  goTool : Option String := none
  /-- Everything else. -/
  rest : CommandLine := { input := ⟨""⟩ }
deriving Inhabited

namespace Given

/-! ### Values -/

/-- Gives a single value a place that may not be taken. -/
def once {α : Type} (taken : Option α) (value : Except CommandLineError α) :
    Except CommandLineError (Option α) :=
  if taken.isSome then .error .conflict else value.map some

/-- A path; it may not be empty. -/
def pathOf (value : String) : Except CommandLineError Path :=
  if value = "" then .error .invalidValue else .ok ⟨value⟩

/-- A number of 32 bits in decimal digits, perhaps with a sign. -/
def numberOf (value : String) : Except CommandLineError Nat :=
  let (negative, digits) := match value.toList with
    | '-' :: ds => (true, ds)
    | '+' :: ds => (false, ds)
    | ds => (false, ds)
  let n := digits.foldl (fun n c => n * 10 + (c.toNat - 48)) 0
  if digits.isEmpty || !digits.all Char.isDigit || Nat.pow 2 32 ≤ n || (negative && n != 0) then
    .error .invalidNumber
  else .ok n

/-- One of some names. -/
def nameOf {α : Type} (ofName? : String → Option α) (value : String) :
    Except CommandLineError α :=
  match ofName? value with
  | some a => .ok a
  | none => .error .invalidValue

/-- Takes the values of a parameter. -/
def take (g : Given) (p : Parameter) (values : List String) : Except CommandLineError Given :=
  let r := g.rest
  match p, values with
  | _, [] => .error .invalidValue
  | .input, v :: _ => (once g.input (pathOf v)).map (fun x => { g with input := x })
  | .buildDir, v :: _ =>
    (once r.buildDir (pathOf v)).map (fun x => { g with rest.buildDir := x })
  | .tagList, vs =>
    .ok { g with rest.tagList := r.tagList ++ vs.flatMap (pieces ',') }
  | .tags, vs => .ok { g with rest.tags := r.tags ++ vs.flatMap (pieces ',') }
  | .goos, v :: _ => (once r.goos (.ok v)).map (fun x => { g with rest.goos := x })
  | .goarch, v :: _ => (once r.goarch (.ok v)).map (fun x => { g with rest.goarch := x })
  | .goroot, v :: _ => (once r.goroot (pathOf v)).map (fun x => { g with rest.goroot := x })
  | .gopath, v :: _ => (pathOf v).map (fun x => { g with rest.gopath := r.gopath ++ [x] })
  | .goMinor, v :: _ => (once r.goMinor (numberOf v)).map (fun x => { g with rest.goMinor := x })
  | .projectFile, v :: _ =>
    (once r.projectFile (pathOf v)).map (fun x => { g with rest.projectFile := x })
  | .goTool, v :: _ => (once g.goTool (.ok v)).map (fun x => { g with goTool := x })
  | .report, v :: _ =>
    (nameOf Report.ofName? v).map (fun x => { g with rest.reports := r.reports ++ [x] })
  | .trace, v :: _ =>
    (nameOf Part.ofName? v).map (fun x => { g with rest.traces := r.traces ++ [x] })

/-! ### Flags -/

/-- Sets a flag that may not be set yet. -/
def setOnce (g : Given) (isSet : Bool) (changed : CommandLine) : Except CommandLineError Given :=
  if isSet then .error .conflict else .ok { g with rest := changed }

/-- Sets a flag. Only verbosity can be asked for more than once; it is counted up to 255. -/
def set (g : Given) (s : Switch) : Except CommandLineError Given :=
  let r := g.rest
  match s with
  | .cgo => g.setOnce r.cgo { r with cgo := true }
  | .noCgo => g.setOnce r.noCgo { r with noCgo := true }
  | .execute => g.setOnce r.execute { r with execute := true }
  | .debug => g.setOnce r.debug { r with debug := true }
  | .quiet => g.setOnce r.quiet { r with quiet := true }
  | .verbose => .ok { g with rest.verbose := min 255 (r.verbose + 1) }
  | .help => .error .helpWanted
  | .version => .error .versionWanted

/-- The command line, if nothing excludes anything else and the input is there. -/
def finish (g : Given) : Except CommandLineError CommandLine :=
  if g.rest.cgo && g.rest.noCgo then .error .conflict
  else
    match g.input with
    | none => .error .missingInput
    | some input => .ok { g.rest with input := input, goTool := g.goTool.getD "go" }

end Given

/-- **The state of reading.** -/
structure Arguments where
  /-- What has been given and checked. -/
  given : Given := {}
  /-- The last parameter with its values, which are not checked yet. -/
  pending : Option (Parameter × List String) := none
  /-- Whether the next argument is the value of the last option. -/
  isAwaiting : Bool := false
  /-- How many positional arguments there were. -/
  positions : Nat := 0
  /-- Whether all further arguments are positional. -/
  isTrailing : Bool := false
deriving Inhabited

namespace Arguments

/-- Checks the values of the last parameter. -/
def settle (a : Arguments) : Except CommandLineError Arguments :=
  match a.pending with
  | none => .ok a
  | some (p, values) =>
    (a.given.take p values).map
      (fun g => { a with given := g, pending := none, isAwaiting := false })

/-- Takes a flag. -/
def addSwitch (a : Arguments) (s : Switch) : Except CommandLineError Arguments := do
  let a ← a.settle
  let g ← a.given.set s
  pure { a with given := g }

/-- Takes an option that is given in two dashes, perhaps with a value. -/
def addLong (a : Arguments) (name : String) (value : Option String) :
    Except CommandLineError Arguments :=
  match Parameter.ofLong? name, Switch.ofLong? name, value with
  | some p, _, some v => do
    let a ← a.settle
    let g ← a.given.take p [v]
    pure { a with given := g }
  | some p, _, none =>
    a.settle.map (fun a => { a with pending := some (p, []), isAwaiting := true })
  | none, some s, none => a.addSwitch s
  | none, some _, some _ => .error .unneededValue
  | none, none, _ => .error .unknownArgument

/-- Takes a flag that is given by its letter. -/
def addShort (a : Arguments) (letter : Char) : Except CommandLineError Arguments :=
  match Switch.ofShort? letter with
  | some s => a.addSwitch s
  | none => .error .unknownArgument

/-- Takes a positional argument; those behind the build directory belong together. -/
def addPositional (a : Arguments) (value : String) : Except CommandLineError Arguments :=
  match Parameter.ofPosition a.positions, a.pending with
  | .tagList, some (.tagList, values) =>
    .ok { a with pending := some (.tagList, values ++ [value]) }
  | p, _ =>
    a.settle.map (fun a =>
      { a with pending := some (p, [value]), positions := a.positions + 1 })

/-- Takes an argument that belongs to no option in front of it. -/
def addValue (a : Arguments) (value : String) : Except CommandLineError Arguments :=
  match a.isAwaiting, a.pending with
  | true, some (p, values) =>
    .ok { a with pending := some (p, values ++ [value]), isAwaiting := false }
  | _, _ => a.addPositional value

/-- **Takes the next argument.** -/
def add (a : Arguments) (argument : String) : Except CommandLineError Arguments :=
  if a.isTrailing then a.addPositional argument
  else
    match argument.toList with
    | ['-', '-'] => .ok { a with isTrailing := true }
    | '-' :: '-' :: long =>
      match long.dropWhile (fun c => c != '=') with
      | [] => a.addLong (String.ofList long) none
      | _ :: value =>
        a.addLong (String.ofList (long.takeWhile (fun c => c != '='))) (String.ofList value)
    | ['-'] => a.addValue argument
    | '-' :: letters => letters.foldlM addShort a
    | _ => a.addValue argument

end Arguments

/-- **Reads a command line.** -/
def CommandLine.ofArguments (arguments : List String) : Except CommandLineError CommandLine := do
  let a ← arguments.foldlM Arguments.add {}
  let a ← a.settle
  a.given.finish

end GoPlanner

import GoPlanner.FileTree.Change
import GoPlanner.Program.Option

/-!
# Programs That Change Files

Each operand is taken for itself: a complaint about one of them does not keep the program
from the others.

## Main definitions

* `Program.touch`, `Program.mkdir`, `Program.ln`: new entries.
* `Program.rm`, `Program.rmdir`: entries are removed.
* `Program.cp`, `Program.mv`: entries are copied and moved.
* `Program.chmod`: files become executable or not.
* `Program.readlink`, `Program.realpath`: where paths lead.
* `Program.cmp`: files are compared.
-/

namespace GoPlanner

namespace Program

/-! ### Faults -/

/-- Changes the files, or complains in words to which the reason is added. -/
def changeOr (complaint : String) (f : FileTree → Except Fault FileTree) : Doing Bool := do
  match ← change f with
  | none => pure true
  | some fault => do
    complain (complaint ++ ": " ++ reasonOf fault)
    atLeast 1
    pure false

/-- Complains about one operand. -/
def regret (text : String) : Doing Unit := do
  complain text
  atLeast 1

/-- A path without slashes at its end. -/
def trimmed (path : String) : String :=
  match (path.toList.reverse.dropWhile (fun c => c == '/')).reverse with
  | [] => if path = "" then "" else "/"
  | cs => String.ofList cs

/-- The last step of a path. -/
def lastStep (path : String) : String :=
  ((pieces '/' (trimmed path)).getLast?).getD ""

/-- The path of a name in a directory. -/
def below (directory name : String) : String :=
  if endsWith "/" directory then directory ++ name else directory ++ "/" ++ name

/-! ### New entries -/

/-- **Makes files,** or stamps those that are there. -/
def touch : Program :=
  withOptions { name := "touch", plain := "achm", valued := "drt"
                long := [("no-create", 'c'), ("date", 'd'), ("reference", 'r')] } (fun g => do
    if g.operands.isEmpty then misused { name := "touch" } "missing file operand"
    g.operands.forM (fun name => do
      let t ← files
      match t.find (pathOf name) with
      | .ok (place, node) =>
        modify (fun s => { s with tree := s.tree.put place ⟨node, s.tree.clock⟩ })
      | .error fault =>
        let isFile := t.isFile (pathOf (trimmed name))
        let isNew := fault = .noEntry && trimmed name != name &&
          (t.newPlace (pathOf (trimmed name))).isOk
        if isFile || isNew then regret ("touch: setting times of " ++ quoted name ++ ": " ++ reasonOf fault)
        else if g.has 'c' && fault = .noEntry then pure ()
        else do
          let _ ← changeOr ("touch: cannot touch " ++ quoted name)
            (fun t => t.write (pathOf name) (.text ""))))

/-- The paths on the way to a path, itself included. -/
def pathsTo (path : String) : List String :=
  let cs := path.toList
  ((List.range (cs.length + 1)).filter (fun n =>
    n != 0 && cs[n - 1]? != some '/' && (n == cs.length || cs[n]? == some '/'))).map
      (fun n => String.ofList (cs.take n))

/-- Makes the missing ones of directories, up to the first that cannot be made. -/
def makeMissing (isVerbose : Bool) : List String → Doing Unit
  | [] => pure ()
  | path :: others => do
    let t ← files
    if t.isDirectory (pathOf path) then makeMissing isVerbose others
    else if t.isPresent (pathOf path) && !others.isEmpty then
      regret ("mkdir: cannot create directory " ++ quoted path ++ ": " ++
        reasonOf .notDirectory)
    else if ← changeOr ("mkdir: cannot create directory " ++ quoted path)
        (fun t => t.makeDirectory (pathOf path)) then do
      if isVerbose then say ("mkdir: created directory " ++ quoted path ++ "\n")
      makeMissing isVerbose others

/-- **Makes directories.** -/
def mkdir : Program :=
  withOperands { name := "mkdir", plain := "pv", valued := "m"
                 long := [("parents", 'p'), ("verbose", 'v'), ("mode", 'm')] } (fun g =>
    g.operands.forM (fun name => do
      if g.has 'p' && name != "" then makeMissing (g.has 'v') (pathsTo name)
      else if ← changeOr ("mkdir: cannot create directory " ++ quoted name)
          (fun t => t.makeDirectory (pathOf name)) then
        if g.has 'v' then say ("mkdir: created directory " ++ quoted name ++ "\n")))

/-! ### Removing -/

/-- Removes directories, up to the first that cannot be removed. -/
def removeEmpty (isVerbose isQuiet isFirst : Bool) : List String → Doing Unit
  | [] => pure ()
  | path :: others => do
    if isVerbose then say ("rmdir: removing directory, " ++ quoted path ++ "\n")
    match ← change (fun t => t.removeDirectory (pathOf path)) with
    | none => removeEmpty isVerbose isQuiet false others
    | some fault =>
      if isQuiet && fault = .notEmpty then pure ()
      else
        regret ("rmdir: failed to remove " ++ (if isFirst then "" else "directory ") ++
          quoted path ++ ": " ++ reasonOf fault)

/-- **Removes empty directories.** -/
def rmdir : Program :=
  withOperands { name := "rmdir", plain := "pvi"
                 long := [("parents", 'p'), ("verbose", 'v'),
                   ("ignore-fail-on-non-empty", 'i')] } (fun g =>
    g.operands.forM (fun name =>
      removeEmpty (g.has 'v') (g.has 'i') true
        (if g.has 'p' then (pathsTo name).reverse else [name])))

/-- The entries below a place in the order in which they are removed, as steps, each with
whether it is a directory. -/
def removalOrder (t : FileTree) (place : Place) : List (List String × Bool) :=
  ((t.below place).map (fun e => (e.1, e.2 == .directory))).reverse

/-- Tells that an entry was removed. -/
def tellRemoved (isDirectory : Bool) (path : String) : Doing Unit :=
  say ("removed " ++ (if isDirectory then "directory " else "") ++ quoted path ++ "\n")

/-- **Removes entries.** -/
def rm : Program :=
  withOptions { name := "rm", plain := "dfiIrRv"
                long := [("force", 'f'), ("recursive", 'r'), ("dir", 'd'), ("verbose", 'v')] }
    (fun g => do
      if g.operands.isEmpty && !g.has 'f' then misused { name := "rm" } "missing operand"
      let isDeep := g.has 'r' || g.has 'R'
      g.operands.forM (fun name => do
        let t ← files
        let cannot (fault : Fault) : Doing Unit :=
          regret ("rm: cannot remove " ++ quoted name ++ ": " ++ reasonOf fault)
        match t.entryAt (pathOf name) with
        | .error fault =>
          if g.has 'f' && (fault = .noEntry || fault = .notDirectory) then pure ()
          else cannot fault
        | .ok (place, .directory) =>
          if isDeep && [".", ".."].contains (lastStep name) then
            regret ("rm: refusing to remove \x27.\x27 or \x27..\x27 directory: skipping " ++
              quoted (trimmed name))
          else if isDeep then do
            if g.has 'v' then do
              (removalOrder t place).forM (fun e =>
                tellRemoved e.2 (below name (Octets.ofText ("/".intercalate e.1))))
              tellRemoved true name
            modify (fun s => { s with tree := s.tree.remove place })
          else if g.has 'd' then
            match ← change (fun t => t.removeDirectory (pathOf name)) with
            | none => if g.has 'v' then tellRemoved true name
            | some fault => cannot fault
          else cannot .isDirectory
        | .ok (place, _) => do
          modify (fun s => { s with tree := s.tree.remove place })
          if g.has 'v' then tellRemoved false name))

/-! ### Copying and moving -/

/-- The options of the programs that copy and move. -/
def transferOptions (name : String) : Allowed :=
  { name := name, plain := "abdfHilLnpPrRsTuvx", valued := "tS"
    long := [("recursive", 'r'), ("force", 'f'), ("verbose", 'v'), ("archive", 'a'),
      ("no-clobber", 'n'), ("target-directory", 't'), ("no-target-directory", 'T'),
      ("update", 'u')] }

/-- The entries to copy or move, each with where it goes; or a complaint is made. -/
def transfers (name : String) (g : Given) : Doing (List (String × String)) := do
  let t ← files
  let into (directory : String) (sources : List String) : List (String × String) :=
    sources.map (fun s => (s, below directory (lastStep s)))
  match g.value? 't', g.operands with
  | some directory, sources =>
    if sources.isEmpty then do
      misused (transferOptions name) "missing file operand"
      pure []
    else pure (into directory sources)
  | none, [] => do
    misused (transferOptions name) "missing file operand"
    pure []
  | none, [only] => do
    misused (transferOptions name) ("missing destination file operand after " ++ quoted only)
    pure []
  | none, operands =>
    let target := (operands.getLast?).getD ""
    let sources := operands.dropLast
    if g.has 'T' then pure ((sources.take 1).map (fun s => (s, target)))
    else if t.isDirectory (pathOf target) then pure (into target sources)
    else if 1 < sources.length then do
      let fault := match t.find (pathOf target) with
        | .error fault => fault
        | .ok _ => .notDirectory
      refuse 1 (name ++ ": target " ++ quoted target ++ ": " ++ reasonOf fault)
      pure []
    else pure (sources.map (fun s => (s, target)))

/-- Copies a directory with all that is in it. -/
def copyDirectory (isVerbose : Bool) (source target : String) (place : Place) :
    Doing Unit := do
  let t ← files
  let parent : Except Fault Place := match t.find (pathOf target) with
    | .ok (goal, _) => .ok goal
    | .error .noEntry => t.newPlace (pathOf (trimmed target))
    | .error fault => .error fault
  match parent with
  | .error fault =>
    regret ("cp: cannot create directory " ++ quoted target ++ ": " ++ reasonOf fault)
  | .ok goal =>
    if place.isPrefixOf goal then
      regret ("cp: cannot copy a directory, " ++ quoted source ++ ", into itself, " ++
        quoted target)
    else if (t.node? goal).any (· != .directory) then
      regret ("cp: cannot overwrite non-directory " ++ quoted target ++ " with directory " ++
        quoted source)
    else do
      let tell (steps : List String) : Doing Unit :=
        let name := Octets.ofText ("/".intercalate steps)
        let shown (path : String) : String := if steps.isEmpty then path else below path name
        if isVerbose then say (quoted (shown source) ++ " -> " ++ quoted (shown target) ++ "\n")
        else pure ()
      if (t.node? goal).isNone then do
        modify (fun s => { s with tree := s.tree.put goal ⟨.directory, s.tree.clock⟩ })
        tell []
      (t.below place).forM (fun e => do
        let isThere := e.2 == .directory && (← files).isDirectoryAt (goal ++ e.1)
        if !isThere then do
          modify (fun s => { s with tree := s.tree.put (goal ++ e.1) ⟨e.2, s.tree.clock⟩ })
          tell e.1)

/-- Copies a file. A new file is executable if the other one is. -/
def copyFile (isExact : Bool) (source target : String) (c : Content) (isExecutable : Bool) :
    Doing Bool := do
  let t ← files
  if t.isDirectory (pathOf target) then do
    regret ("cp: cannot overwrite directory " ++ quoted target ++ " with non-directory " ++
      quoted source)
    pure false
  else
    let isNew := !t.isPresent (pathOf target)
    changeOr ("cp: cannot create regular file " ++ quoted target) (fun t =>
      (t.write (pathOf target) c).map (fun t' =>
        match t'.resolve (pathOf target) with
        | .ok place => if isNew || isExact then t'.setExecutable place isExecutable else t'
        | .error _ => t'))

/-- Copies one entry. -/
def copyOne (g : Given) (source target : String) : Doing Unit := do
  let t ← files
  let isDeep := g.has 'r' || g.has 'R' || g.has 'a'
  let keepsLinks := (isDeep || g.has 'd' || g.has 'P') && !g.has 'L'
  let isExact := g.has 'p' || g.has 'a'
  let tell : Doing Unit :=
    if g.has 'v' then say (quoted source ++ " -> " ++ quoted target ++ "\n") else pure ()
  match (if keepsLinks then t.entryAt (pathOf source) else t.find (pathOf source)) with
  | .error fault => regret ("cp: cannot stat " ++ quoted source ++ ": " ++ reasonOf fault)
  | .ok (place, node) =>
    let isSame := match t.resolve (pathOf target) with
      | .ok goal => goal == place
      | .error _ => false
    if g.has 'n' && t.isPresent (pathOf target) then pure ()
    else if isSame && node != .directory then
      regret ("cp: " ++ quoted source ++ " and " ++ quoted target ++ " are the same file")
    else
      match node with
      | .directory =>
        if isDeep then copyDirectory (g.has 'v') source target place
        else regret ("cp: -r not specified; omitting directory " ++ quoted source)
      | .file c isExecutable =>
        if ← copyFile isExact source target c isExecutable then tell
      | .link goal => do
        let t := (t.unlink (pathOf target)).toOption.getD t
        match t.makeLink goal (pathOf target) with
        | .ok t' => do
          modify (fun s => { s with tree := t' })
          tell
        | .error fault =>
          regret ("cp: cannot create symbolic link " ++ quoted target ++ ": " ++ reasonOf fault)

/-- **Copies entries.** -/
def cp : Program :=
  withOptions (transferOptions "cp") (fun g => do
    (← transfers "cp" g).forM (fun p => copyOne g p.1 p.2))

/-- Moves one entry. -/
def moveOne (g : Given) (source target : String) : Doing Unit := do
  let t ← files
  match t.entryAt (pathOf source) with
  | .error fault => regret ("mv: cannot stat " ++ quoted source ++ ": " ++ reasonOf fault)
  | .ok (place, node) =>
    let isSame := match t.placeOf (pathOf target) with
      | .ok goal => goal == place
      | .error _ => false
    let isThere := t.isPresent (pathOf target)
    let isBlocked := node == .directory && (t.entryAt (pathOf target)).toOption.any (fun e =>
      e.2 != .directory)
    if isSame then
      regret ("mv: " ++ quoted source ++ " and " ++ quoted target ++ " are the same file")
    else if g.has 'n' && isThere then pure ()
    else if isBlocked then
      regret ("mv: cannot overwrite non-directory " ++ quoted target ++ " with directory " ++
        quoted source)
    else
      match ← change (fun t => t.rename (pathOf source) (pathOf target)) with
      | none =>
        if g.has 'v' then say ("renamed " ++ quoted source ++ " -> " ++ quoted target ++ "\n")
      | some fault =>
        regret ("mv: " ++ (
          if fault = .system 22 then
            "cannot move " ++ quoted source ++ " to a subdirectory of itself, " ++ quoted target
          else if fault = .notEmpty then
            "cannot overwrite " ++ quoted target ++ ": " ++ reasonOf fault
          else if fault = .isDirectory then
            "cannot overwrite directory " ++ quoted target ++ " with non-directory"
          else
            "cannot move " ++ quoted source ++ " to " ++ quoted target ++ ": " ++ reasonOf fault))

/-- **Moves entries.** -/
def mv : Program :=
  withOptions (transferOptions "mv") (fun g => do
    (← transfers "mv" g).forM (fun p => moveOne g p.1 p.2))

/-! ### Links -/

/-- Makes one link. A link that is none of another path is a copy. -/
def linkOne (g : Given) (target name : String) : Doing Unit := do
  let t ← files
  let isSymbolic := g.has 's'
  let kind := if isSymbolic then "symbolic" else "hard"
  let cannot (fault : Fault) : Doing Unit :=
    regret ("ln: failed to create " ++ kind ++ " link " ++ quoted name ++ ": " ++ reasonOf fault)
  let made (t : FileTree) : Except Fault FileTree :=
    if isSymbolic then
      if target = "" then .error .noEntry else t.makeLink (pathOf target) (pathOf name)
    else
      (t.entryAt (pathOf target)).bind (fun e =>
        (t.newPlace (pathOf name)).map (fun place => t.put place ⟨e.2, t.clock⟩))
  match isSymbolic, t.entryAt (pathOf target) with
  | false, .error fault =>
    regret ("ln: failed to access " ++ quoted target ++ ": " ++ reasonOf fault)
  | false, .ok (_, .directory) =>
    regret ("ln: " ++ quotedIfNeeded target ++ ": hard link not allowed for directory")
  | _, _ => do
    let cleared (t : FileTree) : FileTree :=
      if g.has 'f' then (t.unlink (pathOf name)).toOption.getD t else t
    match ← change (fun t => made (cleared t)) with
    | none =>
      if g.has 'v' then
        say (quoted name ++ (if isSymbolic then " -> " else " => ") ++ quoted target ++ "\n")
    | some fault => cannot fault

/-- **Makes links.** -/
def ln : Program :=
  withOptions { name := "ln", plain := "bdfFiLnPrsTv", valued := "tS"
                long := [("symbolic", 's'), ("force", 'f'), ("verbose", 'v'),
                  ("no-dereference", 'n'), ("no-target-directory", 'T')] } (fun g => do
    let t ← files
    let isInto (name : String) : Bool :=
      !g.has 'T' && t.isDirectory (pathOf name) && !(g.has 'n' && t.isLink (pathOf name))
    match g.value? 't', g.operands with
    | none, [] => misused { name := "ln" } "missing file operand"
    | some directory, targets => targets.forM (fun a => linkOne g a (below directory (lastStep a)))
    | none, [only] => linkOne g only (below "." (lastStep only))
    | none, operands =>
      let name := (operands.getLast?).getD ""
      let targets := operands.dropLast
      if isInto name then targets.forM (fun a => linkOne g a (below name (lastStep a)))
      else if 1 < targets.length then
        refuse 1 ("ln: target " ++ quoted name ++ ": " ++
          reasonOf (if t.isPresent (pathOf name) then .notDirectory else .noEntry))
      else targets.forM (fun a => linkOne g a name))

/-- How much of a path must be there. -/
inductive Needed where
  /-- All of it. -/
  | whole
  /-- All but the last step. -/
  | parent
  /-- Nothing. -/
  | nothing
deriving DecidableEq

/-- The path without links and dots that a path leads to. -/
def canonicalPath (t : FileTree) (needed : Needed) (name : String) : Except Fault String :=
  let shown (place : Place) : String := Octets.ofText place.path.text
  match t.resolve (pathOf name), needed with
  | .ok place, _ => .ok (shown place)
  | .error fault, .whole => .error fault
  | .error fault, .parent =>
    if fault = .noEntry && name != "" then
      match t.resolveWrite (pathOf (trimmed name)) with
      | .ok place => .ok (shown place)
      | .error fault => .error fault
    else .error fault
  | .error fault, .nothing =>
    if name = "" then .error fault
    else
      let start := if startsWith "/" name then [] else t.cwd
      .ok (shown ((pieces '/' name).foldl (fun place step =>
        if step = "" || step = "." then place
        else if step = ".." then place.dropLast
        else
          let next := place ++ [Octets.toText step]
          (t.resolve (Place.path next)).toOption.getD next) start))

/-- How much of a path options ask for. -/
def neededBy (g : Given) (otherwise : Needed) : Needed :=
  match g.last? "efm" with
  | some 'e' => .whole
  | some 'm' => .nothing
  | some _ => .parent
  | none => otherwise

/-- **Shows where links lead.** -/
def readlink : Program :=
  withOperands { name := "readlink", plain := "efmnqsvz"
                 long := [("canonicalize", 'f'), ("canonicalize-existing", 'e'),
                   ("canonicalize-missing", 'm'), ("no-newline", 'n')] } (fun g =>
    g.operands.forM (fun name => do
      let t ← files
      let stop := if g.has 'n' && g.operands.length = 1 then "" else "\n"
      if (g.last? "efm").isSome then
        match canonicalPath t (neededBy g .parent) name with
        | .ok path => say (path ++ stop)
        | .error _ => atLeast 1
      else
        match t.entryAt (pathOf name) with
        | .ok (_, .link target) => say (Octets.ofText target.text ++ stop)
        | _ => atLeast 1))

/-- **Shows where paths lead.** -/
def realpath : Program :=
  withOperands { name := "realpath", plain := "emqsLPz"
                 long := [("canonicalize-existing", 'e'), ("canonicalize-missing", 'm'),
                   ("no-symlinks", 's'), ("quiet", 'q')] } (fun g =>
    g.operands.forM (fun name => do
      match canonicalPath (← files) (neededBy g .parent) name with
      | .ok path => say (path ++ "\n")
      | .error fault =>
        if g.has 'q' then atLeast 1 else complainOf "realpath" name fault))

/-! ### Permissions -/

/-- Whether a file is executable after a change in letters. -/
def changedBy (isExecutable : Bool) (text : String) : Option Bool :=
  let cs := text.toList.dropWhile (fun c => "ugoa".toList.contains c)
  match cs with
  | sign :: letters =>
    let hasX := letters.contains 'x' || (letters.contains 'X' && isExecutable)
    if !letters.all (fun c => "rwxXst".toList.contains c) then none
    else if sign = '+' then some (isExecutable || hasX)
    else if sign = '-' then some (isExecutable && !hasX)
    else if sign = '=' then some hasX
    else none
  | [] => none

/-- Whether a file is executable after a change of its permissions. -/
def executableBy (mode : String) (isExecutable : Bool) : Option Bool :=
  if !mode.toList.isEmpty && mode.toList.all (fun c => '0' ≤ c && c ≤ '7') then
    some (mode.toList.any (fun c => (c.toNat - 48) % 2 == 1))
  else (pieces ',' mode).foldlM changedBy isExecutable

/-- **Lets files be executable** or not. -/
def chmod : Program := fun arguments =>
  let guarded := arguments.map (fun a =>
    if startsWith "-" a && (changedBy false a).isSome && a != "-" then ("", a) else (a, a))
  let mode? := (guarded.find? (fun a => a.1 == "")).map (·.2)
  let arguments := (guarded.filter (fun a => a.1 != "")).map (·.1)
  withOptions { name := "chmod", plain := "cfRv"
                long := [("recursive", 'R'), ("verbose", 'v')] } (fun g =>
    let operands := mode?.toList ++ g.operands
    match operands with
    | [] => misused { name := "chmod" } "missing operand"
    | [mode] => misused { name := "chmod" } ("missing operand after " ++ quoted mode)
    | mode :: names =>
      if (executableBy mode false).isNone then
        misused { name := "chmod" } ("invalid mode: " ++ quoted mode)
      else
        names.forM (fun name => do
          let t ← files
          match t.find (pathOf name) with
          | .error fault =>
            regret ("chmod: cannot access " ++ quoted name ++ ": " ++ reasonOf fault)
          | .ok (place, _) =>
            let places := if g.has 'R' then
                place :: (t.filesBelow place).map (place ++ ·)
              else [place]
            modify (fun s => { s with tree := places.foldl (fun t place =>
              t.setExecutable place
                ((executableBy mode (t.isExecutableAt place)).getD false)) s.tree }))) arguments

/-! ### Comparing -/

/-- The number of the first character that differs, and of its line; if there is none, the
number of characters that are the same, and the shorter text. -/
def firstDifference : Nat → Nat → List Char → List Char → Nat × Nat × Option Bool
  | n, line, a :: as, b :: bs =>
    if a = b then firstDifference (n + 1) (if a = '\n' then line + 1 else line) as bs
    else (n, line, none)
  | n, line, [], _ => (n, line, some true)
  | n, line, _, [] => (n, line, some false)

/-- **Compares two files.** -/
def cmp : Program :=
  withOptions { name := "cmp", plain := "bls", misuse := 2, long := [("silent", 's')] } (fun g =>
    match g.operands with
    | [] => do
      complain "cmp: missing operand after \x27cmp\x27"
      let name := (← get).called
      refuse 2 ("cmp: Try \x27" ++ name ++ " --help\x27 for more information.")
    | first :: rest => do
      let second := rest.headD "-"
      match ← contentOf first, ← contentOf second with
      | .error fault, _ => do
        complain ("cmp: " ++ first ++ ": " ++ reasonOf fault)
        finish 2
      | _, .error fault => do
        complain ("cmp: " ++ second ++ ": " ++ reasonOf fault)
        finish 2
      | .ok a, .ok b =>
        if a = b then pure ()
        else do
          finish 1
          let (n, line, ended?) := firstDifference 1 1 a.toList b.toList
          if g.has 's' then pure ()
          else
            match ended? with
            | none =>
              say (first ++ " " ++ second ++ " differ: char " ++ toString n ++ ", line " ++
                toString line ++ "\n")
            | some isFirst =>
              let short := if isFirst then first else second
              let text := if isFirst then a else b
              complain ("cmp: EOF on " ++ short ++ (
                if text = "" then " which is empty"
                else " after byte " ++ toString (n - 1) ++ ", " ++ (
                  if endsWith "\n" text then "line " ++ toString (line - 1)
                  else "in line " ++ toString line))))

end Program

end GoPlanner

import GoPlanner.FileTree.Fault
import GoPlanner.Path
import GoPlanner.Text.Blank

/-!
# Module Files

A module file names the path of its module and lists replacements for import paths. Each
line is cut into tokens: words between blanks, quoted strings, and a comment from two
slashes to the end of the line. A directive stands on one line, or is the head of a block
in parentheses whose lines are its entries. Only the directives `module` and `replace`
say anything that planning needs.

## Main definitions

* `ModuleFile`, `Replacement`, `Replacement.Target`: what a module file says.
* `ModuleFile.tokens`: the tokens of one line.
* `ModuleFile.parse`: the module file of a text.
-/

namespace GoPlanner

/-- **What stands for a replaced import path.** -/
inductive Replacement.Target where
  /-- A directory, as written. -/
  | directory (path : Path)
  /-- Another module. -/
  | module (path version : String)
deriving DecidableEq, Inhabited

/-- **A replacement.** -/
structure Replacement where
  /-- The import path that is replaced, with all below it. -/
  oldPath : String
  /-- The version that is replaced. -/
  oldVersion : Option String
  /-- What stands for it. -/
  target : Replacement.Target
deriving DecidableEq, Inhabited

/-- **A module file.** -/
structure ModuleFile where
  /-- The path of the module. -/
  modulePath : String
  /-- The replacements, in order. -/
  replacements : List Replacement
deriving DecidableEq, Inhabited

/-- **What can be wrong** with a line of a module file. -/
inductive ModuleFault where
  /-- A quoted string is not closed. -/
  | openQuote
  /-- A replacement has no arrow. -/
  | noArrow
  /-- A replacement has too few or too many words. -/
  | replaceUsage
  /-- A module stands for a path without a version. -/
  | noVersion (path : String)
  /-- A directory stands for a path with a version. -/
  | versionOfDirectory (path : String)
  /-- The module path stands in a block. -/
  | moduleBlock
  /-- There is a second module path. -/
  | repeatedModule
  /-- The directive for the module path has no path, or more than one word. -/
  | moduleUsage
  /-- A block is not closed. -/
  | openBlock (verb : String)
  /-- There is no module path. -/
  | noModule
  /-- Anything else, in words. -/
  | other (text : String)
deriving DecidableEq, Inhabited

/-- The fault in words. -/
def ModuleFault.detail : ModuleFault → String
  | openQuote => "unterminated quoted string"
  | noArrow => "replace directive is missing '=>'"
  | replaceUsage => "usage: replace module/path [v1.2.3] => other/module v1.4"
  | noVersion path =>
    "replacement module '" ++ path ++ "' needs a version (or use a ./ directory path)"
  | versionOfDirectory path =>
    "replacement directory '" ++ path ++ "' cannot have a version"
  | moduleBlock => "module directive cannot be a block"
  | repeatedModule => "repeated module directive"
  | moduleUsage => "usage: module module/path"
  | openBlock verb => "unterminated " ++ verb ++ " block"
  | noModule => "no module directive found"
  | other text => text

/-- **Why a module file cannot be read.** -/
inductive ModuleError where
  /-- The file itself cannot be read. -/
  | refused (path : Path) (fault : Fault)
  /-- A line is malformed. -/
  | malformed (line : Nat) (fault : ModuleFault)
deriving DecidableEq, Inhabited

/-- The name of module files. -/
def moduleFileName : String :=
  "go.mod"

/-- The message for the user. -/
def ModuleError.message : ModuleError → String
  | refused path fault => "failed to read '" ++ path.text ++ "': " ++ fault.message
  | malformed line fault => moduleFileName ++ ":" ++ toString line ++ ": " ++ fault.detail

namespace ModuleFile

/-! ### Tokens -/

/-- Whether a character starts a quoted string. -/
def isQuote (c : Char) : Bool :=
  c == '\x22' || c == '\x60'

/-- The rest of a quoted string and what follows it. In double quotes a backslash makes
the next character part of the string. -/
def readQuoted (quote : Char) : List Char → Option (List Char × List Char)
  | [] => none
  | c :: cs =>
    if c = quote then some ([], cs)
    else if c = '\\' && quote = '\x22' then
      match cs with
      | [] => none
      | escaped :: cs' => (readQuoted quote cs').map (fun r => (escaped :: r.1, r.2))
    else (readQuoted quote cs).map (fun r => (c :: r.1, r.2))

/-- The rest of a word from its last character read so far on, and what follows it unless
that is a comment. Blanks and quotes end a word, and two slashes end the line; the first
of the two is no part of the word then. -/
def readWord (last : Char) : List Char → List Char × Option (List Char)
  | [] => ([last], some [])
  | c :: cs =>
    if isBlank c || isQuote c then ([last], some (c :: cs))
    else if c = '/' && last = '/' then ([], none)
    else
      let r := readWord c cs
      (last :: r.1, r.2)

/-- The quoted string is read by consuming characters. -/
theorem readQuoted_length {quote : Char} {cs : List Char} {r : List Char × List Char}
    (h : readQuoted quote cs = some r) : r.2.length < cs.length := by
  fun_induction readQuoted quote cs generalizing r with
  | case1 => simp at h
  | case2 => cases h; simp
  | case3 => simp at h
  | case4 _ _ _ escaped cs' ih =>
    obtain ⟨q, hq, rfl⟩ := Option.map_eq_some_iff.1 h
    have := ih hq
    simp only [List.length_cons]
    omega
  | case5 c cs _ _ ih =>
    obtain ⟨q, hq, rfl⟩ := Option.map_eq_some_iff.1 h
    have := ih hq
    simp only [List.length_cons]
    omega

/-- A word is read by consuming characters. -/
theorem readWord_length {last : Char} {cs rest : List Char}
    (h : (readWord last cs).2 = some rest) : rest.length ≤ cs.length := by
  fun_induction readWord last cs with
  | case1 => simp_all
  | case2 => simp_all
  | case3 => simp at h
  | case4 last c cs _ _ r ih =>
    have := ih h
    simp only [List.length_cons]
    omega

/-- **The tokens of a line,** or nothing if a quoted string is not closed. A word that
starts with a slash is a comment if another slash follows, and else goes on to the next
blank. -/
def tokens (cs : List Char) : Option (List (List Char)) :=
  match cs with
  | [] => some []
  | c :: rest =>
    if isBlank c then tokens rest
    else if c = '/' then
      if rest.head? = some '/' then some []
      else
        (tokens (rest.dropWhile (fun n => !isBlank n))).map
          (('/' :: rest.takeWhile (fun n => !isBlank n)) :: ·)
    else if isQuote c then
      match _h : readQuoted c rest with
      | none => none
      | some r => (tokens r.2).map (r.1 :: ·)
    else
      match _h : readWord c rest with
      | (word, none) => some [word]
      | (word, some rest') => (tokens rest').map (word :: ·)
termination_by cs.length
decreasing_by
  · simp
  · have := (List.dropWhile_suffix (l := rest) (fun n => !isBlank n)).length_le
    simp only [List.length_cons]
    omega
  · have := readQuoted_length _h
    simp only [List.length_cons]
    omega
  · have := readWord_length (congrArg Prod.snd _h)
    simp only [List.length_cons]
    omega

/-! ### Directives -/

/-- Whether the target of a replacement is written as a directory. -/
def isDirectoryTarget (path : String) : Bool :=
  startsWith "./" path || startsWith "../" path || path == "." || path == ".." ||
    startsWith "/" path

/-- What is replaced: a path, perhaps with a version. -/
def oldOf : List String → Except ModuleFault (String × Option String)
  | [path] => .ok (path, none)
  | [path, version] => .ok (path, some version)
  | _ => .error .replaceUsage

/-- What stands for it: a directory without a version, or a module with one. -/
def targetOf : List String → Except ModuleFault Replacement.Target
  | [path] =>
    if isDirectoryTarget path then .ok (.directory ⟨path⟩) else .error (.noVersion path)
  | [path, version] =>
    if isDirectoryTarget path then .error (.versionOfDirectory path)
    else .ok (.module path version)
  | _ => .error .replaceUsage

/-- **The replacement** that the tokens of an entry stand for. -/
def replacementOf (entry : List String) : Except ModuleFault Replacement :=
  if entry.contains "=>" then do
    let (oldPath, oldVersion) ← oldOf (entry.takeWhile (fun a => a != "=>"))
    let target ← targetOf ((entry.dropWhile (fun a => a != "=>")).drop 1)
    .ok ⟨oldPath, oldVersion, target⟩
  else .error .noArrow

/-- What has been read before the current line. -/
structure Read where
  /-- The path of the module. -/
  modulePath : Option String
  /-- The replacements. -/
  replacements : List Replacement
  /-- The directive of the open block and the line of its head. -/
  block : Option (String × Nat)
deriving Inhabited

/-- Adds a replacement to what has been read. -/
def Read.addReplacement (r : Read) (entry : List String) : Except ModuleFault Read :=
  (replacementOf entry).map (fun x => { r with replacements := r.replacements ++ [x] })

/-- Reads a line inside a block. -/
def Read.entry (r : Read) (verb : String) (entry : List String) :
    Except ModuleFault Read :=
  if entry = [")"] then .ok { r with block := none }
  else if verb = "replace" then r.addReplacement entry
  else if verb = "module" then .error .moduleBlock
  else .ok r

/-- Reads a line outside blocks. -/
def Read.directive (r : Read) (number : Nat) (verb : String) (args : List String) :
    Except ModuleFault Read :=
  if args = ["("] then .ok { r with block := some (verb, number) }
  else if verb = "module" then
    if r.modulePath.isSome then .error .repeatedModule
    else
      match args with
      | [path] =>
        if path = "" then .error .moduleUsage
        else .ok { r with modulePath := some path }
      | _ => .error .moduleUsage
  else if verb = "replace" then r.addReplacement args
  else .ok r

/-- **Reads one line,** given what has been read before. -/
def Read.line (r : Read) (number : Nat) (text : List Char) : Except ModuleError Read :=
  match tokens text with
  | none => .error (.malformed number .openQuote)
  | some ts =>
    match ts.map String.ofList with
    | [] => .ok r
    | verb :: args =>
      let result :=
        match r.block with
        | some (blockVerb, _) => r.entry blockVerb (verb :: args)
        | none => r.directive number verb args
      match result with
      | .ok r' => .ok r'
      | .error fault => .error (.malformed number fault)

/-- Reads lines from the given number on. -/
def Read.lines (r : Read) (number : Nat) : List (List Char) → Except ModuleError Read
  | [] => .ok r
  | text :: later =>
    match r.line number text with
    | .error e => .error e
    | .ok r' => r'.lines (number + 1) later

/-- The module file that has been read, if it is complete. -/
def Read.finish (r : Read) : Except ModuleError ModuleFile :=
  match r.block with
  | some (verb, number) => .error (.malformed number (.openBlock verb))
  | none =>
    match r.modulePath with
    | none => .error (.malformed 1 .noModule)
    | some path => .ok ⟨path, r.replacements⟩

/-- **The module file of a text.** -/
def parse (text : String) : Except ModuleError ModuleFile :=
  (Read.lines ⟨none, [], none⟩ 1 (Text.lines text.toList)).bind Read.finish

end ModuleFile

end GoPlanner

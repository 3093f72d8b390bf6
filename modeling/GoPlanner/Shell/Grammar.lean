import GoPlanner.Shell.Token

/-!
# The Grammar of Shell Scripts

A script is read by descent: lists consist of pipelines, pipelines of commands, commands
of words, and a word may hold a list again. Words are read character by character, since
what a character means depends on what surrounds it. Every step of the descent uses up a
character or goes one level down, so the depth that is needed is bounded by the length of
the script.

## Main definitions

* `Shell.Surrounding`: what surrounds the text of a word.
* `Shell.readPieces`: the pieces of a word.
* `Shell.readToken`: the next token.
* `Shell.readList`, `Shell.readCommand`: commands.
* `Shell.readLine`: the commands up to the end of a line.
-/

namespace GoPlanner

namespace Shell

/-- **What surrounds the text of a word.** -/
inductive Surrounding where
  /-- Nothing: blanks and operators end the word. -/
  | blanks
  /-- Quotation marks. -/
  | quotes
  /-- The lines of a document. -/
  | document
  /-- The parentheses of an expression. -/
  | expression
  /-- Nothing; the word is the line behind a document, in which nothing is expanded. -/
  | mark
deriving DecidableEq, Inhabited

namespace Surrounding

/-- Whether the text is not quoted by what surrounds it. -/
def isOpen : Surrounding → Bool
  | blanks => true
  | mark => true
  | _ => false

/-- Characters that a reverse solidus keeps from their meaning, where it does not quote
all characters. -/
def isEscapable (s : Surrounding) (isBraced : Bool) (c : Char) : Bool :=
  ['\\', '\x60', '$'].contains c || (c == '\x22' && (s != document || isBraced)) ||
    (c == '\x7d' && isBraced)

/-- Why a word cannot end with the script. -/
def fault? (s : Surrounding) (isBraced : Bool) : Option String :=
  match s with
  | expression => some "Missing \x27))\x27"
  | quotes => some "Unterminated quoted string"
  | _ => if isBraced then some "Missing \x27\x7d\x27" else none

/-- What surrounds the text behind the name of a parameter. -/
def inBraces (s : Surrounding) : Change → Surrounding
  | .withoutStart _ => blanks
  | .withoutEnd _ => blanks
  | _ => if s = expression then quotes else s

end Surrounding

/-- What the next token may be. -/
structure Expected where
  /-- Reserved words have their meaning. -/
  reserved : Bool := false
  /-- Line ends do not count. -/
  lines : Bool := false
  /-- Words may stand for other texts. -/
  aliases : Bool := false
  /-- The token is the line behind a document. -/
  isMark : Bool := false

/-- The beginning of a command. -/
def Expected.command : Expected :=
  { reserved := true, aliases := true }

/-- The beginning of a command on this line or a later one. -/
def Expected.later : Expected :=
  { reserved := true, lines := true, aliases := true }

/-- Where a list of commands may end. -/
inductive ListKind where
  /-- At the end of the line. -/
  | line
  /-- Behind at least one command. -/
  | block
  /-- Anywhere. -/
  | optional
deriving DecidableEq

/-! ### Parts that need no descent -/

/-- Characters that end a word. -/
def endsWord (c : Char) : Bool :=
  [' ', '\t', '\n', ';', '&', '|', '<', '>', '(', ')'].contains c

/-- Parameters that are named by one character. -/
def isSpecial (c : Char) : Bool :=
  c.isDigit || ['@', '*', '#', '?', '$', '!', '-'].contains c

/-- The builtin commands whose names no function may have. -/
def specialNames : List String :=
  [".", ":", "break", "continue", "eval", "exec", "exit", "export", "local", "readonly", "return",
    "set", "shift", "times", "trap", "unset"]

/-- Characters that stand for themselves. -/
def literal (isQuoted : Bool) (text : List Char) : Word :=
  text.map (fun c => .character c isQuoted)

/-- Whether something in a word is quoted. -/
def isQuotedWord (w : Word) : Bool :=
  w.any (fun
    | .character _ isQuoted => isQuoted
    | .quotes => true
    | _ => false)

/-- The characters of a word, quoted or not. -/
def charactersOf (w : Word) : String :=
  String.ofList (w.filterMap (fun
    | .character c _ => some c
    | _ => none))

/-- The word for all arguments. -/
def allArguments : Word :=
  [.quotes, .parameter "@" .none [] true, .quotes]

/-- The text up to a closing apostrophe. -/
def readSingle : Nat → Reading (List Char)
  | 0 => Reading.refuse "Unterminated quoted string"
  | n + 1 => do
    match ← Reading.peek with
    | none => Reading.refuse "Unterminated quoted string"
    | some c => do
      Reading.skip
      if c = '\x27' then pure []
      else pure (c :: (← readSingle n))

/-- The script up to a closing grave accent. -/
def readGrave (isOpen : Bool) : Nat → Reading (List Char)
  | 0 => Reading.refuse "EOF in backquote substitution"
  | n + 1 => do
    match ← Reading.peekJoined with
    | none => Reading.refuse "EOF in backquote substitution"
    | some c => do
      Reading.skip
      if c = '\x60' then pure []
      else if c = '\\' then
        match ← Reading.peek with
        | none => Reading.refuse "EOF in backquote substitution"
        | some d => do
          Reading.skip
          let later ← readGrave isOpen n
          if ['\\', '\x60', '$'].contains d || (d == '\x22' && !isOpen) then pure (d :: later)
          else pure ('\\' :: d :: later)
      else pure (c :: (← readGrave isOpen n))

/-- Uses up blanks and a comment. -/
def skipBlanks : Nat → Reading Unit
  | 0 => pure ()
  | n + 1 => do
    match ← Reading.peekJoined with
    | some ' ' => do
      Reading.skip
      skipBlanks n
    | some '\t' => do
      Reading.skip
      skipBlanks n
    | some '#' => modify (fun r => { r with rest := r.rest.dropWhile (fun c => c != '\n') })
    | _ => pure ()

/-- The rest of an operator that begins with a character. -/
def readOperator (c : Char) : Reading Token := do
  let next ← Reading.peekJoined
  if next = some c && c != '(' && c != ')' then do
    Reading.skip
    pure (.operator (String.ofList [c, c]))
  else pure (.operator (String.singleton c))

/-- The rest of an operator that redirects a channel. -/
def readRedirector (channel : Option Nat) (c : Char) : Reading Token := do
  let following := if c = '>' then ['>', '|', '&'] else ['<', '&', '>']
  match ← Reading.peekJoined with
  | some d =>
    if following.contains d then do
      Reading.skip
      if c = '<' && d = '<' && (← Reading.peekJoined) = some '-' then do
        Reading.skip
        pure (.redirection channel "<<-")
      else pure (.redirection channel (String.ofList [c, d]))
    else pure (.redirection channel (String.singleton c))
  | none => pure (.redirection channel (String.singleton c))

/-- The change that stands behind the name of a parameter in braces. A line that ends there
is not counted. -/
def readChange : Reading Change := do
  let next ← Reading.peekJoined
  if next = some '\n' then modify (fun r => { r with rest := r.rest.drop 1 }) else Reading.skip
  match next with
  | some '\x7d' => pure .none
  | some '-' => pure (.fallback false)
  | some '=' => pure (.assignment false)
  | some '?' => pure (.demand false)
  | some '+' => pure (.alternative false)
  | some '%' => do
    if (← Reading.peekJoined) = some '%' then do
      Reading.skip
      pure (.withoutEnd true)
    else pure (.withoutEnd false)
  | some '#' => do
    if (← Reading.peekJoined) = some '#' then do
      Reading.skip
      pure (.withoutStart true)
    else pure (.withoutStart false)
  | some ':' => do
    let next ← Reading.peekJoined
    Reading.skip
    match next with
    | some '-' => pure (.fallback true)
    | some '=' => pure (.assignment true)
    | some '?' => pure (.demand true)
    | some '+' => pure (.alternative true)
    | _ => pure .unknown
  | _ => pure .unknown

/-- The name behind the sign for a length, if a length is asked for. -/
def readLengthName : Reading (Option String) := do
  let n ← Reading.remaining
  match ← Reading.peekJoined with
  | none => pure none
  | some c =>
    if isNameStart c then pure (some (← Reading.takeJoined isNameChar n))
    else if c.isDigit then pure (some (← Reading.takeJoined Char.isDigit n))
    else if isSpecial c && (← get).rest[1]? = some '\x7d' then do
      Reading.skip
      pure (some (String.singleton c))
    else pure none

/-- The name of a parameter in braces and what is asked of its value. -/
def readBraced : Reading (String × Change) := do
  let n ← Reading.remaining
  match ← Reading.peekJoined with
  | none => pure ("", .unknown)
  | some c =>
    if isNameStart c then do
      let name ← Reading.takeJoined isNameChar n
      pure (name, ← readChange)
    else if c.isDigit then do
      let name ← Reading.takeJoined Char.isDigit n
      pure (name, ← readChange)
    else if c = '\x7d' then pure ("", .unknown)
    else do
      Reading.skip
      match c, ← (if c = '#' then readLengthName else pure none) with
      | '#', some name =>
        if (← Reading.peekJoined) = some '\x7d' then pure (name, .length)
        else pure (name, .unknown)
      | _, _ =>
        if isSpecial c then pure (String.singleton c, ← readChange)
        else pure ("", .unknown)

/-! ### Documents -/

/-- Whether a line is taken together with the next one. -/
def isContinued (line : List Char) : Bool :=
  (line.reverse.takeWhile (fun c => c == '\\')).length % 2 == 1

/-- The lines of a document, and what comes behind it. The number bounds the lines. -/
def documentLines (d : Awaited) : Nat → List Char → List Char × List Char
  | 0, cs => ([], cs)
  | _, [] => ([], [])
  | n + 1, cs =>
    let line := cs.takeWhile (fun c => c != '\n')
    let rest := cs.drop (line.length + 1)
    let shown := if d.dropsTabs then line.dropWhile (fun c => c == '\t') else line
    if String.ofList shown = d.mark then ([], rest)
    else
      let ended := if line.length < cs.length then shown ++ ['\n'] else shown
      if !d.isQuoted && isContinued line then
        let line' := rest.takeWhile (fun c => c != '\n')
        let rest' := rest.drop (line'.length + 1)
        let later := documentLines d n rest'
        (ended ++ line' ++ (if line'.length < rest.length then ['\n'] else []) ++ later.1, later.2)
      else
        let later := documentLines d n rest
        (ended ++ later.1, later.2)

/-! ### The descent -/

mutual

/-- **The pieces of a word,** up to what ends it. In an expression the open parentheses
are counted; in braces within quotation marks it matters whether further quotation marks
are open. -/
def readPieces (depth : Nat) (s : Surrounding) (isBraced isInner : Bool) (parentheses : Nat) :
    Reading Word :=
  match depth with
  | 0 => Reading.refuse "Out of space"
  | n + 1 => do
    let quoted := !s.isOpen
    match ← Reading.peekJoined with
    | none =>
      match s.fault? isBraced with
      | some text => Reading.refuse text
      | none => pure []
    | some c =>
      let continuing (first : Word) : Reading Word := do
        pure (first ++ (← readPieces n s isBraced isInner parentheses))
      let itself : Reading Word := do
        Reading.skip
        continuing [.character c quoted]
      if s.isOpen && !isBraced && endsWord c then pure []
      else if c = '\\' then do
        Reading.skip
        match ← Reading.peek with
        | none => continuing [.character '\\' true]
        | some d => do
          Reading.skip
          if s.isOpen || s.isEscapable isBraced d then continuing [.character d true]
          else continuing [.character '\\' true, .character d true]
      else if c = '\x27' && s.isOpen then do
        Reading.skip
        let text ← readSingle ((← Reading.remaining) + 1)
        continuing (.quotes :: literal true text ++ [.quotes])
      else if c = '\x22' && s.isOpen then do
        Reading.skip
        let inside ← readPieces n .quotes false false 0
        continuing (.quotes :: inside ++ [.quotes])
      else if c = '\x22' && s = .quotes && !isBraced then do
        Reading.skip
        pure []
      else if c = '\x22' && isBraced then do
        Reading.skip
        readPieces n s isBraced (!isInner) parentheses
      else if c = '$' && s != .mark then do
        Reading.skip
        continuing (← readDollar n s)
      else if c = '\x60' then do
        Reading.skip
        if s = .mark then continuing [.character c true]
        else continuing [.substitution (← readGraveCommand n s.isOpen) quoted]
      else if c = '\x7d' && isBraced && !isInner then do
        Reading.skip
        pure []
      else if c = '(' && s = .expression then do
        Reading.skip
        pure (.character c quoted :: (← readPieces n s isBraced isInner (parentheses + 1)))
      else if c = ')' && s = .expression then do
        Reading.skip
        if parentheses > 0 then
          pure (.character c quoted :: (← readPieces n s isBraced isInner (parentheses - 1)))
        else if (← Reading.peekJoined) = some ')' then do
          Reading.skip
          pure []
        else continuing [.character c quoted]
      else itself

/-- **What a dollar sign stands for.** -/
def readDollar (depth : Nat) (s : Surrounding) : Reading Word :=
  match depth with
  | 0 => Reading.refuse "Out of space"
  | n + 1 => do
    let quoted := !s.isOpen
    match ← Reading.peekJoined with
    | some '(' => do
      Reading.skip
      if (← Reading.peekJoined) = some '(' then do
        Reading.skip
        pure [.arithmetic (← readPieces n .expression false false 0) quoted]
      else pure [.substitution (← readEnclosed n) quoted]
    | some '\x7b' => do
      Reading.skip
      let (name, change) ← readBraced
      if change = .none then pure [.parameter name change [] quoted]
      else pure [.parameter name change (← readPieces n (s.inBraces change) true false 0) quoted]
    | some c =>
      if isNameStart c then do
        let name ← Reading.takeJoined isNameChar (← Reading.remaining)
        pure [.parameter name .none [] quoted]
      else if isSpecial c then do
        Reading.skip
        pure [.parameter (String.singleton c) .none [] quoted]
      else pure [.character '$' quoted]
    | none => pure [.character '$' quoted]

/-- The command behind an opening parenthesis, up to the closing one. -/
def readEnclosed (depth : Nat) : Reading Command :=
  match depth with
  | 0 => Reading.refuse "Out of space"
  | n + 1 => do
    let awaited := (← get).awaited
    modify (fun r => { r with awaited := [] })
    let command ← readList n .optional none
    let token ← readToken n {}
    modify (fun r => { r with awaited := awaited })
    if token.isOperator ")" then pure command
    else Reading.unexpected token (some (.operator ")"))

/-- The command behind a grave accent, up to the next one. It is read as a script of its
own. -/
def readGraveCommand (depth : Nat) (isOpen : Bool) : Reading Command :=
  match depth with
  | 0 => Reading.refuse "Out of space"
  | n + 1 => do
    let text ← readGrave isOpen ((← Reading.remaining) + 1)
    let outer ← get
    modify (fun r => { r with rest := text, line := 1, ahead := none, awaited := [], opened := [] })
    let command ← readList n .optional none
    modify (fun r => { outer with documents := r.documents, nextDocument := r.nextDocument })
    pure command

/-- The documents that begin behind the end of the line. -/
def readDocuments (depth : Nat) : Reading Unit :=
  match depth with
  | 0 => Reading.refuse "Out of space"
  | n + 1 => do
    match (← get).awaited with
    | [] => pure ()
    | d :: others => do
      let outer ← get
      let (body, rest) := documentLines d (outer.rest.length + 1) outer.rest
      let lines := (outer.rest.take (outer.rest.length - rest.length)).count '\n'
      let word ←
        if d.isQuoted then pure (literal true body)
        else do
          modify (fun r => { r with rest := body, awaited := [], opened := [] })
          readPieces n .document false false 0
      modify (fun r => { r with
        rest := rest
        line := outer.line + lines
        awaited := others
        opened := outer.opened
        documents := r.documents ++ [(d.number, word)] })
      readDocuments n

/-- The next token as it is written. -/
def readRaw (depth : Nat) (isMark : Bool) : Reading Token :=
  match depth with
  | 0 => Reading.refuse "Out of space"
  | n + 1 => do
    match (← get).ahead with
    | some token => do
      modify (fun r => { r with ahead := none })
      pure token
    | none => do
      skipBlanks ((← Reading.remaining) + 1)
      match ← Reading.peekJoined with
      | none => pure .scriptEnd
      | some c =>
        if c = '\n' then do
          Reading.skip
          pure .lineEnd
        else if ['&', '|', ';', '(', ')'].contains c then do
          Reading.skip
          readOperator c
        else do
          let pieces ← readPieces n (if isMark then .mark else .blanks) false false 0
          let text := (plain? pieces).map String.toList
          match text, ← Reading.peekJoined with
          | some [], some d => do
            Reading.skip
            readRedirector none d
          | some [digit], some d =>
            if digit.isDigit && (d = '<' || d = '>') then do
              Reading.skip
              readRedirector (some (digit.toNat - 48)) d
            else pure (.word pieces false)
          | _, _ => pure (.word pieces (isQuotedWord pieces))

/-- **The next token** with the meaning that it has where it stands. -/
def readToken (depth : Nat) (e : Expected) : Reading Token :=
  match depth with
  | 0 => Reading.refuse "Out of space"
  | n + 1 => do
    match ← readRaw n e.isMark with
    | .lineEnd =>
      if e.lines then do
        readDocuments n
        readToken n e
      else pure .lineEnd
    | .word pieces false => do
      let r ← get
      match plain? pieces with
      | none => pure (.word pieces false)
      | some text =>
        let opened := r.opened.filter (fun o => decide (o.2 < r.rest.length))
        match r.aliases.lookup text with
        | some meaning =>
          if e.reserved && reservedWords.contains text then pure (.reserved text)
          else if e.aliases && (opened.lookup text).isNone then do
            set { r with
              rest := meaning.toList ++ r.rest
              opened := (text, r.rest.length) :: opened }
            readToken n e
          else pure (.word pieces false)
        | none =>
          if e.reserved && reservedWords.contains text then pure (.reserved text)
          else pure (.word pieces false)
    | token => pure token

/-- **A list of commands,** behind those that were read. -/
def readList (depth : Nat) (kind : ListKind) (before : Option Command) : Reading Command :=
  match depth with
  | 0 => Reading.refuse "Out of space"
  | n + 1 => do
    let token ← readToken n (if kind = .line then .command else .later)
    match token with
    | .lineEnd => do
      readDocuments n
      pure (before.getD .skip)
    | .scriptEnd => do
      readDocuments n
      Reading.putBack .scriptEnd
      pure (before.getD .skip)
    | _ => do
      Reading.putBack token
      if token.endsList && (kind = .optional || (kind = .block && before.isSome)) then
        pure (before.getD .skip)
      else do
        let command ← readAndOr n
        let behind ← readToken n {}
        let command := if behind.isOperator "&" then .background command else command
        let all := match before with
          | some c => Command.sequence c command
          | none => command
        match behind with
        | .scriptEnd => do
          readDocuments n
          Reading.putBack .scriptEnd
          pure all
        | .lineEnd => do
          Reading.putBack .lineEnd
          readList n kind (some all)
        | _ =>
          if behind.isOperator "&" || behind.isOperator ";" then readList n kind (some all)
          else if kind = .line then Reading.unexpected behind none
          else do
            Reading.putBack behind
            pure all

/-- Pipelines that depend on each other. -/
def readAndOr (depth : Nat) : Reading Command :=
  match depth with
  | 0 => Reading.refuse "Out of space"
  | n + 1 => do
    readAndOrBehind n (← readPipeline n .command)

/-- Pipelines behind one that they depend on. -/
def readAndOrBehind (depth : Nat) (first : Command) : Reading Command :=
  match depth with
  | 0 => Reading.refuse "Out of space"
  | n + 1 => do
    let token ← readToken n {}
    if token.isOperator "&&" then do
      readAndOrBehind n (.both first (← readPipeline n .later))
    else if token.isOperator "||" then do
      readAndOrBehind n (.either first (← readPipeline n .later))
    else do
      Reading.putBack token
      pure first

/-- A pipeline, which may be negated. -/
def readPipeline (depth : Nat) (e : Expected) : Reading Command :=
  match depth with
  | 0 => Reading.refuse "Out of space"
  | n + 1 => do
    let token ← readToken n e
    if token.isReserved "!" then do
      let first ← readCommand n .command
      pure (.negated (← readStages n [first]))
    else do
      Reading.putBack token
      let first ← readCommand n e
      readStages n [first]

/-- The stages of a pipeline, behind those that were read. -/
def readStages (depth : Nat) (stages : List Command) : Reading Command :=
  match depth with
  | 0 => Reading.refuse "Out of space"
  | n + 1 => do
    let token ← readToken n {}
    if token.isOperator "|" then do
      let next ← readCommand n .later
      readStages n (stages ++ [next])
    else do
      Reading.putBack token
      match stages with
      | [only] => pure only
      | _ => pure (.pipeline stages)

/-- A token that must be a reserved word, and a list behind it. -/
def readBlock (depth : Nat) (word : String) : Reading Command :=
  match depth with
  | 0 => Reading.refuse "Out of space"
  | n + 1 => do
    let token ← readToken n {}
    if token.isReserved word then readList n .block none
    else Reading.unexpected token (some (.reserved word))

/-- **A command.** -/
def readCommand (depth : Nat) (e : Expected) : Reading Command :=
  match depth with
  | 0 => Reading.refuse "Out of space"
  | n + 1 => do
    let line := (← get).line
    let token ← readToken n e
    match token with
    | .word _ _ => do
      Reading.putBack token
      readSimple n (← get).line [] [] [] true
    | .redirection _ _ => do
      Reading.putBack token
      readSimple n (← get).line [] [] [] true
    | .operator "(" => do
      let inner ← readList n .block none
      let close ← readToken n {}
      if close.isOperator ")" then do
        pure (.subshell line inner (← readRedirections n))
      else Reading.unexpected close (some (.operator ")"))
    | .reserved "\x7b" => do
      readEnd n line "\x7d" (← readList n .block none)
    | .reserved "if" => do
      readEnd n line "fi" (← readCondition n)
    | .reserved "while" => do
      let test ← readList n .block none
      readEnd n line "done" (.repeated false test (← readBlock n "do"))
    | .reserved "until" => do
      let test ← readList n .block none
      readEnd n line "done" (.repeated true test (← readBlock n "do"))
    | .reserved "for" => do
      readEnd n line "done" (← readLoop n line)
    | .reserved "case" => do
      let word ← readToken n {}
      match word with
      | .word pieces _ => do
        let next ← readToken n .later
        if next.isReserved "in" then do
          let arms ← readArms n
          readRedirected n line (.choice line pieces arms)
        else Reading.unexpected next (some (.reserved "in"))
      | other => Reading.unexpected other (some (.word [] false))
    | other => Reading.unexpected other none

/-- The end of a compound command, with its redirections. -/
def readEnd (depth : Nat) (line : Nat) (word : String) (command : Command) : Reading Command :=
  match depth with
  | 0 => Reading.refuse "Out of space"
  | n + 1 => do
    let token ← readToken n {}
    if token.isReserved word then readRedirected n line command
    else Reading.unexpected token (some (.reserved word))

/-- A compound command with the redirections behind it. -/
def readRedirected (depth : Nat) (line : Nat) (command : Command) : Reading Command :=
  match depth with
  | 0 => Reading.refuse "Out of space"
  | n + 1 => do
    match ← readRedirections n with
    | [] => pure command
    | redirections => pure (.redirected line command redirections)

/-- Redirections behind a command. -/
def readRedirections (depth : Nat) : Reading (List Redirection) :=
  match depth with
  | 0 => Reading.refuse "Out of space"
  | n + 1 => do
    match ← readToken n .command with
    | .redirection channel text => do
      let r ← readRedirection n channel text
      pure (r :: (← readRedirections n))
    | token => do
      Reading.putBack token
      pure []

/-- The rest of a condition, behind its first word. -/
def readCondition (depth : Nat) : Reading Command :=
  match depth with
  | 0 => Reading.refuse "Out of space"
  | n + 1 => do
    let test ← readList n .block none
    let success ← readBlock n "then"
    let token ← readToken n {}
    if token.isReserved "elif" then do
      pure (.condition test success (← readCondition n))
    else if token.isReserved "else" then do
      pure (.condition test success (← readList n .block none))
    else do
      Reading.putBack token
      pure (.condition test success .skip)

/-- The rest of a loop over words, behind its first word. -/
def readLoop (depth : Nat) (line : Nat) : Reading Command :=
  match depth with
  | 0 => Reading.refuse "Out of space"
  | n + 1 => do
    let name := match ← readToken n {} with
      | .word pieces false => (plain? pieces).filter isName
      | _ => none
    match name with
    | none => Reading.refuse "Bad for loop variable"
    | some name => do
      let token ← readToken n .later
      let words ←
        if token.isReserved "in" then readWords n
        else do
          if !token.isOperator ";" then Reading.putBack token
          pure [allArguments]
      let next ← readToken n .later
      if next.isReserved "do" then do
        pure (.loop line name words (← readList n .block none))
      else Reading.unexpected next (some (.reserved "do"))

/-- The words of a loop, up to the end of the line. -/
def readWords (depth : Nat) : Reading (List Word) :=
  match depth with
  | 0 => Reading.refuse "Out of space"
  | n + 1 => do
    match ← readToken n {} with
    | .word pieces _ => do
      pure (pieces :: (← readWords n))
    | .lineEnd => do
      readDocuments n
      pure []
    | token =>
      if token.isOperator ";" then pure []
      else Reading.unexpected token none

/-- The arms of a choice. -/
def readArms (depth : Nat) : Reading (List (List Word × Command)) :=
  match depth with
  | 0 => Reading.refuse "Out of space"
  | n + 1 => do
    let first ← readToken n { reserved := true, lines := true }
    if first.isReserved "esac" then pure []
    else do
      let patterns ← readPatterns n
        (← (if first.isOperator "(" then readToken n {} else pure first))
      let body ← readList n .optional none
      let behind ← readToken n { reserved := true, lines := true }
      if behind.isReserved "esac" then pure [(patterns, body)]
      else if behind.isOperator ";;" then do
        pure ((patterns, body) :: (← readArms n))
      else Reading.unexpected behind (some (.operator ";;"))

/-- The patterns of an arm, from the token of the first one on. -/
def readPatterns (depth : Nat) (first : Token) : Reading (List Word) :=
  match depth with
  | 0 => Reading.refuse "Out of space"
  | n + 1 => do
    let pattern := match first with
      | .word pieces _ => pieces
      | .reserved text => literal false text.toList
      | _ => []
    let behind ← readToken n {}
    if behind.isOperator "|" then do
      let next ← readToken n {}
      pure (pattern :: (← readPatterns n next))
    else if behind.isOperator ")" then pure [pattern]
    else Reading.unexpected behind (some (.operator ")"))

/-- A redirection behind its operator. -/
def readRedirection (depth : Nat) (channel : Option Nat) (text : String) : Reading Redirection :=
  match depth with
  | 0 => Reading.refuse "Out of space"
  | n + 1 => do
    let isDocument := text == "<<" || text == "<<-"
    match ← readToken n { isMark := isDocument } with
    | .word pieces isQuoted => do
      let channel := channel.getD (if text.startsWith "<" then 0 else 1)
      if isDocument then do
        let number ← Reading.newDocument (charactersOf pieces) isQuoted (text == "<<-")
        pure (.document channel number)
      else if text = ">&" || text = "<&" then pure (.channel channel pieces)
      else
        let opening : Opening :=
          if text = "<" then .reading
          else if text = "<>" then .both
          else if text = ">>" then .appending
          else if text = ">|" then .overwriting
          else .writing
        pure (.file channel opening pieces)
    | token => Reading.unexpected token none

/-- **A simple command,** behind the parts that were read. Words may be assignments or
stand for other texts up to the first one that is neither. -/
def readSimple (depth : Nat) (line : Nat) (assignments : List (String × Word))
    (words : List Word) (redirections : List Redirection) (isStart : Bool) : Reading Command :=
  match depth with
  | 0 => Reading.refuse "Out of space"
  | n + 1 => do
    match ← readToken n { aliases := isStart } with
    | .word pieces _ =>
      match isStart, assignment? pieces with
      | true, some a => readSimple n line (assignments ++ [a]) words redirections true
      | _, _ => readSimple n line assignments (words ++ [pieces]) redirections false
    | .redirection channel text => do
      let r ← readRedirection n channel text
      readSimple n line assignments words (redirections ++ [r]) isStart
    | token =>
      match token.isOperator "(", assignments, words, redirections with
      | true, [], [name], [] => do
        let close ← readToken n {}
        if !close.isOperator ")" then Reading.unexpected close (some (.operator ")"))
        else
          match plain? name with
          | some text =>
            if isName text && !specialNames.contains text then do
              let line := (← get).line
              pure (.definition line text (← readCommand n .later))
            else Reading.refuse "Bad function name"
          | none => Reading.refuse "Bad function name"
      | _, _, _, _ => do
        Reading.putBack token
        pure (.simple line assignments words redirections)

end

/-! ### Scripts -/

/-- The depth that suffices to read a script. -/
def depthFor (script : List Char) : Nat :=
  16 * script.length + 64

/-- **The commands up to the end of a line,** unless the script is at its end. -/
def readLine : Reading (Option Command) := do
  let r ← get
  let depth := depthFor r.rest + (r.aliases.map (fun a => 16 * a.2.length)).foldl (· + ·) 0
  match ← readToken depth .command with
  | .scriptEnd => pure none
  | token => do
    Reading.putBack token
    pure (some (← readList depth .line none))

end Shell

end GoPlanner

import GoPlanner.Text.Numeral
import GoPlanner.Text.Regular.Basic

/-!
# Reading Regular Expressions

Regular expressions are written in one of two styles. In the plain style parentheses,
braces and bars mean something behind a reverse solidus only, and a star or a circumflex
stands for itself where it could not mean anything; in the extended style it is the other
way round. An expression is divided into signs first, which are the same for both styles.

## Main definitions

* `Regular.Style`: how expressions are written.
* `Regular.Fault`: why an expression cannot be read.
* `Regular.signs`: the signs of an expression.
* `Regular.read`: reads expressions.
-/

namespace GoPlanner

namespace Regular

/-- **How expressions are written.** -/
structure Style where
  /-- Whether operators stand without a reverse solidus. -/
  isExtended : Bool := false
  /-- Whether letters behind a reverse solidus stand for control characters. -/
  readsEscapes : Bool := false
  /-- Whether operators that stand where they mean nothing are let pass. -/
  isLenient : Bool := false
deriving DecidableEq, Inhabited

/-- **Why an expression cannot be read.** -/
inductive Fault where
  /-- A bracket is not closed. -/
  | openBracket
  /-- A group is not closed. -/
  | openGroup
  /-- A group is closed that is not open. -/
  | closedGroup
  /-- Braces are not closed. -/
  | openCount
  /-- Braces do not hold numbers. -/
  | wrongCount
  /-- A number in braces is too great. -/
  | greatCount
  /-- Nothing stands in front of a repetition. -/
  | nothingRepeated
  /-- There is no such group. -/
  | noGroup
  /-- A reverse solidus stands at the end. -/
  | openEscape
  /-- A range ends before it begins. -/
  | wrongRange
  /-- There is no such class of characters. -/
  | noClass
deriving DecidableEq, Inhabited

/-- The message for the user. -/
def Fault.message : Fault → String
  | openBracket => "Unmatched [, [^, [:, [., or [="
  | openGroup => "Unmatched ( or \\("
  | closedGroup => "Unmatched ) or \\)"
  | openCount => "Unmatched \\\x7b"
  | wrongCount => "Invalid content of \\\x7b\\\x7d"
  | greatCount => "Regular expression too big"
  | nothingRepeated => "Invalid preceding regular expression"
  | noGroup => "Invalid back reference"
  | openEscape => "Trailing backslash"
  | wrongRange => "Invalid range end"
  | noClass => "Invalid character class name"

/-! ### Signs -/

/-- **Signs** of expressions. -/
inductive Sign where
  /-- An expression that has no parts. -/
  | simple (r : Regular)
  /-- A repetition of what is in front of it. -/
  | times (least : Nat) (most : Option Nat)
  /-- The beginning of a group. -/
  | opening
  /-- The end of a group. -/
  | closing
  /-- Between two expressions of which one counts. -/
  | bar
deriving Inhabited

/-- The characters that letters behind a reverse solidus stand for. -/
def controls : List (Char × Char) :=
  [('n', '\n'), ('t', '\t'), ('r', '\r'), ('a', '\x07'), ('f', '\x0c'), ('v', '\x0b')]

/-- The characters of words, as a class. -/
def wordMembers : List Wildcard.Member :=
  [.named "alnum", .range '_' '_']

/-- What a character behind a reverse solidus stands for in both styles. -/
def escaped (style : Style) (c : Char) : Regular :=
  match (if style.readsEscapes then controls.lookup c else none) with
  | some control => .one (.only control)
  | none =>
    match c with
    | 'w' => .one (.oneOf false wordMembers)
    | 'W' => .one (.oneOf true wordMembers)
    | 's' => .one (.oneOf false [.named "space"])
    | 'S' => .one (.oneOf true [.named "space"])
    | 'b' => .spot .wordEdge
    | 'B' => .spot .noWordEdge
    | '<' => .spot .wordStart
    | '>' => .spot .wordStop
    | '\x60' => .spot .start
    | '\x27' => .spot .stop
    | _ =>
      if c.isDigit && c != '0' then .again (c.toNat - 48) else .one (.only c)

/-- What stands before a comma or the closing brace, which of them it is, and what
follows. -/
def readCount (style : Style) : List Char → List Char × Option Char × List Char
  | [] => ([], none, [])
  | ',' :: rest => ([], some ',', rest)
  | c :: rest =>
    match style.isExtended, c, rest with
    | true, '\x7d', _ => ([], some c, rest)
    | false, '\\', '\x7d' :: rest => ([], some '\x7d', rest)
    | _, _, _ =>
      let later := readCount style rest
      (c :: later.1, later.2)

/-- The greatest number of repetitions that can be asked for. -/
def maxCount : Nat := 32767

/-- The counts in braces behind the opening one, with what follows the closing one. -/
def readCounts (style : Style) (cs : List Char) :
    Except Fault (Nat × Option Nat × List Char) :=
  let number (text : List Char) : Option Nat :=
    (Numeral.readIn 10 text).bind (fun r => if r.2.isEmpty then some r.1 else none)
  let counts (least : Nat) (most : Option Nat) (rest : List Char) :
      Except Fault (Nat × Option Nat × List Char) :=
    if most.any (· < least) then .error .wrongCount
    else if maxCount < most.getD least then .error .greatCount
    else .ok (least, most, rest)
  match readCount style cs with
  | (_, none, _) => .error .openCount
  | (first, some ',', rest) =>
    match readCount style rest with
    | (_, none, _) => if first.isEmpty || (number first).isSome then .error .openCount
      else .error .wrongCount
    | (second, some '\x7d', rest) =>
      if !first.isEmpty && (number first).isNone then .error .wrongCount
      else if second.isEmpty then counts ((number first).getD 0) none rest
      else
        match number second with
        | some most => counts ((number first).getD 0) (some most) rest
        | none => .error .wrongCount
    | _ => .error .wrongCount
  | (first, _, rest) =>
    match number first with
    | some n => counts n (some n) rest
    | none => .error .wrongCount

/-- Characters in brackets, in which control characters may be written with a reverse
solidus. -/
def withControls : List Char → List Char
  | '\\' :: c :: cs =>
    match controls.lookup c with
    | some control => control :: withControls cs
    | none => '\\' :: withControls (c :: cs)
  | c :: cs => c :: withControls cs
  | [] => []
termination_by cs => cs.length

/-- Whether what stands up to a bracket ends like the name of a class, but of none that
there is. -/
def isClassName (inside : List Char) : Bool :=
  match inside.reverse with
  | ':' :: before =>
    let name := before.takeWhile Char.isAlpha
    match before.drop name.length with
    | ':' :: '[' :: _ => (Wildcard.classOf? (String.ofList name.reverse)).isNone
    | _ => false
  | _ => false

/-- The kind of character that brackets stand for, behind the opening one, with what
follows the closing one. -/
def readBrackets (style : Style) (cs : List Char) : Except Fault (Kind × List Char) :=
  let inside := cs.takeWhile (fun c => c != ']')
  let cs := if style.readsEscapes then withControls inside ++ cs.drop inside.length else cs
  match Wildcard.readBrackets ['^'] (cs.map (fun c => (c, false))) with
  | some (.oneOf isNegated members, rest) =>
    if members.any (fun
      | .range first last => last < first
      | .named _ => false) then .error .wrongRange
    else if isClassName inside then .error .noClass
    else .ok (.oneOf isNegated members, rest.map (·.1))
  | _ => .error .openBracket

/-- Whether a plain expression ends here, or one of its groups or parts. -/
def isAtEnd : List Char → Bool
  | [] => true
  | '\\' :: ')' :: _ => true
  | '\\' :: '|' :: _ => true
  | _ => false

/-- The signs of an expression in the extended style that are operators. -/
def operator? (c : Char) : Option Sign :=
  match c with
  | '(' => some .opening
  | ')' => some .closing
  | '|' => some .bar
  | '*' => some (.times 0 none)
  | '+' => some (.times 1 none)
  | '?' => some (.times 0 (some 1))
  | _ => none

/-- Whether an expression begins behind a sign. -/
def beginsBehind : Sign → Bool
  | .opening => true
  | .bar => true
  | _ => false

/-- The first sign of an expression, with what follows it. It matters whether the
expression or a part of it begins here. -/
def readSign (style : Style) (isStart : Bool) (c : Char) (cs : List Char) :
    Except Fault (Sign × List Char) :=
  match c, cs with
  | '\\', [] => .error .openEscape
  | '\\', d :: rest =>
    if style.isExtended then .ok (.simple (escaped style d), rest)
    else if d = '\x7b' then
      if isStart then .error .nothingRepeated
      else
        (readCounts style rest).map (fun r => (.times r.1 r.2.1, r.2.2))
    else
      match operator? d with
      | some (.times least most) =>
        if d = '*' then .ok (.simple (.one (.only '*')), rest)
        else if isStart then .ok (.simple (.one (.only d)), rest)
        else .ok (.times least most, rest)
      | some sign => .ok (sign, rest)
      | none => .ok (.simple (escaped style d), rest)
  | '.', _ => .ok (.simple (.one .any), cs)
  | '[', _ => (readBrackets style cs).map (fun r => (.simple (.one r.1), r.2))
  | '^', _ =>
    .ok (.simple (if style.isExtended || isStart then .spot .start else .one (.only '^')), cs)
  | '$', _ =>
    .ok (.simple (if style.isExtended || isAtEnd cs then .spot .stop else .one (.only '$')), cs)
  | '*', _ =>
    .ok (if style.isExtended || !isStart then .times 0 none else .simple (.one (.only '*')), cs)
  | '\x7b', _ =>
    if style.isExtended then
      match readCounts style cs with
      | .ok (least, most, later) => .ok (.times least most, later)
      | .error fault =>
        if style.isLenient && (fault = .openCount || fault = .wrongCount) &&
            (cs.takeWhile (fun d => d != '\x7d')).any (fun d => !d.isDigit && d != ',') ||
            style.isLenient && fault = .openCount then
          .ok (.simple (.one (.only c)), cs)
        else .error fault
    else .ok (.simple (.one (.only c)), cs)
  | _, _ =>
    match style.isExtended, operator? c with
    | true, some sign => .ok (sign, cs)
    | _, _ => .ok (.simple (.one (.only c)), cs)

/-- Whether a repetition stands behind another one, where that is wrong. -/
def isTwice (style : Style) (sign : Sign) (rest : List Char) : Bool :=
  match sign, rest with
  | .times _ _, '*' :: _ => !style.isExtended && !style.isLenient
  | .times _ _, '\\' :: '\x7b' :: _ => !style.isExtended && !style.isLenient
  | _, _ => false

/-- **The signs of an expression.** -/
def signs (style : Style) (isStart : Bool) (cs : List Char) : Except Fault (List Sign) :=
  match cs with
  | [] => .ok []
  | c :: cs =>
    match readSign style isStart c cs with
    | .error fault => .error fault
    | .ok (sign, rest) =>
      let isCircumflex := !style.isExtended && isStart && c == '^'
      if isTwice style sign rest then .error .nothingRepeated
      else if rest.length ≤ cs.length then
        (signs style (beginsBehind sign || isCircumflex) rest).map (sign :: ·)
      else .ok [sign]
termination_by cs.length

/-- Signs in which the ends of groups that are not open stand for themselves. The number
is that of the open groups. -/
def withLooseEnds : Nat → List Sign → List Sign
  | n, .opening :: rest => .opening :: withLooseEnds (n + 1) rest
  | 0, .closing :: rest => .simple (.one (.only ')')) :: withLooseEnds 0 rest
  | n + 1, .closing :: rest => .closing :: withLooseEnds n rest
  | n, sign :: rest => sign :: withLooseEnds n rest
  | _, [] => []

/-- Whether an expression only says where it is. -/
def isSpot : Regular → Bool
  | .spot _ => true
  | _ => false

/-! ### Expressions -/

/-- An expression with the repetitions behind it. -/
def withTimes (r : Regular) : List Sign → Regular × List Sign
  | .times least most :: rest => withTimes (.repeated r least most) rest
  | rest => (r, rest)

mutual

/-- Expressions between bars, with the signs behind them and the number of groups. The
first number bounds the depth. -/
def readEither (style : Style) (depth : Nat) (signs : List Sign) (groups : Nat) :
    Except Fault (Regular × List Sign × Nat) :=
  match depth with
  | 0 => .error .nothingRepeated
  | n + 1 => do
    let (first, rest, groups) ← readBoth style n signs groups
    match rest with
    | .bar :: rest => do
      let (second, rest, groups) ← readEither style n rest groups
      pure (.either first second, rest, groups)
    | _ => pure (first, rest, groups)

/-- Expressions one behind the other. -/
def readBoth (style : Style) (depth : Nat) (signs : List Sign) (groups : Nat) :
    Except Fault (Regular × List Sign × Nat) :=
  match depth with
  | 0 => .error .nothingRepeated
  | n + 1 =>
    match signs with
    | .simple r :: rest => do
      if let .again number := r then
        if groups < number then throw .noGroup
      let isBare := style.isExtended && !style.isLenient && r.isSpot
      let (first, rest) := if isBare then (r, rest) else withTimes r rest
      let (second, rest, groups) ← readBoth style n rest groups
      pure (.both first second, rest, groups)
    | .opening :: rest => do
      let number := groups + 1
      let (inside, rest, groups) ← readEither style n rest number
      match rest with
      | .closing :: rest => do
        let (first, rest) := withTimes (.group number inside) rest
        let (second, rest, groups) ← readBoth style n rest groups
        pure (.both first second, rest, groups)
      | _ => throw .openGroup
    | .times _ _ :: rest =>
      if style.isExtended && !style.isLenient then .error .nothingRepeated
      else readBoth style n rest groups
    | signs => pure (.empty, signs, groups)

end

/-- **Reads an expression;** the answer includes the number of its groups. -/
def read (style : Style) (text : String) : Except Fault (Regular × Nat) := do
  let found ← signs style true text.toList
  let found := if style.isExtended && style.isLenient then withLooseEnds 0 found else found
  let (r, rest, groups) ← readEither style (2 * found.length + 2) found 0
  if rest.isEmpty then pure (r, groups) else throw .closedGroup

end Regular

end GoPlanner

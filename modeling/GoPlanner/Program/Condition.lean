import GoPlanner.FileTree.Read
import GoPlanner.Program.Basic
import GoPlanner.Text.Numeral

/-!
# Conditions

A condition compares words, or asks what a file is. Whether a word is an operator depends
on the words around it, and a condition of three words is told by its middle one.

## Main definitions

* `Condition.Kind`: what a word of a condition is.
* `Condition.holds`: whether a condition holds.
* `Program.test`: a program that succeeds if a condition holds.
-/

namespace GoPlanner

namespace Condition

/-! ### Operators -/

/-- **What a word of a condition is.** -/
inductive Kind where
  /-- There is no word. -/
  | nothing
  /-- A text. -/
  | operand
  /-- An operator in front of a word. -/
  | unary
  /-- An operator between two words. -/
  | binary
  /-- An exclamation mark. -/
  | negation
  /-- Both conditions must hold. -/
  | conjunction
  /-- One of two conditions must hold. -/
  | disjunction
  /-- An opening parenthesis. -/
  | opening
  /-- A closing parenthesis. -/
  | closing
deriving DecidableEq, Inhabited

/-- The operators in front of a word. -/
def unaryOperators : List String :=
  ["-r", "-w", "-x", "-e", "-f", "-d", "-c", "-b", "-p", "-u", "-g", "-k", "-s", "-t", "-z", "-n",
    "-h", "-O", "-G", "-L", "-S"]

/-- The operators between two words. -/
def binaryOperators : List String :=
  ["=", "!=", "<", ">", "-eq", "-ne", "-ge", "-gt", "-le", "-lt", "-nt", "-ot", "-ef"]

/-- What the first of some words is. An operator in front of a word is a text if nothing
follows it, or an operator between two words. -/
def kindOf : List String → Kind
  | [] => .nothing
  | word :: rest =>
    if binaryOperators.contains word then .binary
    else if unaryOperators.contains word then
      match rest with
      | [] => .operand
      | [_] => .unary
      | next :: _ => if binaryOperators.contains next then .operand else .unary
    else if word = "!" then .negation
    else if word = "-a" then .conjunction
    else if word = "-o" then .disjunction
    else if word = "(" && !rest.isEmpty then .opening
    else if word = ")" then .closing
    else .operand

/-! ### Simple conditions -/

/-- The number that a word stands for. -/
def number (word : String) : Except String Int :=
  match Numeral.readSigned (Numeral.readIn 10) word.toList with
  | some (n, rest) =>
    if rest.all Numeral.isSpace && Numeral.limited n = n then .ok n
    else .error ("Illegal number: " ++ word)
  | none => .error ("Illegal number: " ++ word)

/-- The time at which a file was last changed. -/
def modified? (t : FileTree) (word : String) : Option Int :=
  (t.modified (Program.pathOf word)).toOption

/-- A condition on one word. -/
def holdsOf (t : FileTree) (operator word : String) : Except String Bool :=
  let p := Program.pathOf word
  match operator with
  | "-n" => .ok (word != "")
  | "-z" => .ok (word == "")
  | "-f" => .ok (t.isFile p && word != "/dev/null")
  | "-d" => .ok (t.isDirectory p)
  | "-h" => .ok (t.isLink p)
  | "-L" => .ok (t.isLink p)
  | "-s" => .ok (match t.content p with
    | .ok c => !c.toBytes.isEmpty
    | .error _ => t.isDirectory p)
  | "-x" => .ok (match t.find p with
    | .ok (_, .file _ isExecutable) => isExecutable
    | .ok _ => true
    | .error _ => false)
  | "-t" => (number word).map (fun _ => false)
  | "-c" => .ok (word == "/dev/null")
  | _ =>
    .ok (["-e", "-r", "-w", "-O", "-G"].contains operator &&
      (t.isPresent p || word == "/dev/null"))

/-- A condition on two words. -/
def holdsBetween (t : FileTree) (a operator b : String) : Except String Bool :=
  let times (f : Int → Int → Bool) : Bool :=
    match modified? t a, modified? t b with
    | some m, some n => f m n
    | _, _ => false
  let numbers (f : Int → Int → Bool) : Except String Bool := do
    pure (f (← number a) (← number b))
  match operator with
  | "=" => .ok (a == b)
  | "!=" => .ok (a != b)
  | "<" => .ok (decide (a < b))
  | ">" => .ok (decide (b < a))
  | "-eq" => numbers (· == ·)
  | "-ne" => numbers (· != ·)
  | "-ge" => numbers (fun m n => decide (m ≥ n))
  | "-gt" => numbers (fun m n => decide (m > n))
  | "-le" => numbers (fun m n => decide (m ≤ n))
  | "-lt" => numbers (fun m n => decide (m < n))
  | "-nt" => .ok (times (fun m n => decide (m > n)))
  | "-ot" => .ok (times (fun m n => decide (m < n)))
  | _ => .ok (match t.resolve (Program.pathOf a), t.resolve (Program.pathOf b) with
    | .ok p, .ok q => p == q
    | _, _ => false)

/-! ### Conditions -/

/-- The value of a condition, and the words from its last one on. -/
abbrev Reading : Type :=
  Except String (Bool × List String)

mutual

/-- A condition without connectives. -/
def single (depth : Nat) (t : FileTree) (kind : Kind) (words : List String) : Reading :=
  match depth with
  | 0 => .error "unexpected operator"
  | n + 1 =>
    match kind, words with
    | .nothing, words => .ok (false, words)
    | .opening, _ :: rest =>
      if kindOf rest = .closing then .ok (false, rest)
      else do
        let (value, words) ← anyOf n t (kindOf rest) rest
        if kindOf words.tail = .closing then pure (value, words.tail)
        else throw "closing paren expected"
    | .unary, operator :: rest =>
      match rest with
      | [] => .error (operator ++ ": argument expected")
      | word :: _ => (holdsOf t operator word).map (fun value => (value, rest))
    | _, word :: rest =>
      if kindOf rest = .binary then
        match rest with
        | operator :: b :: more =>
          (holdsBetween t word operator b).map (fun value => (value, b :: more))
        | [operator] => .error (operator ++ ": argument expected")
        | [] => .ok (false, [])
      else .ok (word != "", words)
    | _, [] => .ok (false, [])

/-- A condition that may be negated. -/
def negated (depth : Nat) (t : FileTree) (kind : Kind) (words : List String) : Reading :=
  match depth with
  | 0 => .error "unexpected operator"
  | n + 1 =>
    if kind = .negation then do
      let next := kindOf words.tail
      let (value, words) ← negated n t next (if next = .nothing then words else words.tail)
      pure (!value, words)
    else single n t kind words

/-- Conditions that must all hold. -/
def allOf (depth : Nat) (t : FileTree) (kind : Kind) (words : List String) : Reading :=
  match depth with
  | 0 => .error "unexpected operator"
  | n + 1 => do
    let (value, words) ← negated n t kind words
    if kindOf words.tail = .conjunction then do
      let rest := words.drop 2
      let (value', words) ← allOf n t (kindOf rest) rest
      pure (value && value', words)
    else pure (value, words)

/-- Conditions of which one must hold. -/
def anyOf (depth : Nat) (t : FileTree) (kind : Kind) (words : List String) : Reading :=
  match depth with
  | 0 => .error "unexpected operator"
  | n + 1 => do
    let (value, words) ← allOf n t kind words
    if kindOf words.tail = .disjunction then do
      let rest := words.drop 2
      let (value', words) ← anyOf n t (kindOf rest) rest
      pure (value || value', words)
    else pure (value, words)

end

/-- The value of words that are a condition as a whole. -/
def whole (t : FileTree) (kind : Kind) (words : List String) : Except String Bool := do
  let (value, rest) ← anyOf (4 * words.length + 8) t kind words
  match rest with
  | word :: _ :: _ => throw (word ++ ": unexpected operator")
  | _ => pure value

/-- **Whether a condition holds.** -/
def holds (t : FileTree) (words : List String) : Except String Bool :=
  let isBinary := match words with
    | [_, operator, _] => binaryOperators.contains operator
    | _ => false
  if words.isEmpty then .ok false
  else if isBinary then whole t .operand words
  else if words.length = 3 || words.length = 4 then
    match words with
    | "!" :: rest => (holds t rest).map (!·)
    | first :: rest =>
      if first = "(" && rest.getLast? = some ")" then
        whole t (kindOf rest.dropLast) rest.dropLast
      else whole t (kindOf words) words
    | [] => .ok false
  else whole t (kindOf words) words
termination_by words.length

end Condition

namespace Program

/-- **Succeeds if a condition holds.** A bracket must be closed by another one. Complaints
begin with the given text. -/
def test (start : String) (isBracket : Bool) : Program := fun arguments => do
  let words := if isBracket then arguments.dropLast else arguments
  if isBracket && arguments.getLast? ≠ some "]" then refuse 2 (start ++ "missing ]")
  else
    match Condition.holds (← files) words with
    | .ok true => finish 0
    | .ok false => finish 1
    | .error text => refuse 2 (start ++ text)

end Program

end GoPlanner

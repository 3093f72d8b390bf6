import GoPlanner.Shell.Basic
import GoPlanner.Text.Numeral

/-!
# Arithmetic

Expressions of whole numbers in 64 bits, with the operators, the precedence and the
assignments of common programming languages. An expression is evaluated as it is read;
what stands behind an operator that has no use for it is read, but changes nothing.

## Main definitions

* `Arithmetic.Token`: tokens of expressions.
* `Arithmetic.Fault`: why an expression has no value.
* `Arithmetic.evaluate`: the value of an expression, and the variables that it sets.
-/

namespace GoPlanner

namespace Arithmetic

/-- **Tokens of expressions.** -/
inductive Token where
  /-- A number. -/
  | number (value : Int)
  /-- The name of a variable. -/
  | name (text : String)
  /-- An operator. -/
  | operator (text : String)
  /-- A character that has no place in expressions. -/
  | unknown
deriving DecidableEq, Inhabited

/-- **Why an expression has no value.** -/
inductive Fault where
  /-- The expression is written in the wrong way. -/
  | wrong (text : String)
  /-- A variable is no number. -/
  | notNumber (value : String)
deriving DecidableEq, Inhabited

/-! ### Reading tokens -/

/-- The operators, longer ones before their beginnings. -/
def operators : List String :=
  ["<<=", ">>=", "<<", ">>", "<=", ">=", "==", "!=", "&&", "||", "+=", "-=", "*=", "/=", "%=",
    "&=", "^=", "|=", "+", "-", "*", "/", "%", "<", ">", "&", "^", "|", "!", "~", "(", ")", "?",
    ":", "="]

/-- **The tokens of an expression.** -/
def tokens (cs : List Char) : List Token :=
  match cs with
  | [] => []
  | c :: rest =>
    if c = ' ' || c = '\t' || c = '\n' then tokens rest
    else if c.isDigit then
      match Numeral.read cs with
      | some (n, later) =>
        if later.length ≤ rest.length then .number (Numeral.limited n) :: tokens later else [.unknown]
      | none => [.unknown]
    else if Shell.isNameStart c then
      let name := c :: rest.takeWhile Shell.isNameChar
      .name (String.ofList name) :: tokens (rest.dropWhile Shell.isNameChar)
    else
      match operators.find? (fun o => o.toList.isPrefixOf cs) with
      | some o => .operator o :: tokens (rest.drop (o.length - 1))
      | none => [.unknown]
termination_by cs.length
decreasing_by
  all_goals simp only [List.length_cons, List.length_drop]
  all_goals try omega
  exact Nat.lt_succ_of_le (List.dropWhile_suffix _).length_le

/-! ### Evaluation -/

/-- How far the evaluation of an expression has come. -/
structure Progress where
  /-- The tokens that are left. -/
  rest : List Token
  /-- The variables that were set. -/
  assigned : List (String × Int) := []

/-- **Evaluations.** -/
abbrev Evaluation (α : Type) : Type :=
  StateT Progress (Except Fault) α

/-- The next token, which is not used up. -/
def peek : Evaluation (Option Token) := do
  pure (← get).rest.head?

/-- Uses up a token. -/
def skip : Evaluation Unit :=
  modify (fun p => { p with rest := p.rest.tail })

/-- The operator that comes next. -/
def nextOperator : Evaluation String := do
  match ← peek with
  | some (.operator o) => pure o
  | _ => pure ""

/-- How tightly an operator between two values binds; zero means that it is none. -/
def binding (operator : String) : Nat :=
  if ["*", "/", "%"].contains operator then 10
  else if ["+", "-"].contains operator then 9
  else if ["<<", ">>"].contains operator then 8
  else if ["<", "<=", ">", ">="].contains operator then 7
  else if ["==", "!="].contains operator then 6
  else if operator = "&" then 5
  else if operator = "^" then 4
  else if operator = "|" then 3
  else 0

/-- One for truth and zero for falsehood. -/
def truth (b : Bool) : Int :=
  if b then 1 else 0

/-- A number as bits. -/
def bits (n : Int) : BitVec 64 :=
  BitVec.ofInt 64 n

/-- The value of an operator between two numbers. -/
def apply (operator : String) (a b : Int) : Except Fault Int :=
  match operator with
  | "+" => .ok (Numeral.wrapped (a + b))
  | "-" => .ok (Numeral.wrapped (a - b))
  | "*" => .ok (Numeral.wrapped (a * b))
  | "/" => if b = 0 then .error (.wrong "division by zero") else .ok (Numeral.wrapped (Int.tdiv a b))
  | "%" => if b = 0 then .error (.wrong "division by zero") else .ok (Numeral.wrapped (Int.tmod a b))
  | "<<" => .ok (bits a <<< (b % 64).toNat).toInt
  | ">>" => .ok ((bits a).sshiftRight (b % 64).toNat).toInt
  | "<" => .ok (truth (a < b))
  | "<=" => .ok (truth (a ≤ b))
  | ">" => .ok (truth (a > b))
  | ">=" => .ok (truth (a ≥ b))
  | "==" => .ok (truth (a == b))
  | "!=" => .ok (truth (a != b))
  | "&" => .ok (bits a &&& bits b).toInt
  | "^" => .ok (bits a ^^^ bits b).toInt
  | "|" => .ok (bits a ||| bits b).toInt
  | _ => .ok a

/-- The value of a variable: one that has none counts as zero. -/
def valueOf (valueOf? : String → Option String) (name : String) : Evaluation Int := do
  match (← get).assigned.lookup name with
  | some n => pure n
  | none =>
    let text := (valueOf? name).getD ""
    if text.toList.all Numeral.isSpace then pure 0
    else
      match Numeral.whole? Numeral.read text with
      | some n => pure n
      | none => throw (.notNumber text)

mutual

/-- An expression without operators between values. -/
def primary (depth : Nat) (valueOf? : String → Option String) (isIdle : Bool) : Evaluation Int :=
  match depth with
  | 0 => throw (.wrong "expecting primary")
  | n + 1 => do
    match ← peek with
    | some (.number value) => do
      skip
      pure value
    | some (.name name) => do
      skip
      if isIdle then pure 0 else valueOf valueOf? name
    | some (.operator "(") => do
      skip
      let value ← assigning n valueOf? isIdle
      if (← nextOperator) = ")" then do
        skip
        pure value
      else throw (.wrong "expecting \x27)\x27")
    | some (.operator "+") => do
      skip
      primary n valueOf? isIdle
    | some (.operator "-") => do
      skip
      pure (Numeral.wrapped (-(← primary n valueOf? isIdle)))
    | some (.operator "!") => do
      skip
      pure (truth ((← primary n valueOf? isIdle) == 0))
    | some (.operator "~") => do
      skip
      pure (~~~(bits (← primary n valueOf? isIdle))).toInt
    | _ => throw (.wrong "expecting primary")

/-- Operators behind a value that bind more tightly than a limit. -/
def binary (depth : Nat) (valueOf? : String → Option String) (isIdle : Bool) (limit : Nat)
    (first : Int) : Evaluation Int :=
  match depth with
  | 0 => throw (.wrong "expecting primary")
  | n + 1 => do
    let operator ← nextOperator
    if limit < binding operator then do
      skip
      let second ← primary n valueOf? isIdle
      let second ← binary n valueOf? isIdle (binding operator) second
      if isIdle then binary n valueOf? isIdle limit second
      else
        match apply operator first second with
        | .ok value => binary n valueOf? isIdle limit value
        | .error fault => throw fault
    else pure first

/-- Values of which all must be true. -/
def conjunction (depth : Nat) (valueOf? : String → Option String) (isIdle : Bool) :
    Evaluation Int :=
  match depth with
  | 0 => throw (.wrong "expecting primary")
  | n + 1 => do
    let first ← primary n valueOf? isIdle
    let first ← binary n valueOf? isIdle 0 first
    if (← nextOperator) = "&&" then do
      skip
      let second ← conjunction n valueOf? (isIdle || first == 0)
      pure (truth (first != 0 && second != 0))
    else pure first

/-- Values of which one must be true. -/
def disjunction (depth : Nat) (valueOf? : String → Option String) (isIdle : Bool) :
    Evaluation Int :=
  match depth with
  | 0 => throw (.wrong "expecting primary")
  | n + 1 => do
    let first ← conjunction n valueOf? isIdle
    if (← nextOperator) = "||" then do
      skip
      let second ← disjunction n valueOf? (isIdle || first != 0)
      pure (truth (first != 0 || second != 0))
    else pure first

/-- A choice between two values. -/
def choosing (depth : Nat) (valueOf? : String → Option String) (isIdle : Bool) :
    Evaluation Int :=
  match depth with
  | 0 => throw (.wrong "expecting primary")
  | n + 1 => do
    let test ← disjunction n valueOf? isIdle
    if (← nextOperator) = "?" then do
      skip
      let first ← assigning n valueOf? (isIdle || test == 0)
      if (← nextOperator) = ":" then do
        skip
        let second ← choosing n valueOf? (isIdle || test != 0)
        pure (if test != 0 then first else second)
      else throw (.wrong "expecting \x27:\x27")
    else pure test

/-- An assignment, or a value. -/
def assigning (depth : Nat) (valueOf? : String → Option String) (isIdle : Bool) :
    Evaluation Int :=
  match depth with
  | 0 => throw (.wrong "expecting primary")
  | n + 1 => do
    match (← get).rest with
    | .name name :: .operator o :: _ =>
      if ["=", "<<=", ">>=", "+=", "-=", "*=", "/=", "%=", "&=", "^=", "|="].contains o then do
        skip
        skip
        let value ← assigning n valueOf? isIdle
        if isIdle then pure value
        else if o = "=" then setting name value
        else do
          let before ← valueOf valueOf? name
          match apply (String.ofList o.toList.dropLast) before value with
          | .ok value => setting name value
          | .error fault => throw fault
      else choosing n valueOf? isIdle
    | _ => choosing n valueOf? isIdle
where
  /-- Sets a variable. -/
  setting (name : String) (value : Int) : Evaluation Int := do
    modify (fun p => { p with assigned := (name, value) :: p.assigned })
    pure value

end

/-- **The value of an expression,** and the variables that it sets, the last one first. -/
def evaluate (valueOf? : String → Option String) (text : String) :
    Except Fault (Int × List (String × Int)) :=
  let all := tokens text.toList
  match (assigning (8 * all.length + 8) valueOf? false).run { rest := all } with
  | .error fault => .error fault
  | .ok (value, p) =>
    if p.rest.isEmpty then .ok (value, p.assigned) else .error (.wrong "expecting EOF")

end Arithmetic

end GoPlanner

import GoPlanner.Program.Option
import GoPlanner.Text.Regular.Reading

/-!
# Calculating with Arguments

Each argument is an operand or an operator of an expression. Operators of a higher level
bind closer, and those of one level are taken from the left.

## Main definitions

* `Program.Calculation.Worth`: what an expression is worth.
* `Program.Calculation.eval`: works expressions out.
* `Program.expr`: prints what its arguments are worth.
-/

namespace GoPlanner

namespace Program

namespace Calculation

/-! ### Values -/

/-- **What an expression is worth.** -/
inductive Worth where
  /-- A number that was worked out. -/
  | number (n : Int)
  /-- A text. -/
  | text (s : String)
deriving Inhabited

/-- The number that a text stands for. -/
def integer? (s : String) : Option Int :=
  if startsWith "+" s then none else signed? s

namespace Worth

/-- A value as a text. -/
def shown : Worth → String
  | number n => toString n
  | text s => s

/-- A value as a number, if it is one. -/
def int? : Worth → Option Int
  | number n => some n
  | text s => integer? s

/-- Whether a value counts as nothing: no text, or zeros only. -/
def isNothing (w : Worth) : Bool :=
  match w with
  | number n => n == 0
  | text s =>
    let cs := if startsWith "-" s then s.toList.drop 1 else s.toList
    s == "" || (!cs.isEmpty && cs.all (fun c => c == '0'))

end Worth

/-- One for a yes, and zero for a no. -/
def truth (b : Bool) : Worth :=
  .number (if b then 1 else 0)

/-! ### Operators -/

/-- The operators of a level. -/
def operatorsAt : Nat → List String
  | 0 => ["|"]
  | 1 => ["&"]
  | 2 => ["<", "<=", "=", "==", "!=", ">=", ">"]
  | 3 => ["+", "-"]
  | 4 => ["*", "/", "%"]
  | 5 => [":"]
  | _ => []

/-- What the beginning of a text that fits a pattern is worth: what the first group stands
for, or the length. -/
def fitting (text pattern : String) : Except String Worth :=
  match Regular.read { isLenient := true } pattern with
  | .error fault => .error fault.message
  | .ok (r, groups) =>
    let chars := text.toList.toArray
    match r.findAt? false chars 0 with
    | none => .ok (if 0 < groups then .text "" else .number 0)
    | some found =>
      if 0 < groups then
        .ok (.text (((found.groups.lookup 1).map (fun g =>
          String.ofList (Regular.part chars g.1 g.2))).getD ""))
      else .ok (.number found.stop)

/-- Whether a comparison holds. -/
def holds (operator : String) (o : Ordering) : Bool :=
  match operator with
  | "<" => o.isLT
  | "<=" => o.isLE
  | ">" => o.isGT
  | ">=" => o.isGE
  | "!=" => o.isNe
  | _ => o.isEq

/-- The result of an operator on numbers. -/
def calculate (operator : String) (m n : Int) : Except String Int :=
  match operator with
  | "+" => .ok (m + n)
  | "-" => .ok (m - n)
  | "*" => .ok (m * n)
  | _ =>
    if n = 0 then .error "division by zero"
    else .ok (if operator = "/" then m.tdiv n else m.tmod n)

/-- The result of an operator. Where it does not count, nothing can go wrong. -/
def combine (operator : String) (isLive : Bool) (a b : Worth) : Except String Worth :=
  match operator with
  | "|" => .ok (if !a.isNothing then a else if b.isNothing then .number 0 else b)
  | "&" => .ok (if a.isNothing || b.isNothing then .number 0 else a)
  | ":" => if isLive then fitting a.shown b.shown else .ok a
  | _ =>
    if (operatorsAt 2).contains operator then
      match a.int?, b.int? with
      | some m, some n => .ok (truth (holds operator (compare m n)))
      | _, _ => .ok (truth (holds operator (compare a.shown b.shown)))
    else if !isLive then .ok a
    else
      match a.int?, b.int? with
      | some m, some n => (calculate operator m n).map .number
      | _, _ => .error "non-integer argument"

/-! ### Expressions -/

/-- What is left of the arguments, and the one before. -/
structure Rest where
  /-- The last argument that was taken. -/
  last : String
  /-- The arguments to come. -/
  arguments : List String

/-- The next argument. -/
def Rest.next (r : Rest) : Except String (String × Rest) :=
  match r.arguments with
  | [] => .error ("syntax error: missing argument after " ++ quoted r.last)
  | a :: others => .ok (a, ⟨a, others⟩)

/-- A part of a text, from a position on, which is counted from one. -/
def partOf (text : String) (start length : Option Int) : String :=
  match start, length with
  | some start, some length =>
    if start ≤ 0 || length ≤ 0 then ""
    else String.ofList ((text.toList.drop (start.toNat - 1)).take length.toNat)
  | _, _ => ""

/-- The position of the first character that is one of some, counted from one. -/
def positionOf (text among : String) : Nat :=
  let before := text.toList.takeWhile (fun c => !among.contains c)
  if before.length < text.length then before.length + 1 else 0

mutual

/-- **Works out** an expression of a level. The number bounds the steps. -/
def eval (steps level : Nat) (isLive : Bool) (r : Rest) : Except String (Worth × Rest) :=
  match steps with
  | 0 => .error "memory exhausted"
  | n + 1 =>
    if level < 6 then do
      let (a, r) ← eval n (level + 1) isLive r
      evalMore n level isLive a r
    else do
      let (a, r) ← r.next
      match a with
      | "+" => do
        let (a, r) ← r.next
        pure (.text a, r)
      | "length" => do
        let (a, r) ← eval n 6 isLive r
        pure (.number a.shown.length, r)
      | "match" => do
        let (a, r) ← eval n 6 isLive r
        let (b, r) ← eval n 6 isLive r
        pure (← combine ":" isLive a b, r)
      | "index" => do
        let (a, r) ← eval n 6 isLive r
        let (b, r) ← eval n 6 isLive r
        pure (.number (positionOf a.shown b.shown), r)
      | "substr" => do
        let (a, r) ← eval n 6 isLive r
        let (start, r) ← eval n 6 isLive r
        let (length, r) ← eval n 6 isLive r
        pure (.text (partOf a.shown start.int? length.int?), r)
      | "(" => do
        let (a, r) ← eval n 0 isLive r
        match r.arguments with
        | ")" :: others => pure (a, ⟨")", others⟩)
        | [] => throw ("syntax error: expecting \x27)\x27 after " ++ quoted r.last)
        | other :: _ => throw ("syntax error: expecting \x27)\x27 instead of " ++ quoted other)
      | ")" => throw "syntax error: unexpected \x27)\x27"
      | _ => pure (.text a, r)

/-- Works out the operators of a level behind an operand. -/
def evalMore (steps level : Nat) (isLive : Bool) (a : Worth) (r : Rest) :
    Except String (Worth × Rest) :=
  match steps with
  | 0 => .error "memory exhausted"
  | n + 1 =>
    match r.arguments with
    | operator :: others =>
      if (operatorsAt level).contains operator then do
        let isNeeded := match operator with
          | "|" => a.isNothing
          | "&" => !a.isNothing
          | _ => true
        let (b, r) ← eval n (level + 1) (isLive && isNeeded) ⟨operator, others⟩
        evalMore n level isLive (← combine operator isLive a b) r
      else pure (a, r)
    | [] => pure (a, r)

end

/-- What arguments are worth. -/
def worth (arguments : List String) : Except String Worth := do
  let (a, r) ← eval (10 * arguments.length + 10) 0 true ⟨"", arguments⟩
  match r.arguments with
  | [] => pure a
  | other :: _ => throw ("syntax error: unexpected argument " ++ quoted other)

end Calculation

/-- **Prints what its arguments are worth.** -/
def expr : Program := fun arguments => do
  let arguments := if arguments.head? = some "--" then arguments.drop 1 else arguments
  if arguments.isEmpty then do
    complain "expr: missing operand"
    referToHelp 2 "expr"
  else
    match Calculation.worth arguments with
    | .error text => refuse 2 ("expr: " ++ text)
    | .ok a => do
      say (a.shown ++ "\n")
      finish (if a.isNothing then 1 else 0)

end Program

end GoPlanner

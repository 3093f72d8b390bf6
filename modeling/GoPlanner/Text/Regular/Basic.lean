import GoPlanner.Text.Wildcard

/-!
# Regular Expressions

A regular expression describes parts of a text. Of the parts that it describes the one
that begins first counts, and of those the longest one. Which ends a part may have is
found out for all beginnings at once; where the groups of the expression lie is found out
afterwards, for the end that is known by then.

## Main definitions

* `Regular`: regular expressions.
* `Regular.reach`: where parts of a text may end.
* `Regular.locate`: where the groups lie.
* `Regular.find?`: the first part of a text that is described.
-/

namespace GoPlanner

namespace Regular

/-- **What one character may be.** -/
inductive Kind where
  /-- Any character. -/
  | any
  /-- The given character. -/
  | only (c : Char)
  /-- A character in brackets or, if negated, one that is not in them. -/
  | oneOf (isNegated : Bool) (members : List Wildcard.Member)
deriving DecidableEq, Inhabited

/-- **Where a text is between two characters.** -/
inductive Spot where
  /-- At the beginning. -/
  | start
  /-- At the end. -/
  | stop
  /-- Between a word and something else. -/
  | wordEdge
  /-- Not there. -/
  | noWordEdge
  /-- In front of a word. -/
  | wordStart
  /-- Behind a word. -/
  | wordStop
deriving DecidableEq, Inhabited

end Regular

/-- **Regular expressions.** -/
inductive Regular where
  /-- Nothing, which is everywhere. -/
  | empty
  /-- One character. -/
  | one (kind : Regular.Kind)
  /-- A place between characters. -/
  | spot (spot : Regular.Spot)
  /-- One expression behind the other. -/
  | both (first second : Regular)
  /-- One of two expressions. -/
  | either (first second : Regular)
  /-- An expression as often as it is allowed. -/
  | repeated (inner : Regular) (least : Nat) (most : Option Nat)
  /-- A group with a number. -/
  | group (number : Nat) (inner : Regular)
  /-- What the group of a number stands for. -/
  | again (number : Nat)
deriving Inhabited

namespace Regular

/-! ### Characters -/

/-- Whether a character fits; cases may count as the same. -/
def Kind.fits (foldsCase : Bool) (c : Char) (k : Kind) : Bool :=
  let forms := if foldsCase then [c, c.toLower, c.toUpper] else [c]
  match k with
  | any => true
  | only d => forms.contains d
  | oneOf isNegated members => forms.any (fun c => members.any (·.holds c)) != isNegated

/-- Characters of words. -/
def isWordChar (c : Char) : Bool :=
  c.isAlphanum || c == '_'

/-- Whether a text is at a spot in front of a position. -/
def Spot.holds (text : Array Char) (position : Nat) (s : Spot) : Bool :=
  let before := position != 0 && (text[position - 1]?).any isWordChar
  let behind := (text[position]?).any isWordChar
  match s with
  | start => position == 0
  | stop => position == text.size
  | wordEdge => before != behind
  | noWordEdge => before == behind
  | wordStart => !before && behind
  | wordStop => before && !behind

/-! ### Ends -/

/-- Two increasing lists as one. -/
def merged : List Nat → List Nat → List Nat
  | [], ys => ys
  | x :: xs, [] => x :: xs
  | x :: xs, y :: ys =>
    if x < y then x :: merged xs (y :: ys)
    else if y < x then y :: merged (x :: xs) ys
    else x :: merged xs ys
termination_by xs ys => xs.length + ys.length

/-- The positions that steps lead to from some positions, those included. The positions
whose steps were not taken so far are handed on; the number bounds the steps. -/
def closure (steps : List Nat → List Nat) : Nat → List Nat → List Nat → List Nat
  | 0, found, _ => found
  | n + 1, found, latest =>
    let new := (steps latest).filter (fun i => !found.contains i)
    if new.isEmpty then found else closure steps n (merged found new) new

/-- The positions that at most a number of steps lead to. -/
def within (steps : List Nat → List Nat) : Nat → List Nat → List Nat
  | 0, found => found
  | n + 1, found => merged found (within steps n (steps found))

/-- **Where parts of a text may end** that begin at some positions, in increasing order.
What a group stands for is not known here, so it may be any text. -/
def reach (text : Array Char) (foldsCase : Bool) : Regular → List Nat → List Nat
  | empty, starts => starts
  | one kind, starts =>
    (starts.filter (fun i => (text[i]?).any (fun c => kind.fits foldsCase c))).map (· + 1)
  | spot s, starts => starts.filter (fun i => s.holds text i)
  | both first second, starts =>
    reach text foldsCase second (reach text foldsCase first starts)
  | either first second, starts =>
    merged (reach text foldsCase first starts) (reach text foldsCase second starts)
  | repeated inner least most, starts =>
    let first := (List.range least).foldl (fun found _ => reach text foldsCase inner found) starts
    match most with
    | none => closure (reach text foldsCase inner) (text.size + 1) first first
    | some n => within (reach text foldsCase inner) (n - least) first
  | group _ inner, starts => reach text foldsCase inner starts
  | again _, starts =>
    match starts with
    | [] => []
    | i :: _ => List.range' i (text.size + 1 - i)

/-! ### Groups -/

/-- Groups with the beginning and the end of each, the latest one first. -/
abbrev Groups : Type :=
  List (Nat × Nat × Nat)

/-- What is done behind a part: the search goes on from its end. -/
abbrev Behind : Type :=
  Nat → Groups → Option Groups

/-- The part of a text between two positions. -/
def part (text : Array Char) (start stop : Nat) : List Char :=
  (text.extract start stop).toList

/-- A part again and again, as often as possible first. An empty part is taken only if it
is needed. The first number bounds how often. -/
def locateRepeated (search : Nat → Groups → Behind → Option Groups) (least : Nat)
    (most : Option Nat) (behind : Behind) : Nat → Nat → Nat → Groups → Option Groups
  | 0, _, _, _ => none
  | n + 1, count, position, groups =>
    let more :=
      if most.all (count < ·) then
        search position groups (fun position' groups' =>
          if position' = position && least ≤ count then none
          else locateRepeated search least most behind n (count + 1) position' groups')
      else none
    match more with
    | some found => some found
    | none => if least ≤ count then behind position groups else none

/-- **Where the groups lie,** for a part of a text that begins at a position. The first way
counts, and repetitions take as much as they can. -/
def locate (text : Array Char) (foldsCase : Bool) :
    Regular → Nat → Groups → Behind → Option Groups
  | empty, i, groups, behind => behind i groups
  | one kind, i, groups, behind =>
    if (text[i]?).any (fun c => kind.fits foldsCase c) then behind (i + 1) groups else none
  | spot s, i, groups, behind => if s.holds text i then behind i groups else none
  | both first second, i, groups, behind =>
    locate text foldsCase first i groups (fun j groups' =>
      locate text foldsCase second j groups' behind)
  | either first second, i, groups, behind =>
    match locate text foldsCase first i groups behind with
    | some found => some found
    | none => locate text foldsCase second i groups behind
  | repeated inner least most, i, groups, behind =>
    locateRepeated (locate text foldsCase inner) least most behind (text.size + least + 2) 0 i
      groups
  | group number inner, i, groups, behind =>
    locate text foldsCase inner i groups (fun j groups' =>
      behind j ((number, i, j) :: groups'))
  | again number, i, groups, behind =>
    match groups.lookup number with
    | none => none
    | some (start, stop) =>
      let said := part text start stop
      let heard := part text i (i + said.length)
      let isSame := if foldsCase then said.map Char.toLower = heard.map Char.toLower
        else said = heard
      if isSame then behind (i + said.length) groups else none

/-! ### Finding -/

/-- Whether an expression asks what a group stands for. -/
def isReferring : Regular → Bool
  | both first second => isReferring first || isReferring second
  | either first second => isReferring first || isReferring second
  | repeated inner _ _ => isReferring inner
  | group _ inner => isReferring inner
  | again _ => true
  | _ => false

/-- Whether an expression has groups. -/
def hasGroups : Regular → Bool
  | both first second => hasGroups first || hasGroups second
  | either first second => hasGroups first || hasGroups second
  | repeated inner _ _ => hasGroups inner
  | group _ _ => true
  | _ => false

/-- **A part of a text** that an expression describes. -/
structure Found where
  /-- Where it begins. -/
  start : Nat
  /-- Where it ends. -/
  stop : Nat
  /-- Where the groups lie. -/
  groups : Groups
deriving DecidableEq, Inhabited

/-- Where the parts end that begin at a position, the longest one first. -/
def endsAt (r : Regular) (foldsCase : Bool) (text : Array Char) (i : Nat) : List Nat :=
  let ends := (reach text foldsCase r [i]).reverse
  if isReferring r then
    ends.filter (fun stop => (locate text foldsCase r i []
      (fun j groups => if j = stop then some groups else none)).isSome)
  else ends

/-- The longest part that begins at a position. -/
def findAt? (r : Regular) (foldsCase : Bool) (text : Array Char) (i : Nat) : Option Found :=
  let ends := (reach text foldsCase r [i]).reverse
  let upTo (stop : Nat) : Option Found :=
    (locate text foldsCase r i [] (fun j groups => if j = stop then some groups else none)).map
      (fun groups => ⟨i, stop, groups⟩)
  if isReferring r then ends.findSome? upTo
  else if hasGroups r then ends.head?.bind upTo
  else ends.head?.map (fun stop => ⟨i, stop, []⟩)

/-- **The first part** of a text that an expression describes, from a position on. -/
def find? (r : Regular) (foldsCase : Bool) (text : Array Char) (first : Nat) : Option Found :=
  let starts := List.range' first (text.size + 1 - first)
  if (reach text foldsCase r starts).isEmpty then none
  else starts.findSome? (findAt? r foldsCase text)

/-- Whether an expression describes a part of a text. -/
def isFound (r : Regular) (foldsCase : Bool) (text : Array Char) : Bool :=
  if isReferring r then (find? r foldsCase text 0).isSome
  else !(reach text foldsCase r (List.range (text.size + 1))).isEmpty

end Regular

end GoPlanner

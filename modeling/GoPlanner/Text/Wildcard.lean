/-!
# Wildcards

A wildcard is a pattern for whole names: a star stands for any text, a question mark for
any character, and brackets for one of the characters in them. Characters that are quoted
stand for themselves.

## Main definitions

* `Wildcard.Item`, `Wildcard`: wildcards.
* `Wildcard.ofMarked`, `Wildcard.ofText`: wildcards as they are written.
* `Wildcard.fits`: whether a text fits a wildcard.
-/

namespace GoPlanner

namespace Wildcard

/-- **An item in brackets.** -/
inductive Member where
  /-- The characters of a range. -/
  | range (first last : Char)
  /-- The characters of a named class. -/
  | named (name : String)
deriving DecidableEq, Inhabited

/-- **An item of a wildcard.** -/
inductive Item where
  /-- Any text. -/
  | text
  /-- Any character. -/
  | any
  /-- The given character. -/
  | only (c : Char)
  /-- A character in brackets or, if negated, one that is not in them. -/
  | oneOf (isNegated : Bool) (members : List Member)
deriving DecidableEq, Inhabited

end Wildcard

/-- **A wildcard** is a list of items. -/
abbrev Wildcard : Type :=
  List Wildcard.Item

namespace Wildcard

/-! ### Classes of characters -/

/-- The control characters. -/
def isControl (c : Char) : Bool :=
  c.toNat < 32 || c.toNat == 127

/-- The visible characters. -/
def isVisible (c : Char) : Bool :=
  33 ≤ c.toNat && c.toNat ≤ 126

/-- The characters of a named class. -/
def classOf? (name : String) : Option (Char → Bool) :=
  match name with
  | "alnum" => some Char.isAlphanum
  | "alpha" => some Char.isAlpha
  | "blank" => some (fun c => c == ' ' || c == '\t')
  | "cntrl" => some isControl
  | "digit" => some Char.isDigit
  | "graph" => some isVisible
  | "lower" => some Char.isLower
  | "print" => some (fun c => isVisible c || c == ' ')
  | "punct" => some (fun c => isVisible c && !c.isAlphanum)
  | "space" => some (fun c => c == ' ' || (9 ≤ c.toNat && c.toNat ≤ 13))
  | "upper" => some Char.isUpper
  | "xdigit" => some (fun c => c.isDigit || ('a' ≤ c && c ≤ 'f') || ('A' ≤ c && c ≤ 'F'))
  | _ => none

/-- Whether a character belongs to an item in brackets. -/
def Member.holds (c : Char) : Member → Bool
  | range first last => first ≤ c && c ≤ last
  | named name => ((classOf? name).map (· c)).getD false

/-! ### Reading wildcards -/

/-- Characters, each with whether it is quoted. -/
abbrev Marked : Type :=
  List (Char × Bool)

/-- The name of a class behind its opening bracket and colon, with what follows it. -/
def className? (cs : Marked) : Option (String × Marked) :=
  let name := cs.takeWhile (fun c => c.1.isAlpha)
  match cs.drop name.length with
  | (':', false) :: (']', false) :: rest =>
    let text := String.ofList (name.map (·.1))
    if (classOf? text).isSome then some (text, rest) else none
  | _ => none

/-- The items in brackets, up to the closing one; a closing bracket that comes first is
an item. The number bounds the items. -/
def readMembers : Nat → Bool → Marked → Option (List Member × Marked)
  | 0, _, _ => none
  | _, _, [] => none
  | n + 1, isFirst, (c, isQuoted) :: rest =>
    if c = ']' && !isQuoted && !isFirst then some ([], rest)
    else
      let single : Option (List Member × Marked) :=
        match rest with
        | ('-', false) :: (d, isQuoted') :: rest' =>
          if d = ']' && !isQuoted' then
            (readMembers n false rest).map (fun r => (.range c c :: r.1, r.2))
          else (readMembers n false rest').map (fun r => (.range c d :: r.1, r.2))
        | _ => (readMembers n false rest).map (fun r => (.range c c :: r.1, r.2))
      match c, isQuoted, rest with
      | '[', false, (':', false) :: rest' =>
        match className? rest' with
        | some (name, rest'') =>
          (readMembers n false rest'').map (fun r => (.named name :: r.1, r.2))
        | none => single
      | _, _, _ => single

/-- The item that brackets stand for, behind the opening one, with what follows it. -/
def readBrackets (negations : List Char) (cs : Marked) : Option (Item × Marked) :=
  match cs with
  | (c, false) :: rest =>
    if negations.contains c then
      (readMembers (rest.length + 1) true rest).map (fun r => (.oneOf true r.1, r.2))
    else (readMembers (cs.length + 1) true cs).map (fun r => (.oneOf false r.1, r.2))
  | _ => (readMembers (cs.length + 1) true cs).map (fun r => (.oneOf false r.1, r.2))

/-- **The wildcard of marked characters.** A bracket that is never closed stands for
itself. -/
def ofMarked (cs : Marked) : Wildcard :=
  match cs with
  | [] => []
  | (c, true) :: rest => .only c :: ofMarked rest
  | ('*', false) :: rest => .text :: ofMarked rest
  | ('?', false) :: rest => .any :: ofMarked rest
  | ('[', false) :: rest =>
    match readBrackets ['!'] rest with
    | some (item, later) =>
      if later.length ≤ rest.length then item :: ofMarked later else []
    | none => .only '[' :: ofMarked rest
  | (c, false) :: rest => .only c :: ofMarked rest
termination_by cs.length

/-- Characters of which a reverse solidus quotes the next one. -/
def marked : List Char → Marked
  | '\\' :: c :: cs => (c, true) :: marked cs
  | c :: cs => (c, false) :: marked cs
  | [] => []

/-- The wildcard that a text stands for. -/
def ofText (text : String) : Wildcard :=
  ofMarked (marked text.toList)

/-- Whether something else than characters that stand for themselves is in a wildcard. -/
def isOpen (w : Wildcard) : Bool :=
  w.any (fun
    | .only _ => false
    | _ => true)

/-! ### Fitting -/

/-- **Whether a text fits** a wildcard as a whole. -/
def fits : Wildcard → List Char → Bool
  | [], cs => cs.isEmpty
  | .text :: items, cs => (List.range (cs.length + 1)).any (fun n => fits items (cs.drop n))
  | .any :: items, _ :: cs => fits items cs
  | .only d :: items, c :: cs => c == d && fits items cs
  | .oneOf isNegated members :: items, c :: cs =>
    members.any (·.holds c) != isNegated && fits items cs
  | _ :: _, [] => false

end Wildcard

end GoPlanner

/-!
# TOML Values and Tables

A TOML document is a table of values. Tables can be spelled in several ways, and the
spelling decides whether they may be added to later: a table with a header of its own is
closed against dotted keys, one that only dotted keys made has no header any more, and
one that was merely named on the way to another one may still be given its header.

## Main definitions

* `Toml`: values and tables.
* `Toml.Origin`: how a table came to be.
* `Toml.within`: a change of the table at some path.
* `Toml.assign`, `Toml.openTable`, `Toml.openElement`: what key lines and headers do.
-/

namespace GoPlanner

/-- **How a table came to be.** -/
inductive Toml.Origin where
  /-- By a header of its own, or by being written out in one place. -/
  | defined
  /-- On the way to the header of another table. -/
  | implied
  /-- On the way of a dotted key. -/
  | dotted
deriving DecidableEq, Inhabited

/-- **Values and tables.** Of numbers with a fraction and of times nothing but the kind is
kept. -/
inductive Toml where
  /-- A string. -/
  | text (value : String)
  /-- An integer. -/
  | integer (value : Int)
  /-- A number with a fraction or an exponent. -/
  | fraction
  /-- A truth value. -/
  | boolean (value : Bool)
  /-- A date, a time, or both. -/
  | time
  /-- An array. -/
  | array (items : List Toml)
  /-- A table between braces. -/
  | inline (origin : Toml.Origin) (entries : List (String × Toml))
  /-- A table with a header. -/
  | table (origin : Toml.Origin) (entries : List (String × Toml))
  /-- Tables that share a header in double brackets. -/
  | tables (elements : List Toml)
deriving Inhabited

namespace Toml

/-- Keys with their values, in order. -/
abbrev Entries : Type :=
  List (String × Toml)

/-- What is done to a table, given its origin; it may be refused. -/
abbrev Change : Type :=
  Origin → Entries → Option Entries

/-- Entries in which a key has a value, in its place if it is there. -/
def put (key : String) (value : Toml) : Entries → Entries
  | [] => [(key, value)]
  | entry :: later =>
    if entry.1 = key then (key, value) :: later else entry :: put key value later

/-- The origin of tables that are made on the way. -/
def madeOnTheWay (dotted : Bool) : Origin :=
  if dotted then .dotted else .implied

/-- **A change of the table at a path.** Tables that are missing on the way are made. The
way leads through the last table of an array of tables, never through a value, and for
dotted keys through no table that has been defined. -/
def within (dotted : Bool) (change : Change) : List String → Change
  | [], origin, entries => change origin entries
  | key :: path, _, entries =>
    match entries.lookup key with
    | none =>
      (within dotted change path (madeOnTheWay dotted) []).map
        (fun es => put key (.table (madeOnTheWay dotted) es) entries)
    | some (.table origin es) =>
      if dotted && origin == .defined then none
      else (within dotted change path origin es).map (fun es => put key (.table origin es) entries)
    | some (.tables elements) =>
      match elements.reverse with
      | .table origin es :: before =>
        (within dotted change path origin es).map
          (fun es => put key (.tables (before.reverse ++ [.table origin es])) entries)
      | _ => none
    | some _ => none

/-- A change of the table between braces at a path of a dotted key. -/
def withinInline (change : Change) : List String → Change
  | [], origin, entries => change origin entries
  | key :: path, _, entries =>
    match entries.lookup key with
    | none =>
      (withinInline change path .dotted []).map (fun es => put key (.inline .dotted es) entries)
    | some (.inline origin es) =>
      if origin == .defined then none
      else (withinInline change path origin es).map
        (fun es => put key (.inline origin es) entries)
    | some _ => none

/-- Adds a value to the table that a key leads to. Behind dots only tables of dotted keys
are added to, and without dots none of them is; no key is given twice. -/
def addLast (dotted : Bool) (key : String) (value : Toml) : Change := fun origin entries =>
  if (origin == .dotted) != dotted || (entries.lookup key).isSome then none
  else some (entries ++ [(key, value)])

/-- **What a key line does** to the table that it stands in. -/
def assign (path : List String) (key : String) (value : Toml) : Change :=
  within true (addLast (!path.isEmpty) key value) path

/-- What a key does to the table between braces that it stands in. -/
def assignInline (path : List String) (key : String) (value : Toml) : Change :=
  withinInline (addLast (!path.isEmpty) key value) path

/-- **What a header does** to the table that holds the new one: a table that was merely
named before is now defined. -/
def openTable (key : String) : Change := fun _ entries =>
  match entries.lookup key with
  | none => some (entries ++ [(key, .table .defined [])])
  | some (.table .implied es) => some (put key (.table .defined es) entries)
  | some _ => none

/-- **What a header in double brackets does:** the array of tables has one more. -/
def openElement (key : String) : Change := fun _ entries =>
  match entries.lookup key with
  | none => some (entries ++ [(key, .tables [.table .defined []])])
  | some (.tables elements) => some (put key (.tables (elements ++ [.table .defined []])) entries)
  | some _ => none

end Toml

end GoPlanner

import SkillLang.Keyed

/-!
# TOML values

A TOML document is a table.  Tables are made in different ways, and the way decides
what may be added to a table later: a table is defined once, by a header, by the dotted
keys that lead into it, or in one piece by braces.
-/

namespace SkillLang

/-- How a table has come to be. -/
inductive Toml.Origin where
  /-- It has a header of its own, or it is the document. -/
  | header
  /-- It is on the way to a table with a header. -/
  | implied
  /-- It is on the way of a dotted key. -/
  | dotted
  /-- It is written in one piece. -/
  | inline
deriving DecidableEq

mutual

inductive Toml where
  | string (s : String)
  | integer (n : Int)
  | float (x : Float)
  | boolean (b : Bool)
  | date (text : String)
  | array (items : List Toml)
  | table (t : Toml.Table)
  /-- The tables with the same header in double brackets, in order. -/
  | tables (rows : List Toml.Table)

structure Toml.Table where
  origin : Toml.Origin
  members : List (String × Toml)

end

namespace Toml.Table

def empty (origin : Origin) : Table :=
  ⟨origin, []⟩

def member? (t : Table) (key : String) : Option Toml :=
  Keyed.find? key t.members

def put (t : Table) (key : String) (value : Toml) : Table :=
  { t with members := Keyed.insert key value t.members }

/-- A path may lead through the table.  Those of headers lead through all tables that are not
written in one piece, those of dotted keys only through tables without headers. -/
def isOpenTo (isDotted : Bool) (t : Table) : Bool :=
  match t.origin with
  | .inline => false
  | .header => !isDotted
  | .implied | .dotted => true

/-- Changes the last one of some tables. -/
def changeLast (change : Table → Option Table) : List Table → Option (List Table)
  | [] => none
  | [row] => (change row).map fun row => [row]
  | row :: rows => (changeLast change rows).map fun rows => row :: rows

/-- Changes the table at the end of a path from a table.  Tables that are missing on the way are
made, and of tables with the same header the path leads through the last one. -/
def change (isDotted : Bool) (f : Table → Option Table) : List String → Table → Option Table
  | [], t => f t
  | key :: path, t =>
    match t.member? key with
    | none => do
      let made ← change isDotted f path (.empty (if isDotted then .dotted else .implied))
      return t.put key (.table made)
    | some (.table inner) => do
      if inner.isOpenTo isDotted then
        return t.put key (.table (← change isDotted f path inner))
      else none
    | some (.tables rows) => do
      return t.put key (.tables (← changeLast (change isDotted f path) rows))
    | some _ => none

/-- Changes the parent of what a path leads to. -/
def changeParent (f : String → Table → Option Table) (path : List String) (t : Table) :
    Option Table := do
  change false (f (← path.getLast?)) path.dropLast t

/-- Defines the table at a path by a header, once. -/
def define (path : List String) (t : Table) : Option Table :=
  changeParent (fun key parent =>
    match parent.member? key with
    | none => some (parent.put key (.table (.empty .header)))
    | some (.table inner) =>
      if inner.origin = .implied then
        some (parent.put key (.table { inner with origin := .header }))
      else none
    | some _ => none) path t

/-- Adds a table to those at a path. -/
def addRow (path : List String) (t : Table) : Option Table :=
  changeParent (fun key parent =>
    match parent.member? key with
    | none => some (parent.put key (.tables [.empty .header]))
    | some (.tables rows) => some (parent.put key (.tables (rows ++ [.empty .header])))
    | some _ => none) path t

/-- Gives a value to a key that has none, in the table at the end of a dotted path.  A dotted path
ends in a table that has been made by dotted keys. -/
def assign (path : List String) (value : Toml) (t : Table) : Option Table := do
  let key ← path.getLast?
  let path := path.dropLast
  change true (fun inner =>
    if (inner.origin = .dotted ↔ path ≠ []) ∧ (inner.member? key).isNone then
      some (inner.put key value)
    else none) path t

/-- A table in one piece, from its members in order. -/
def ofPairs? (pairs : List (List String × Toml)) : Option Table := do
  let t ← pairs.foldlM (fun (t : Table) (path, value) => t.assign path value) (.empty .header)
  return { t with origin := .inline }

end Toml.Table

end SkillLang

import SkillLang.Toml.Basic

/-!
# Reading structures from TOML

A structure is written as a table with the names of its fields, or as an array of their
values in order.  Members of other names and values after the last field are ignored.
-/

namespace SkillLang.Toml

def asString? : Toml → Option String
  | string s => some s
  | _ => none

def asBool? : Toml → Option Bool
  | boolean b => some b
  | _ => none

/-- The values of the named fields of a structure, in the order of the names; a date is a
structure of which no field is known. -/
def fields? (names : List String) : Toml → Option (List (Option Toml))
  | table t => some (names.map t.member?)
  | array items => some ((List.range names.length).map fun index => items[index]?)
  | tables rows => some ((List.range names.length).map fun index => rows[index]?.map table)
  | date _ => some (names.map fun _ => none)
  | _ => none

/-- A field that may be missing. -/
def defaulted {α : Type} (default : α) (decode : Toml → Option α) : Option Toml → Option α
  | none => some default
  | some value => decode value

/-- Nothing is in an array or a table. -/
def isVoid : Toml → Bool
  | array items => items.isEmpty
  | table t => t.members.isEmpty
  | tables rows => rows.isEmpty
  | _ => false

/-- One of several names, written as a string or as a table with that key and nothing in it. -/
def choice {α : Type} (names : List (String × α)) : Toml → Option α
  | string name => names.lookup name
  | table ⟨_, [(name, value)]⟩ => if value.isVoid then names.lookup name else none
  | _ => none

end SkillLang.Toml

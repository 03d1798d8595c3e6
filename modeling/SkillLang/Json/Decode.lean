import SkillLang.Json.Basic

/-!
# Reading structures from JSON

A structure is written as an object with the names of its fields, none of them twice,
or as an array of their values in order.  Members of other names are ignored.  Reading
answers nothing when a value does not have the form that is asked for.
-/

namespace SkillLang.Json

mutual
/-- The value with the members of its objects in the order of their keys; of two members with
one key the later counts. -/
def normalize : Json → Json
  | arr items => arr (normalizeItems items)
  | obj members => obj (Keyed.ofList (normalizeMembers members))
  | null => null
  | bool b => bool b
  | int n => int n
  | float x => float x
  | str s => str s

def normalizeItems : List Json → List Json
  | [] => []
  | item :: items => normalize item :: normalizeItems items

def normalizeMembers : List (String × Json) → List (String × Json)
  | [] => []
  | (key, value) :: members => (key, normalize value) :: normalizeMembers members
end

def asString? : Json → Option String
  | str s => some s
  | _ => none

def asBool? : Json → Option Bool
  | bool b => some b
  | _ => none

def asItems? : Json → Option (List Json)
  | arr items => some items
  | _ => none

/-- The values of the named fields of a structure, in the order of the names. -/
def fields? (names : List String) : Json → Option (List (Option Json))
  | obj members =>
    if names.all fun name => decide ((members.filter fun m => m.1 == name).length ≤ 1) then
      some (names.map fun name => members.lookup name)
    else none
  | arr items =>
    if items.length ≤ names.length then
      some (items.map some ++ List.replicate (names.length - items.length) none)
    else none
  | _ => none

/-- A field that has to be there. -/
def required (decode : Json → Option α) (field : Option Json) : Option α :=
  field.bind decode

/-- A field that may be missing. -/
def defaulted (default : α) (decode : Json → Option α) : Option Json → Option α
  | none => some default
  | some value => decode value

/-- A value that may be null. -/
def nullable (decode : Json → Option α) : Json → Option (Option α)
  | null => some none
  | value => (decode value).map some

def listOf (decode : Json → Option α) (value : Json) : Option (List α) := do
  (← value.asItems?).mapM decode

/-- One of several names, written as a string or as an object with that key and no value. -/
def choice (names : List (String × α)) : Json → Option α
  | str name => names.lookup name
  | obj [(name, null)] => names.lookup name
  | _ => none

end SkillLang.Json

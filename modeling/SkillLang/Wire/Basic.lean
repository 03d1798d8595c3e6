import SkillLang.Calendar.Timestamp
import SkillLang.Decimal.Reading
import SkillLang.Decimal.Style
import SkillLang.Log.Event
import SkillLang.Signature.Json
import SkillLang.Syntax.Dialogue
import SkillLang.Types.Text

/-!
# The wire form

Programs are exchanged as JSON.  Every form of the syntax is an object with a tag, a
member that is missing counts as null, and floating-point numbers are written as texts,
since JSON has none that are not finite.  This module reads and writes the members of
such objects.  A member is smaller than its object, which is why reading comes to an end.
-/

namespace SkillLang

/-- Why something in the wire form is refused. -/
inductive WireError where
  | malformed
  | signature
  | type (e : Ty.SyntaxError)
  | results (e : UnconfirmedResults)

abbrev FromWire (α : Type) : Type := Except WireError α

namespace Json

/-- A value that is smaller than the one it is a part of. -/
abbrev Part (j : Json) : Type := { part : Json // sizeOf part < sizeOf j }

theorem sizeOf_item_lt {items : List Json} {item : Json} (h : item ∈ items) :
    sizeOf item < sizeOf (arr items) := by
  have := List.sizeOf_lt_of_mem h
  simp only [arr.sizeOf_spec]
  omega

theorem sizeOf_value_lt {members : List (String × Json)} {key : String} {value : Json}
    (h : (key, value) ∈ members) : sizeOf value < sizeOf (obj members) := by
  have := List.sizeOf_lt_of_mem h
  simp only [obj.sizeOf_spec, Prod.mk.sizeOf_spec] at this ⊢
  omega

theorem mem_of_find? {key : String} {members : List (String × Json)} {value : Json}
    (h : Keyed.find? key members = some value) : (key, value) ∈ members :=
  Keyed.mem_of_find? h

def isNull : Json → Bool
  | null => true
  | _ => false

/-- A member that is there and not null. -/
def part? (j : Json) (key : String) : Option j.Part :=
  match j with
  | obj members =>
    match h : Keyed.find? key members with
    | some value =>
      if value.isNull then none else some ⟨value, sizeOf_value_lt (mem_of_find? h)⟩
    | none => none
  | _ => none

def part (j : Json) (key : String) : FromWire j.Part :=
  match j.part? key with
  | some found => .ok found
  | none => .error .malformed

def items (j : Json) : FromWire (List j.Part) :=
  match j with
  | arr items => .ok (items.attach.map fun ⟨item, h⟩ => ⟨item, sizeOf_item_lt h⟩)
  | _ => .error .malformed

def members (j : Json) : FromWire (List (String × j.Part)) :=
  match j with
  | obj members =>
    .ok (members.attach.map fun ⟨(key, value), h⟩ => (key, ⟨value, sizeOf_value_lt h⟩))
  | _ => .error .malformed

/-- The items of a member; a list that is missing is empty. -/
def parts (j : Json) (key : String) : FromWire (List j.Part) :=
  match j.part? key with
  | none => .ok []
  | some ⟨list, h⟩ => do
    return (← list.items).map fun ⟨item, hitem⟩ => ⟨item, Nat.lt_trans hitem h⟩

def namedParts (j : Json) (key : String) : FromWire (List (String × j.Part)) :=
  match j.part? key with
  | none => .ok []
  | some ⟨object, h⟩ => do
    return (← object.members).map fun (name, ⟨value, hvalue⟩) =>
      (name, ⟨value, Nat.lt_trans hvalue h⟩)

end Json

namespace Wire

variable {α : Type}

/-! ## Writing -/

def text (s : String) : Json := .str s

def natural (n : Nat) : Json := .int n

def float (x : Float) : Json := .str (Decimal.plain.write x)

def list (f : α → Json) (xs : List α) : Json := .arr (xs.map f)

def texts (xs : List String) : Json := list text xs

def orNull (f : α → Json) : Option α → Json
  | some a => f a
  | none => .null

/-- A member that is left out when there is nothing to write. -/
def given (key : String) (f : α → Json) : Option α → List (String × Json)
  | some a => [(key, f a)]
  | none => []

mutual
/-- JSON with its numbers as objects that hold their texts. -/
def spelled : Json → Json
  | .int n => .obj [("$number", text (toString n))]
  | .float x => if Decimal.isFinite x then .obj [("$number", float x)] else .null
  | .arr items => .arr (spelledItems items)
  | .obj members => .obj (spelledMembers members)
  | .null => .null
  | .bool b => .bool b
  | .str s => .str s

def spelledItems : List Json → List Json
  | [] => []
  | item :: items => spelled item :: spelledItems items

def spelledMembers : List (String × Json) → List (String × Json)
  | [] => []
  | (key, value) :: members => (key, spelled value) :: spelledMembers members
end

/-! ## Reading -/

def asText : Json → FromWire String
  | .str s => .ok s
  | _ => .error .malformed

def asBool : Json → FromWire Bool
  | .bool b => .ok b
  | _ => .error .malformed

def asInt : Json → FromWire Int
  | .int n => .ok n
  | _ => .error .malformed

def asNat : Json → FromWire Nat
  | .int n => if 0 ≤ n then .ok n.toNat else .error .malformed
  | _ => .error .malformed

def asFloat : Json → FromWire Float
  | .int n => .ok (Float.ofInt n)
  | .float x => .ok x
  | .str s =>
    match Decimal.ofText? s with
    | some x => .ok x
    | none => .error .malformed
  | _ => .error .malformed

def asMoment (j : Json) : FromWire Moment := do
  match Moment.ofTimestamp? (← asText j) with
  | some m => return m
  | none => .error .malformed

/-- A member that has to be there. -/
def field (decode : Json → FromWire α) (j : Json) (key : String) : FromWire α := do
  decode (← j.part key).1

/-- A member that may be missing. -/
def field? (decode : Json → FromWire α) (j : Json) (key : String) : FromWire (Option α) :=
  (j.part? key).mapM fun found => decode found.1

def fields (decode : Json → FromWire α) (j : Json) (key : String) : FromWire (List α) := do
  (← j.parts key).mapM fun item => decode item.1

/-- The members of a member, in the order of their names. -/
def namedFields (decode : Json → FromWire α) (j : Json) (key : String) :
    FromWire (Keyed α) := do
  return Keyed.ofList (← (← j.namedParts key).mapM fun (name, value) => do
    return (name, ← decode value.1))

def textAt (j : Json) (key : String) : FromWire String := field asText j key

def textsAt (j : Json) (key : String) : FromWire (List String) := fields asText j key

def boolAt (j : Json) (key : String) (missing : Bool) : FromWire Bool := do
  return (← field? asBool j key).getD missing

def natAt (j : Json) (key : String) : FromWire Nat := field asNat j key

def floatAt (j : Json) (key : String) : FromWire Float := field asFloat j key

def asItems (decode : Json → FromWire α) (j : Json) : FromWire (List α) := do
  (← j.items).mapM fun item => decode item.1

/-- One of several words. -/
def word (choices : List (String × α)) (j : Json) : FromWire α := do
  match choices.lookup (← asText j) with
  | some found => return found
  | none => .error .malformed

end Wire

/-! ## Places in a source -/

def Range.toWire (r : Range) : Json :=
  Event.rangeJson r

def Location.ofWire (j : Json) : FromWire Location := do
  return ⟨← Wire.field? Wire.asNat j "offset", ← Wire.field? Wire.asNat j "line",
    ← Wire.field? Wire.asNat j "column", ← Wire.field? Wire.asNat j "token"⟩

def Range.ofWire (j : Json) : FromWire Range := do
  return ⟨← Wire.field Location.ofWire j "start", ← Wire.field Location.ofWire j "end"⟩

def Wire.rangeAt (j : Json) : FromWire (Option Range) :=
  field? Range.ofWire j "range"

/-! ## Signatures -/

def Signature.toWire (s : Signature) : Json :=
  Wire.spelled s.toJson

def Argument.toWire (a : Argument) : Json :=
  Wire.spelled a.toJson

def Signature.ofWire (j : Json) : FromWire Signature :=
  match ofJson? j with
  | some s => .ok s
  | none => .error .signature

def Argument.ofWire (j : Json) : FromWire Argument :=
  match ofJson? j with
  | some a => .ok a
  | none => .error .signature

/-! ## Types -/

namespace Ty

def textToWire (type : Ty) : Json :=
  .str type.display

mutual
/-- A type with its parts; next to it there is the text of a type. -/
def toWire : Ty → Json
  | any => .obj [("t", .str "Any")]
  | boolean => .obj [("t", .str "Boolean")]
  | string => .obj [("t", .str "String")]
  | number => .obj [("t", .str "Number")]
  | currency => .obj [("t", .str "Currency")]
  | measure unit => .obj [("t", .str "Measure"), ("unit", .str unit)]
  | enum entries => .obj [("t", .str "Enum"), ("entries", Wire.orNull Wire.texts entries)]
  | entity kind => .obj [("t", .str "Entity"), ("kind", .str kind)]
  | date => .obj [("t", .str "Date")]
  | time => .obj [("t", .str "Time")]
  | location => .obj [("t", .str "Location")]
  | recurrentTime => .obj [("t", .str "RecurrentTimeSpecification")]
  | argMap => .obj [("t", .str "ArgMap")]
  | array elem => .obj [("t", .str "Array"), ("elem", toWire elem)]
  | compound fields => .obj [("t", .str "Compound"), ("fields", .obj (fieldsToWire fields))]
  | object => .obj [("t", .str "Object")]
  | var name => .obj [("t", .str "TypeVar"), ("name", .str name)]
  | unknown name => .obj [("t", .str "Unknown"), ("name", .str name)]

def fieldsToWire : List (String × Ty) → List (String × Json)
  | [] => []
  | (name, type) :: fields => (name, toWire type) :: fieldsToWire fields
end

/-- A type, as a text or with its parts. -/
def ofWire (j : Json) : FromWire Ty :=
  match j with
  | .str text => (parse text).mapError WireError.type
  | j => do
    match ← Wire.textAt j "t" with
    | "Any" => return any
    | "Boolean" => return boolean
    | "String" => return string
    | "Number" => return number
    | "Currency" => return currency
    | "Measure" => return measure (← Wire.textAt j "unit")
    | "Enum" => return enum (← Wire.field? (Wire.asItems Wire.asText) j "entries")
    | "Entity" => return entity (← Wire.textAt j "kind")
    | "Date" => return date
    | "Time" => return time
    | "Location" => return location
    | "RecurrentTimeSpecification" => return recurrentTime
    | "ArgMap" => return argMap
    | "Array" =>
      let ⟨elem, _⟩ ← j.part "elem"
      return array (← ofWire elem)
    | "Compound" =>
      let fields ← (← j.namedParts "fields").mapM fun (name, ⟨type, _⟩) => do
        return (name, ← ofWire type)
      return compound (Keyed.ofList fields)
    | "Object" => return object
    | "TypeVar" => return var (← Wire.textAt j "name")
    | "Unknown" => return unknown (← Wire.textAt j "name")
    | _ => .error .malformed
termination_by sizeOf j

end Ty

end SkillLang

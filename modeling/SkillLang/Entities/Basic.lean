import SkillLang.Calendar.Timestamp
import SkillLang.Calendar.Resolve
import SkillLang.Decimal.Style
import SkillLang.Keyed
import SkillLang.Limits
import SkillLang.Syntax.Value
import SkillLang.Text.Lowercase

/-!
# Entities

Constants are kept apart from the programs that use them, in a map from placeholders
to entities.  A placeholder is a type and a number with an underscore between them.
-/

namespace SkillLang

inductive Entity where
  | number (x : Float)
  /-- A string, an entity that is nothing but a string, or a date. -/
  | string (s : String)
  | time (hour minute second : Nat)
  | measure (x : Float) (unit : String)
  | currency (x : Float) (code : String)
  | location (latitude longitude : Float) (display : Option String)
  | generic (value display : Option String)
deriving BEq

abbrev EntityMap : Type := Keyed Entity

namespace Entity

/-- The parts of a text before and after its last underscore. -/
def splitPlaceholder? (placeholder : String) : Option (String × String) :=
  let reversed := placeholder.toList.reverse
  match reversed.dropWhile (· != '_') with
  | [] => none
  | _ :: before =>
    some (String.ofList before.reverse, String.ofList (reversed.takeWhile (· != '_')).reverse)

/-- The type of a placeholder, which is all of it if there is no number. -/
def typeOf (placeholder : String) : String :=
  match splitPlaceholder? placeholder with
  | some (type, _) => type
  | none => placeholder

/-- The kind of the values of a type whose entities are nothing but strings; quoted strings have
the empty kind. -/
def stringKind? : String → Option String
  | "QUOTED_STRING" => some ""
  | "HASHTAG" => some "tt:hashtag"
  | "USERNAME" => some "tt:username"
  | "URL" => some "tt:url"
  | "PHONE_NUMBER" => some "tt:phone_number"
  | "EMAIL_ADDRESS" => some "tt:email_address"
  | "PATH_NAME" => some "tt:path_name"
  | "PICTURE" => some "tt:picture"
  | _ => none

def textOf? : Value → Option String
  | .string s => some s
  | .entity e => e.value
  | _ => none

/-- The entity of a type that stands for a value at the moment `now`. -/
def ofValue? (type : String) (now : Moment) : Value → Option Entity
  | .number x => some (number x)
  | .string s => some (string s)
  | .measure x unit => some (measure x unit)
  | .currency x code => some (currency x code)
  | .entity e =>
    if (stringKind? type).isSome then e.value.map string else some (generic e.value e.display)
  | .place (.absolute latitude longitude display) => some (location latitude longitude display)
  | .date d => (d.resolve now).map fun moment => string moment.timestamp
  | .time (.absolute hour minute second) => some (time hour minute second)
  | _ => none

/-- Two numbers of degrees count as the same. -/
def isNear (a b : Float) : Bool :=
  (a - b).abs < Limits.locationEpsilon

/-- Entities of one identifier are the same, and without identifiers those of one name. -/
def sameGeneric (value display otherValue otherDisplay : Option String) : Bool :=
  match value, otherValue with
  | some a, some b => a == b
  | _, _ =>
    match display, otherDisplay with
    | some a, some b => Text.lowercase a == Text.lowercase b
    | _, _ => false

/-- The entity of a type stands for a value at the moment `now`. -/
def denotes (type : String) (now : Moment) (e : Entity) (v : Value) : Bool :=
  match v, e with
  | .number x, number y => x == y
  | .measure x unit, measure y other => x == y && unit == other
  | .currency x code, currency y other => x == y && Text.equalIgnoringCase code other
  | .entity a, generic value display => sameGeneric a.value a.display value display
  | .date d, string s =>
    match d.resolve now, Moment.ofTimestamp? s with
    | some a, some b => a == b
    | _, _ => false
  | .time (.absolute hour minute second), time h m s => hour == h && minute == m && second == s
  | .place (.absolute lat lon _), location latitude longitude _ =>
    isNear lat latitude && isNear lon longitude
  | .place (.unresolved name), location _ _ display => display == some name
  | v, string s => (stringKind? type).isSome && textOf? v == some s
  | _, _ => false

/-- The first placeholder of a type that stands for a value. -/
def placeholder? (entities : EntityMap) (type : String) (now : Moment) (v : Value) :
    Option String :=
  (List.find? (fun (key, e) => typeOf key == type && e.denotes type now v) entities).map Prod.fst

end Entity

end SkillLang

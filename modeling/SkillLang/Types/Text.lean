import SkillLang.Text.Basic
import SkillLang.Types.Basic

/-!
# The syntax of types

Types are written by name, with their parameters in parentheses and the fields of a
compound in braces.  Reading forgives blanks around names, and takes a name that it
does not know for an unknown type.
-/

namespace SkillLang

namespace Ty

mutual
def display : Ty → String
  | any => "Any"
  | boolean => "Boolean"
  | string => "String"
  | number => "Number"
  | currency => "Currency"
  | measure unit => "Measure(" ++ unit ++ ")"
  | enum none => "Enum(*)"
  | enum (some entries) => "Enum(" ++ ",".intercalate entries ++ ")"
  | entity kind => "Entity(" ++ kind ++ ")"
  | date => "Date"
  | time => "Time"
  | location => "Location"
  | recurrentTime => "RecurrentTimeSpecification"
  | argMap => "ArgMap"
  | array elem => "Array(" ++ display elem ++ ")"
  | compound fields => "\x7b " ++ displayFields "" fields ++ " \x7d"
  | object => "Object"
  | var name => name
  | unknown name => name

/-- The fields of a compound, the first after `separator` and the others after a comma. -/
def displayFields (separator : String) : List (String × Ty) → String
  | [] => ""
  | (name, type) :: fields =>
    separator ++ name ++ ": " ++ display type ++ displayFields ", " fields
end

/-- The parts of a text between the commas that stand outside of all brackets.  `depth` counts the
open brackets, and `part` holds the current part so far, last character first. -/
def splitFields (depth : Int) (part : List Char) : List Char → List (List Char)
  | [] => [part.reverse]
  | c :: cs =>
    if c == '(' || c == '\x7b' then splitFields (depth + 1) (c :: part) cs
    else if c == ')' || c == '\x7d' then splitFields (depth - 1) (c :: part) cs
    else if c == ',' && depth == 0 then part.reverse :: splitFields depth [] cs
    else splitFields depth (c :: part) cs

/-- The parts of a text between all its commas. -/
def splitCommas (part : List Char) : List Char → List (List Char)
  | [] => [part.reverse]
  | c :: cs => if c == ',' then part.reverse :: splitCommas [] cs else splitCommas (c :: part) cs

/-- The texts before and after the first `mark`, if there is one. -/
def splitAt? (mark : Char) : List Char → Option (List Char × List Char)
  | [] => none
  | c :: cs =>
    if c == mark then some ([], cs)
    else (splitAt? mark cs).map fun (before, after) => (c :: before, after)

/-- The text before `mark` at the end, if the text ends with it. -/
def dropEnd? (mark : Char) (cs : List Char) : Option (List Char) :=
  match cs.reverse with
  | [] => none
  | c :: rest => if c == mark then some rest.reverse else none

/-- The text between two braces, if the text stands between two. -/
def unbrace? : List Char → Option (List Char)
  | '\x7b' :: rest => dropEnd? '\x7d' rest
  | _ => none

def ofName : String → Ty
  | "Any" => any
  | "Boolean" => boolean
  | "String" => string
  | "Number" => number
  | "Currency" => currency
  | "Date" => date
  | "Time" => time
  | "Location" => location
  | "RecurrentTimeSpecification" => recurrentTime
  | "ArgMap" => argMap
  | "Object" => object
  | name => unknown name

/-- The texts that are not types. -/
structure SyntaxError where
  text : String
deriving DecidableEq, Repr

def SyntaxError.message (e : SyntaxError) : String :=
  "Invalid type '" ++ e.text ++ "'"

def trimmed (cs : List Char) : String :=
  String.ofList (Text.trimChars cs)

/-- Reads a type, with `fuel` more than it is nested deep. -/
def parseChars : (fuel : Nat) → List Char → Except SyntaxError Ty
  | 0, cs => .error ⟨String.ofList cs⟩
  | fuel + 1, cs => do
    let cs := Text.trimChars cs
    let invalid : SyntaxError := ⟨String.ofList cs⟩
    if cs.isEmpty then throw invalid
    match unbrace? cs with
    | some inner =>
      let fields ← (splitFields 0 [] inner).foldlM (fun fields part => do
        if (Text.trimChars part).isEmpty then return fields
        match splitAt? ':' part with
        | none => throw invalid
        | some (name, type) =>
          return Keyed.insert (trimmed name) (← parseChars fuel type) fields) []
      return compound fields
    | none =>
      match splitAt? '(' cs with
      | none => return ofName (String.ofList cs)
      | some (head, rest) =>
        match dropEnd? ')' rest with
        | none => throw invalid
        | some inner =>
          let inner := Text.trimChars inner
          match String.ofList head with
          | "Measure" => return measure (String.ofList inner)
          | "Entity" => return entity (String.ofList inner)
          | "Array" => return array (← parseChars fuel inner)
          | "Enum" =>
            if inner == ['*'] then return enum none
            else return enum (some ((splitCommas [] inner).map trimmed))
          | _ => throw invalid

/-- The type that a text is the syntax of. -/
def parse (text : String) : Except SyntaxError Ty :=
  parseChars (text.toList.length + 1) text.toList

end Ty

end SkillLang

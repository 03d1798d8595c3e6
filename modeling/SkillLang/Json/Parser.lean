import SkillLang.Json.Shape
import SkillLang.Json.Skip

/-!
# Reading JSON

A reader for the text of one value.  The members of an object are given as they are
written, with those of one key that are repeated.  Values may be nested `depth` deep.
A shape says which members are of use, and all others are passed over.
-/

namespace SkillLang.Json

mutual
/-- The value at the front of a text, blanks skipped.  `fuel` bounds the number of nested and
following values. -/
def readValue : (fuel depth : Nat) → Shape → List Char → Option (Json × List Char)
  | 0, _, _, _ => none
  | fuel + 1, depth, shape, cs =>
    match skipSpace cs with
    | 'n' :: 'u' :: 'l' :: 'l' :: rest => some (.null, rest)
    | 't' :: 'r' :: 'u' :: 'e' :: rest => some (.bool true, rest)
    | 'f' :: 'a' :: 'l' :: 's' :: 'e' :: rest => some (.bool false, rest)
    | '"' :: rest => (readString [] rest).map fun (s, rest) => (.str s, rest)
    | '[' :: rest =>
      match depth with
      | 0 => none
      | depth + 1 =>
        match skipSpace rest with
        | ']' :: rest => some (.arr [], rest)
        | rest => readItems fuel depth shape [] rest
    | '\x7b' :: rest =>
      match depth with
      | 0 => none
      | depth + 1 =>
        match skipSpace rest with
        | '\x7d' :: rest => some (.obj [], rest)
        | rest => readMembers fuel depth shape [] rest
    | rest => do
      let (numeral, rest) ← readNumeral rest
      return (← numeral.value, rest)

/-- The items of an array from the next item on; `read` holds those before it, last first. -/
def readItems : (fuel depth : Nat) → Shape → List Json → List Char → Option (Json × List Char)
  | 0, _, _, _, _ => none
  | fuel + 1, depth, shape, read, cs =>
    let (first, others) := shape.uncons
    match readValue fuel depth first cs with
    | none => none
    | some (item, cs) =>
      match skipSpace cs with
      | ',' :: cs => readItems fuel depth others (item :: read) cs
      | ']' :: cs => some (.arr (item :: read).reverse, cs)
      | _ => none

/-- The members of an object from the next member on. -/
def readMembers : (fuel depth : Nat) → Shape → List (String × Json) → List Char →
    Option (Json × List Char)
  | 0, _, _, _, _ => none
  | fuel + 1, depth, shape, read, cs =>
    match skipSpace cs with
    | '"' :: cs =>
      match readString [] cs with
      | none => none
      | some (key, cs) =>
        match skipSpace cs with
        | ':' :: cs =>
          match readMember fuel depth (shape.member? key) key read cs with
          | none => none
          | some (read, cs) =>
            match skipSpace cs with
            | ',' :: cs => readMembers fuel depth shape read cs
            | '\x7d' :: cs => some (.obj read.reverse, cs)
            | _ => none
        | _ => none
    | _ => none

/-- The members that have been read together with the one whose value comes next, if it has a
shape. -/
def readMember : (fuel depth : Nat) → Option Shape → String → List (String × Json) → List Char →
    Option (List (String × Json) × List Char)
  | 0, _, _, _, _, _ => none
  | fuel + 1, _, none, _, read, cs => (skipValue fuel cs).map fun cs => (read, cs)
  | fuel + 1, depth, some shape, key, read, cs =>
    (readValue fuel depth shape cs).map fun (value, cs) => ((key, value) :: read, cs)
end

/-- The parts of a shape of the value that a whole text stands for, with at most `depth` levels of
arrays and objects. -/
def parseShaped (shape : Shape) (depth : Nat) (text : String) : Option Json :=
  let cs := text.toList
  match readValue (2 * cs.length + 2) depth shape cs with
  | some (value, rest) => if (skipSpace rest).isEmpty then some value else none
  | none => none

/-- The value that a whole text stands for. -/
def parse (depth : Nat) (text : String) : Option Json :=
  parseShaped .whole depth text

end SkillLang.Json

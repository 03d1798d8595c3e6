import SkillLang.Json.Lexeme

/-!
# Passing over JSON values

A value that nobody asks for is passed over.  It has to be written correctly, but its
numbers may be of any size, its escapes may stand for half of a surrogate pair, and it
may be nested to any depth.
-/

namespace SkillLang.Json

/-- The text after the closing quote of a string. -/
def skipString : List Char → Option (List Char)
  | [] => none
  | '"' :: rest => some rest
  | '\\' :: 'u' :: a :: b :: c :: d :: rest =>
    if (fourHex a b c d).isSome then skipString rest else none
  | '\\' :: c :: rest => if (simpleEscape c).isSome then skipString rest else none
  | c :: rest => if c.toNat < 32 then none else skipString rest

/-- An array or an object that has been opened. -/
inductive Bracket where
  | array
  | object

/-- The text after the key of a member and its colon. -/
def skipKey (cs : List Char) : Option (List Char) :=
  match skipSpace cs with
  | '"' :: cs =>
    match skipString cs with
    | none => none
    | some cs =>
      match skipSpace cs with
      | ':' :: cs => some cs
      | _ => none
  | _ => none

/-- What follows a value inside of open brackets, the innermost first: the text from the next
value on with the brackets that are open there, or the text after the last bracket. -/
def skipToNext : List Bracket → List Char → Option (List Bracket × List Char)
  | [], cs => some ([], cs)
  | .array :: outer, cs =>
    match skipSpace cs with
    | ',' :: cs => some (.array :: outer, cs)
    | ']' :: cs => skipToNext outer cs
    | _ => none
  | .object :: outer, cs =>
    match skipSpace cs with
    | ',' :: cs => (skipKey cs).map fun cs => (.object :: outer, cs)
    | '\x7d' :: cs => skipToNext outer cs
    | _ => none

/-- Passes over the bracket or the simple value at the front of a text, with the same result. -/
def skipStep (opened : List Bracket) (cs : List Char) : Option (List Bracket × List Char) :=
  match skipSpace cs with
  | 'n' :: 'u' :: 'l' :: 'l' :: rest => skipToNext opened rest
  | 't' :: 'r' :: 'u' :: 'e' :: rest => skipToNext opened rest
  | 'f' :: 'a' :: 'l' :: 's' :: 'e' :: rest => skipToNext opened rest
  | '"' :: rest => (skipString rest).bind (skipToNext opened)
  | '[' :: rest =>
    match skipSpace rest with
    | ']' :: rest => skipToNext opened rest
    | rest => some (.array :: opened, rest)
  | '\x7b' :: rest =>
    match skipSpace rest with
    | '\x7d' :: rest => skipToNext opened rest
    | rest => (skipKey rest).map fun rest => (.object :: opened, rest)
  | rest => (readNumeral rest).bind fun (_, rest) => skipToNext opened rest

/-- The text after the value at the front of a text and after the brackets that are open there.
`fuel` bounds the number of values that are passed over. -/
def skipFrom : (fuel : Nat) → List Bracket → List Char → Option (List Char)
  | 0, _, _ => none
  | fuel + 1, opened, cs =>
    match skipStep opened cs with
    | none => none
    | some ([], cs) => some cs
    | some (opened, cs) => skipFrom fuel opened cs

/-- The text after the value at the front of a text. -/
def skipValue (fuel : Nat) (cs : List Char) : Option (List Char) :=
  skipFrom fuel [] cs

end SkillLang.Json

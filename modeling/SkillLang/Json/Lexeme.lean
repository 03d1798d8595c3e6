import SkillLang.Json.Numeral
import SkillLang.Text.Quoted

/-!
# Strings and numbers in JSON text

Readers for the parts of a text that hold no other values.  Blanks are spaces, tabs
and line ends; strings hold no control characters and no half of a surrogate pair.
Each reader gives the text that follows what it has read.
-/

namespace SkillLang.Json

def isSpace (c : Char) : Bool :=
  c == ' ' || c == '\n' || c == '\r' || c == '\t'

def skipSpace (cs : List Char) : List Char :=
  cs.dropWhile isSpace

/-- The value of the four hexadecimal digits of an escape. -/
def fourHex (a b c d : Char) : Option Nat := do
  let high := (← Text.hexValue a) * 16 + (← Text.hexValue b)
  let low := (← Text.hexValue c) * 16 + (← Text.hexValue d)
  return high * 256 + low

def simpleEscape (c : Char) : Option Char :=
  match c with
  | '"' => some '"'
  | '\\' => some '\\'
  | '/' => some '/'
  | 'b' => some (Char.ofNat 8)
  | 'f' => some (Char.ofNat 12)
  | 'n' => some '\n'
  | 'r' => some '\r'
  | 't' => some '\t'
  | _ => none

def isHighSurrogate (n : Nat) : Bool :=
  0xD800 ≤ n && n ≤ 0xDBFF

def isLowSurrogate (n : Nat) : Bool :=
  0xDC00 ≤ n && n ≤ 0xDFFF

/-- The characters of a string after its opening quote, `read` being those read so far with the
last one first, and the text after its closing quote. -/
def readString (read : List Char) : List Char → Option (String × List Char)
  | [] => none
  | '"' :: rest => some (String.ofList read.reverse, rest)
  | '\\' :: 'u' :: a :: b :: c :: d :: rest =>
    match fourHex a b c d with
    | none => none
    | some n =>
      if isLowSurrogate n then none
      else if isHighSurrogate n then
        match rest with
        | '\\' :: 'u' :: e :: f :: g :: h :: rest =>
          match fourHex e f g h with
          | none => none
          | some m =>
            if isLowSurrogate m then
              readString (Char.ofNat (0x10000 + (n - 0xD800) * 0x400 + (m - 0xDC00)) :: read) rest
            else none
        | _ => none
      else readString (Char.ofNat n :: read) rest
  | '\\' :: c :: rest =>
    match simpleEscape c with
    | none => none
    | some e => readString (e :: read) rest
  | c :: rest => if c.toNat < 32 then none else readString (c :: read) rest

/-- Digits at the front of a text, at least one, and the rest. -/
def readDigits (cs : List Char) : Option (List Char × List Char) :=
  match cs.span Char.isDigit with
  | ([], _) => none
  | (digits, rest) => some (digits, rest)

/-- Digits of a whole number, which begin with a zero only if there is nothing else. -/
def readWhole (cs : List Char) : Option (List Char × List Char) := do
  let (digits, rest) ← readDigits cs
  match digits with
  | '0' :: _ :: _ => none
  | _ => some (digits, rest)

def readFraction : List Char → Option (Option (List Char) × List Char)
  | '.' :: cs => (readDigits cs).map fun (digits, rest) => (some digits, rest)
  | cs => some (none, cs)

def readExponent : List Char → Option (Option (Bool × List Char) × List Char)
  | c :: cs =>
    if c == 'e' || c == 'E' then
      let (negative, cs) :=
        match cs with
        | '-' :: cs => (true, cs)
        | '+' :: cs => (false, cs)
        | cs => (false, cs)
      (readDigits cs).map fun (digits, rest) => (some (negative, digits), rest)
    else some (none, c :: cs)
  | [] => some (none, [])

/-- The parts of the number at the front of a text. -/
def readNumeral (cs : List Char) : Option (Numeral × List Char) := do
  let (negative, cs) :=
    match cs with
    | '-' :: cs => (true, cs)
    | cs => (false, cs)
  let (whole, cs) ← readWhole cs
  let (fraction, cs) ← readFraction cs
  let (exponent, cs) ← readExponent cs
  return (⟨negative, whole, fraction, exponent⟩, cs)

end SkillLang.Json

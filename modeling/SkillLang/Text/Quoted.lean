/-!
# Quoted text

Text is quoted the way JSON writes strings: between double quotes, with quotes,
backslashes and control characters escaped and everything else as it is.  Escapes
are written with hexadecimal digits, and read with those of either case.
-/

namespace SkillLang.Text

def hexDigit (n : Nat) : Char :=
  Nat.digitChar (n % 16)

/-- The value of a hexadecimal digit in either case. -/
def hexValue (c : Char) : Option Nat :=
  if c.isDigit then some (c.toNat - '0'.toNat)
  else if 'a' ≤ c ∧ c ≤ 'f' then some (c.toNat - 'a'.toNat + 10)
  else if 'A' ≤ c ∧ c ≤ 'F' then some (c.toNat - 'A'.toNat + 10)
  else none

def valueInBase (base : Nat) (digits : List Char) : Nat :=
  digits.foldl (fun n c => n * base + (hexValue c).getD 0) 0

/-- A character inside quotes. -/
def escapeChar (c : Char) : List Char :=
  match c with
  | '"' => ['\\', '"']
  | '\\' => ['\\', '\\']
  | '\n' => ['\\', 'n']
  | '\r' => ['\\', 'r']
  | '\t' => ['\\', 't']
  | c =>
    if c.toNat = 8 then ['\\', 'b']
    else if c.toNat = 12 then ['\\', 'f']
    else if c.toNat < 32 then
      ['\\', 'u', '0', '0', hexDigit (c.toNat / 16), hexDigit c.toNat]
    else [c]

def quoteChars (cs : List Char) : List Char :=
  '"' :: (cs.flatMap escapeChar ++ ['"'])

def quote (s : String) : String :=
  String.ofList (quoteChars s.toList)

end SkillLang.Text

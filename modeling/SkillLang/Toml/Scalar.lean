import SkillLang.Calendar.Timestamp
import SkillLang.Decimal.Reading
import SkillLang.Text.Quoted
import SkillLang.Toml.Basic

/-!
# TOML strings, numbers and dates

Readers for what stands at the front of a text; each gives what it has read and the
rest.  Strings in triple quotation marks may hold line ends and up to two quotation
marks in a row, also at their ends.  Digits may have single underscores between them.
-/

namespace SkillLang.Toml

abbrev Reader (α : Type) : Type := List Char → Option (α × List Char)

def isSpace (c : Char) : Bool :=
  c == ' ' || c == '\t'

def skipSpace (cs : List Char) : List Char :=
  cs.dropWhile isSpace

def afterNewline? : List Char → Option (List Char)
  | '\n' :: cs => some cs
  | '\r' :: '\n' :: cs => some cs
  | _ => none

/-- No control character but the tab. -/
def isPrintable (c : Char) : Bool :=
  c == '\t' || (0x20 ≤ c.toNat && c.toNat != 0x7F)

/-! ## Strings -/

/-- A character by its number, in a fixed count of hexadecimal digits. -/
def readCodePoint (count : Nat) : Reader Char := fun cs =>
  let digits := cs.take count
  let n := Text.valueInBase 16 digits
  if digits.length = count ∧ (digits.all fun c => (Text.hexValue c).isSome) ∧ n.isValidChar then
    some (Char.ofNat n, cs.drop count)
  else none

def readEscape : Reader Char
  | '"' :: cs => some ('"', cs)
  | '\\' :: cs => some ('\\', cs)
  | 'b' :: cs => some (Char.ofNat 8, cs)
  | 'f' :: cs => some (Char.ofNat 12, cs)
  | 'n' :: cs => some ('\n', cs)
  | 'r' :: cs => some ('\r', cs)
  | 't' :: cs => some ('\t', cs)
  | 'u' :: cs => readCodePoint 4 cs
  | 'U' :: cs => readCodePoint 8 cs
  | _ => none

/-- A character of a literal string. -/
def readPlain (quote : Char) : Reader (List Char)
  | [] => none
  | c :: cs => if isPrintable c && c != quote then some ([c], cs) else none

/-- A character of a string with escapes. -/
def readEscaped : Reader (List Char)
  | '\\' :: cs => (readEscape cs).map fun (c, cs) => ([c], cs)
  | cs => readPlain '"' cs

/-- Skips blanks and line ends; `fuel` bounds their number. -/
def skipLines : (fuel : Nat) → List Char → List Char
  | 0, cs => cs
  | fuel + 1, cs =>
    match afterNewline? cs with
    | some cs => skipLines fuel cs
    | none =>
      match cs with
      | c :: rest => if isSpace c then skipLines fuel rest else cs
      | [] => []

/-- What comes after a line end that is escaped, with the blank lines after it. -/
def afterContinuation? : List Char → Option (List Char)
  | '\\' :: cs => (afterNewline? (skipSpace cs)).map fun cs => skipLines cs.length cs
  | _ => none

/-- A character of a string of several lines. -/
def readLong (quote : Char) (read : Reader (List Char)) : Reader (List Char) := fun cs =>
  match afterNewline? cs with
  | some cs => some (['\n'], cs)
  | none =>
    match cs with
    | [] => none
    | c :: rest => if c = quote then some ([quote], rest) else read cs

def readLongEscaped : Reader (List Char) := fun cs =>
  match afterContinuation? cs with
  | some cs => some ([], cs)
  | none => readLong '"' readEscaped cs

/-- The end of a string on one line. -/
def closeShort (quote : Char) : Reader (List Char)
  | c :: cs => if c = quote then some ([], cs) else none
  | [] => none

/-- The end of a string of several lines: three quotation marks after up to two that belong to
the string. -/
def closeLong (quote : Char) : Reader (List Char) := fun cs =>
  let count := (cs.takeWhile (· == quote)).length
  if count < 3 then none
  else
    let extra := min (count - 3) 2
    some (List.replicate extra quote, cs.drop (extra + 3))

/-- Reads characters up to the end of a string; those in front of `cs` are in `read`, the last
one first. -/
def readUntil (close next : Reader (List Char)) :
    (fuel : Nat) → (read : List Char) → Reader String
  | 0, _, _ => none
  | fuel + 1, read, cs =>
    match close cs with
    | some (last, cs) => some (String.ofList (read.reverse ++ last), cs)
    | none => do
      let (found, cs) ← next cs
      readUntil close next fuel (found.reverse ++ read) cs

def readToEnd (close next : Reader (List Char)) : Reader String := fun cs =>
  readUntil close next (cs.length + 1) [] cs

/-- A string on one line. -/
def readShortString : Reader String
  | '"' :: cs => readToEnd (closeShort '"') readEscaped cs
  | '\'' :: cs => readToEnd (closeShort '\'') (readPlain '\'') cs
  | _ => none

/-- A line end directly after the opening quotation marks does not count. -/
def readString : Reader String
  | '"' :: '"' :: '"' :: cs =>
    readToEnd (closeLong '"') readLongEscaped ((afterNewline? cs).getD cs)
  | '\'' :: '\'' :: '\'' :: cs =>
    readToEnd (closeLong '\'') (readLong '\'' (readPlain '\'')) ((afterNewline? cs).getD cs)
  | cs => readShortString cs

/-! ## Numbers -/

/-- Digits after those that have been read, the last of them first. -/
def readMoreDigits (isDigit : Char → Bool) (read : List Char) : List Char → List Char × List Char
  | '_' :: c :: cs =>
    if isDigit c then readMoreDigits isDigit (c :: read) cs else (read.reverse, '_' :: c :: cs)
  | c :: cs => if isDigit c then readMoreDigits isDigit (c :: read) cs else (read.reverse, c :: cs)
  | [] => (read.reverse, [])

def readDigits (isDigit : Char → Bool) : Reader (List Char)
  | c :: cs => if isDigit c then some (readMoreDigits isDigit [c] cs) else none
  | [] => none

/-- Digits of a whole number, which begin with a zero only if there is nothing else. -/
def readWhole : Reader (List Char)
  | '0' :: cs => some (['0'], cs)
  | cs => readDigits Char.isDigit cs

def splitSign : List Char → List Char × List Char
  | '+' :: cs => (['+'], cs)
  | '-' :: cs => (['-'], cs)
  | cs => ([], cs)

/-- An integer in another base than ten.  Integers have 64 bits, one of them for the sign. -/
def readInBase (base : Nat) : Reader Toml := fun cs => do
  let isDigit (c : Char) : Bool := (Text.hexValue c).any fun n => n < base
  let (digits, cs) ← readDigits isDigit cs
  let n := Text.valueInBase base digits
  if n < Nat.pow 2 63 then some (.integer n, cs) else none

def readInteger : Reader Toml
  | '0' :: 'x' :: cs => readInBase 16 cs
  | '0' :: 'o' :: cs => readInBase 8 cs
  | '0' :: 'b' :: cs => readInBase 2 cs
  | cs => do
    let (sign, cs) := splitSign cs
    let (digits, cs) ← readWhole cs
    let size : Int := Decimal.valueOf digits
    let n := if sign = ['-'] then -size else size
    if -(Nat.pow 2 63 : Int) ≤ n ∧ n < Nat.pow 2 63 then some (.integer n, cs) else none

def readFraction : Reader (List Char)
  | '.' :: cs => (readDigits Char.isDigit cs).map fun (digits, cs) => ('.' :: digits, cs)
  | cs => some ([], cs)

def readExponent : Reader (List Char)
  | [] => some ([], [])
  | c :: cs =>
    if c = 'e' ∨ c = 'E' then
      let (sign, cs) := splitSign cs
      (readDigits Char.isDigit cs).map fun (digits, cs) => ('e' :: (sign ++ digits), cs)
    else some ([], c :: cs)

/-- A number with a fraction or an exponent, unless it is too large. -/
def readDecimal : Reader Toml := fun cs => do
  let (sign, cs) := splitSign cs
  let (whole, cs) ← readWhole cs
  let (fraction, cs) ← readFraction cs
  let (exponent, cs) ← readExponent cs
  let x ← Decimal.ofText? (String.ofList (sign ++ whole ++ fraction ++ exponent))
  if (fraction.isEmpty && exponent.isEmpty) || x == Decimal.infinity then none
  else some (.float x, cs)

def readSpecial : Reader Toml := fun cs =>
  let (sign, cs) := splitSign cs
  let signed (x : Float) : Float := if sign = ['-'] then -x else x
  match cs with
  | 'i' :: 'n' :: 'f' :: cs => some (.float (signed Decimal.infinity), cs)
  | 'n' :: 'a' :: 'n' :: cs => some (.float Decimal.notNumber, cs)
  | _ => none

def readNumber : Reader Toml := fun cs =>
  (readDecimal cs).or <| (readSpecial cs).or (readInteger cs)

/-! ## Dates -/

def readPair (low high : Nat) : List Char → Option (List Char) := fun cs => do
  let (n, cs) ← Moment.takeDigits 2 cs
  if low ≤ n ∧ n ≤ high then some cs else none

/-- What comes after a time of day, which may have a leap second and a fraction. -/
def afterTime? (cs : List Char) : Option (List Char) := do
  let cs ← Moment.takeMark [':'] (← readPair 0 23 cs)
  let cs ← Moment.takeMark [':'] (← readPair 0 59 cs)
  let (_, cs) ← Moment.takeFraction (← readPair 0 60 cs)
  return cs

def afterOffset? : List Char → Option (List Char)
  | 'Z' :: cs | 'z' :: cs => some cs
  | cs => do
    let cs ← readPair 0 23 (← Moment.takeMark ['+', '-'] cs)
    readPair 0 59 (← Moment.takeMark [':'] cs)

def afterDay? (cs : List Char) : Option (List Char) := do
  let (year, cs) ← Moment.takeDigits 4 cs
  let (month, cs) ← Moment.takeDigits 2 (← Moment.takeMark ['-'] cs)
  let (day, cs) ← Moment.takeDigits 2 (← Moment.takeMark ['-'] cs)
  if 1 ≤ month ∧ month ≤ 12 ∧ 1 ≤ day ∧ day ≤ Date.daysInMonth year month then some cs else none

/-- What comes after a day, perhaps with a time of day, perhaps with an offset. -/
def afterDate? (cs : List Char) : Option (List Char) := do
  let day ← afterDay? cs
  match (Moment.takeMark ['T', 't', ' '] day).bind afterTime? with
  | some time => return (afterOffset? time).getD time
  | none => return day

def readDate : Reader Toml := fun cs => do
  let rest ← (afterDate? cs).or (afterTime? cs)
  return (.date (String.ofList (cs.take (cs.length - rest.length))), rest)

/-- A value that is not made of others. -/
def readScalar : Reader Toml
  | 't' :: 'r' :: 'u' :: 'e' :: cs => some (.boolean true, cs)
  | 'f' :: 'a' :: 'l' :: 's' :: 'e' :: cs => some (.boolean false, cs)
  | cs =>
    ((readString cs).map fun (s, cs) => (.string s, cs)).or <|
      (readDate cs).or (readNumber cs)

end SkillLang.Toml

/-!
# Reading decimals

A natural number is read from ASCII digits alone, without a sign, and has to be below a
bound.  A decimal text stands for the double that is nearest to it: digits with a point
and an exponent, an infinity, or no number at all.
-/

namespace SkillLang.Decimal

/-! ## Digits -/

def valueOf (digits : List Char) : Nat :=
  digits.foldl (fun n c => 10 * n + (c.toNat - '0'.toNat)) 0

/-- The number that a text stands for, if it consists of digits and the number is below the
bound. -/
def natOf? (bound : Nat) (text : List Char) : Option Nat :=
  if text.isEmpty || !text.all Char.isDigit then none
  else if valueOf text < bound then some (valueOf text)
  else none

/-! ## Doubles -/

def notNumber : Float := 0.0 / 0.0

def infinity : Float := 1.0 / 0.0

def signed? (text : List Char) : Option Int :=
  let digits? (digits : List Char) : Option Nat :=
    if digits.isEmpty || !digits.all Char.isDigit then none else some (valueOf digits)
  match text with
  | '-' :: digits => (digits? digits).map fun n => -(n : Int)
  | '+' :: digits => (digits? digits).map Int.ofNat
  | digits => (digits? digits).map Int.ofNat

/-- What follows the digits of a decimal. -/
def exponent? : List Char → Option Int
  | [] => some 0
  | c :: cs => if c = 'e' ∨ c = 'E' then signed? cs else none

/-- A number times a power of ten.  Doubles lie between ten to the power of -324 and ten to the
power of 309, so that what is far outside is not computed. -/
def scaled (number : Nat) (exponent : Int) : Float :=
  let size := (Nat.toDigits 10 number).length + exponent
  if number = 0 ∨ size < -400 then 0.0
  else if 400 < size then infinity
  else Float.ofScientific number (decide (exponent < 0)) exponent.natAbs

/-- A decimal without a sign. -/
def magnitude? (text : List Char) : Option Float := do
  let whole := text.takeWhile Char.isDigit
  let (fraction, rest) := match text.dropWhile Char.isDigit with
    | '.' :: cs => (cs.takeWhile Char.isDigit, cs.dropWhile Char.isDigit)
    | cs => ([], cs)
  let exponent ← exponent? rest
  if whole.isEmpty && fraction.isEmpty then none
  else some (scaled (valueOf (whole ++ fraction)) (exponent - fraction.length))

def ofText? (text : String) : Option Float :=
  if text = "NaN" then some notNumber
  else if text = "inf" then some infinity
  else if text = "-inf" then some (-infinity)
  else
    match text.toList with
    | '-' :: cs => (magnitude? cs).map fun x => -x
    | '+' :: cs => magnitude? cs
    | cs => magnitude? cs

end SkillLang.Decimal

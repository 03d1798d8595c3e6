import SkillLang.Decimal.Shortest

/-!
# Writing numbers

A style says how the shortest digits of a number are laid out: where positional
writing ends, whether integral numbers keep a decimal, and what stands for the
numbers that are not finite.
-/

namespace SkillLang.Decimal

structure Style where
  tie : Tie
  /-- Numbers from one up to this many digits before the point are written positionally. -/
  mostLeading : Option Nat
  /-- Numbers below one are written positionally up to this many zeros after the point. -/
  mostZeros : Option Nat
  /-- Integral numbers are written with a point and a zero. -/
  keepsPoint : Bool
  /-- Exponents that are not negative are written with a plus sign. -/
  signsExponent : Bool

def zeros (n : Nat) : List Char :=
  List.replicate n '0'

/-- The digits with the decimal point in its place. -/
def positional (keepsPoint : Bool) (ds : List Char) (exponent : Int) : List Char :=
  if 0 ≤ exponent then
    ds ++ zeros exponent.toNat ++ (if keepsPoint then ['.', '0'] else [])
  else
    let after := (-exponent).toNat
    if after < ds.length then ds.take (ds.length - after) ++ '.' :: ds.drop (ds.length - after)
    else '0' :: '.' :: zeros (after - ds.length) ++ ds

/-- One digit, the point and the other digits if there are any, and an exponent. -/
def scientific (signsExponent : Bool) (ds : List Char) (exponent : Int) : List Char :=
  let power := exponent + ds.length - 1
  let head := if ds.length ≤ 1 then ds else ds.take 1 ++ '.' :: ds.drop 1
  let sign := if power < 0 then ['-'] else if signsExponent then ['+'] else []
  head ++ 'e' :: (sign ++ Nat.toDigits 10 power.natAbs)

/-- The point stands within the range that the style writes positionally. -/
def Style.isPositional (f : Style) (count : Nat) (exponent : Int) : Bool :=
  let leading := exponent + count
  if 0 < leading then f.mostLeading.all fun most => decide (leading ≤ most)
  else f.mostZeros.all fun most => decide (-leading ≤ most)

def Style.layout (f : Style) (d : Digits) : List Char :=
  let ds := Nat.toDigits 10 d.digits
  if f.isPositional ds.length d.exponent then positional f.keepsPoint ds d.exponent
  else scientific f.signsExponent ds d.exponent

def isNegative (x : Float) : Bool :=
  x.toBits.toNat / Nat.pow 2 63 == 1

/-- The size of a number whose bits are those of a finite number. -/
def Style.magnitude (f : Style) (x : Float) : List Char :=
  let b := Binary.ofBits x.toBits
  if b.mantissa = 0 then positional f.keepsPoint ['0'] 0 else f.layout (b.shortest f.tie)

def exponentBits (x : Float) : Nat :=
  x.toBits.toNat / Nat.pow 2 52 % Nat.pow 2 11

/-- Neither infinite nor an invalid number. -/
def isFinite (x : Float) : Bool :=
  exponentBits x != 2047

def isNotNumber (x : Float) : Bool :=
  !isFinite x && x.toBits.toNat % Nat.pow 2 52 != 0

def Style.write (f : Style) (x : Float) : String :=
  if isNotNumber x then "NaN"
  else
    let size := if isFinite x then f.magnitude x else ['i', 'n', 'f']
    String.ofList (if isNegative x then '-' :: size else size)

/-- Numbers are shown with the fewest digits that identify them and never with an exponent. -/
def plain : Style := ⟨.up, none, none, false, false⟩

/-- Numbers in JSON keep at least one decimal, and carry an exponent from `1e+16` on and
below `0.00001`. -/
def json : Style := ⟨.toEven, some 16, some 4, true, true⟩

/-- Numbers that are shown for inspection keep at least one decimal, and carry an exponent from
`1e16` on and below `0.0001`. -/
def inspected : Style := ⟨.up, some 16, some 3, true, false⟩

/-- The integer that a number is equal to, if there is one. -/
def exactInt? (x : Float) : Option Int :=
  let b := Binary.ofBits x.toBits
  if isFinite x && b.numerator % b.denominator == 0 then
    let size : Int := (b.numerator / b.denominator : Nat)
    some (if isNegative x then -size else size)
  else none

/-- Integers of at most fifteen digits are written as integers and other numbers plainly. -/
def number (x : Float) : String :=
  match exactInt? x with
  | some n => if n.natAbs < Nat.pow 10 15 then toString n else plain.write x
  | none => plain.write x

end SkillLang.Decimal

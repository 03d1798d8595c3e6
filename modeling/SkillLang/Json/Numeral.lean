import SkillLang.Json.Basic

/-!
# Numbers in JSON text

A number without fraction and exponent is an exact integer when it fits in 64 bits,
signed or not, and minus zero is a double.  Every other number is a double, read from
as many leading digits as fit in 64 bits, scaled by one power of ten.
-/

namespace SkillLang.Json

def digitValue (c : Char) : Nat :=
  c.toNat - '0'.toNat

/-- Appends digits to a significand for as long as it fits in 64 bits; the result comes with
the number of digits that were used. -/
def significandFrom (significand : Nat) : List Char → Nat × Nat
  | [] => (significand, 0)
  | c :: cs =>
    let next := significand * 10 + digitValue c
    if next < Nat.pow 2 64 then
      let (result, used) := significandFrom next cs
      (result, used + 1)
    else (significand, 0)

def powerOfTen (n : Nat) : Float :=
  Float.ofScientific 1 false n

/-- A double times a power of ten; there is none when it is too large. -/
def scaleByTen : (steps : Nat) → Float → Int → Option Float
  | steps, x, exponent =>
    if exponent.natAbs ≤ 308 then
      if 0 ≤ exponent then
        let y := x * powerOfTen exponent.natAbs
        if y == 1.0 / 0.0 then none else some y
      else some (x / powerOfTen exponent.natAbs)
    else if x == 0.0 then some x
    else if 0 ≤ exponent then none
    else
      match steps with
      | 0 => some 0.0
      | steps + 1 => scaleByTen steps (x / powerOfTen 308) (exponent + 308)

/-- The parts of the text of a number. -/
structure Numeral where
  negative : Bool
  whole : List Char
  fraction : Option (List Char)
  /-- The exponent with its sign, if one is written. -/
  exponent : Option (Bool × List Char)

def Numeral.double (n : Numeral) : Option Float :=
  let (first, usedWhole) := significandFrom 0 n.whole
  let (significand, usedFraction) := significandFrom first (n.fraction.getD [])
  let shift : Int := (n.whole.length - usedWhole : Nat) - (usedFraction : Int)
  let sign (x : Float) : Float := if n.negative then -x else x
  match n.exponent with
  | none => (scaleByTen 3 (Float.ofNat significand) shift).map sign
  | some (negative, digits) =>
    let power := digits.foldl (fun value c => value * 10 + digitValue c) 0
    if power < Nat.pow 2 31 then
      let written : Int := if negative then -power else power
      (scaleByTen 3 (Float.ofNat significand) (shift + written)).map sign
    else if significand ≠ 0 ∧ !negative then none
    else some (sign 0.0)

/-- The value of a number, unless it is too large for a double. -/
def Numeral.value (n : Numeral) : Option Json :=
  let size := n.whole.foldl (fun value c => value * 10 + digitValue c) 0
  let exact := n.fraction.isNone && n.exponent.isNone
  if exact && !n.negative && decide (size < Nat.pow 2 64) then some (.int size)
  else if exact && n.negative && decide (0 < size ∧ size ≤ Nat.pow 2 63) then some (.int (-size))
  else n.double.map .float

end SkillLang.Json

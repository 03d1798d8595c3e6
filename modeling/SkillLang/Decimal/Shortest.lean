/-!
# The fewest digits that read back

A finite number is `mantissa * 2 ^ exponent`.  The real numbers that round to it
form an interval whose ends belong to it when the mantissa is even.  The shortest
decimal of the number is the one with the fewest digits in that interval, and
among those the nearest.  Everything is computed with exact natural numbers.
-/

namespace SkillLang.Decimal

/-- The size of a finite number: `mantissa * 2 ^ exponent`. -/
structure Binary where
  mantissa : Nat
  exponent : Int
  /-- The number below is only half as far away as the number above. -/
  narrowBelow : Bool

/-- The size that the bits of a finite number stand for. -/
def Binary.ofBits (bits : UInt64) : Binary :=
  let exponent : Nat := bits.toNat / Nat.pow 2 52 % Nat.pow 2 11
  let fraction : Nat := bits.toNat % Nat.pow 2 52
  if exponent = 0 then ⟨fraction, -1074, false⟩
  else ⟨Nat.pow 2 52 + fraction, (exponent : Int) - 1075, fraction == 0 && exponent > 1⟩

def Binary.numerator (b : Binary) : Nat :=
  b.mantissa * Nat.pow 2 b.exponent.toNat

def Binary.denominator (b : Binary) : Nat :=
  Nat.pow 2 (-b.exponent).toNat

/-- The decimal `digits * 10 ^ exponent`. -/
structure Digits where
  digits : Nat
  exponent : Int
deriving Repr, DecidableEq

/-- The order of `a * 10 ^ i` and `b * 2 ^ j`. -/
def compareScaled (a : Nat) (i : Int) (b : Nat) (j : Int) : Ordering :=
  compare (a * Nat.pow 10 i.toNat * Nat.pow 2 (-j).toNat)
    (b * Nat.pow 2 j.toNat * Nat.pow 10 (-i).toNat)

/-- The decimal lies in the interval of reals that round to the number. -/
def Binary.readsBack (b : Binary) (d : Digits) : Bool :=
  let low := if b.narrowBelow then 4 * b.mantissa - 1 else 4 * b.mantissa - 2
  let atLow := compareScaled d.digits d.exponent low (b.exponent - 2)
  let atHigh := compareScaled d.digits d.exponent (4 * b.mantissa + 2) (b.exponent - 2)
  let closed := b.mantissa % 2 == 0
  (atLow == .gt || (closed && atLow == .eq)) && (atHigh == .lt || (closed && atHigh == .eq))

/-- Which of two equally near decimals is chosen. -/
inductive Tie where
  | up
  | toEven
deriving DecidableEq

def digitCount (n : Nat) : Nat :=
  (Nat.toDigits 10 n).length

/-- The least `k` with the number below `10 ^ k`, for a number that is not zero. -/
def Binary.scale (b : Binary) : Int :=
  if b.denominator ≤ b.numerator then digitCount (b.numerator / b.denominator)
  else 1 - (digitCount ((b.denominator - 1) / b.numerator) : Int)

/-- The better of two neighbouring points of a decimal grid, the number lying between them. -/
def Binary.nearer (b : Binary) (tie : Tie) (below : Nat) (exponent : Int) : Digits :=
  match compareScaled (2 * below + 1) exponent (2 * b.mantissa) b.exponent with
  | .lt => ⟨below + 1, exponent⟩
  | .gt => ⟨below, exponent⟩
  | .eq =>
    match tie with
    | .up => ⟨below + 1, exponent⟩
    | .toEven => if below % 2 = 0 then ⟨below, exponent⟩ else ⟨below + 1, exponent⟩

/-- The decimal on the grid of spacing `10 ^ exponent` that reads back, if there is one. -/
def Binary.onGrid (b : Binary) (tie : Tie) (exponent : Int) : Option Digits :=
  let below := b.numerator * Nat.pow 10 (-exponent).toNat /
    (b.denominator * Nat.pow 10 exponent.toNat)
  match b.readsBack ⟨below, exponent⟩, b.readsBack ⟨below + 1, exponent⟩ with
  | true, true => some (b.nearer tie below exponent)
  | true, false => some ⟨below, exponent⟩
  | false, true => some ⟨below + 1, exponent⟩
  | false, false => none

/-- The exact value of a number as a decimal. -/
def Binary.exact (b : Binary) : Digits :=
  if b.exponent < 0 then ⟨b.mantissa * Nat.pow 5 (-b.exponent).toNat, b.exponent⟩
  else ⟨b.numerator, 0⟩

/-- Moves zeros at the end of the digits into the exponent. -/
def stripZeros : Nat → Digits → Digits
  | 0, d => d
  | fuel + 1, d =>
    if d.digits ≠ 0 ∧ d.digits % 10 = 0 then stripZeros fuel ⟨d.digits / 10, d.exponent + 1⟩ else d

/-- The shortest decimal that reads back as a number that is not zero. -/
def Binary.shortest (b : Binary) (tie : Tie) : Digits :=
  let found := (List.range 17).findSome? fun n => b.onGrid tie (b.scale - (n + 1 : Nat))
  stripZeros 18 (found.getD b.exact)

end SkillLang.Decimal

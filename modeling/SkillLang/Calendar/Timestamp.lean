import SkillLang.Calendar.Moment

/-!
# Timestamps

The written form of moments: date, time and offset as RFC 3339 has them.  Fractions
are written with three, six or nine digits, and years outside of 0 to 9999 with a sign.
-/

namespace SkillLang

namespace Moment

/-- A number with zeros in front up to a width. -/
def padded (width n : Nat) : String :=
  let digits := Nat.toDigits 10 n
  String.ofList (List.replicate (width - digits.length) '0' ++ digits)

def writeYear (year : Int) : String :=
  if 0 ≤ year ∧ year ≤ 9999 then padded 4 year.toNat
  else (if year < 0 then "-" else "+") ++ padded 4 year.natAbs

def writeFraction (nanos : Nat) : String :=
  if nanos = 0 then ""
  else if nanos % 1000000 = 0 then "." ++ padded 3 (nanos / 1000000)
  else if nanos % 1000 = 0 then "." ++ padded 6 (nanos / 1000)
  else "." ++ padded 9 nanos

/-- An offset in hours and minutes, rounded to the nearest minute. -/
def writeOffset (offset : Int) : String :=
  let minutes := (offset.natAbs + 30) / 60
  (if offset < 0 then "-" else "+") ++ padded 2 (minutes / 60) ++ ":" ++ padded 2 (minutes % 60)

def timestamp (m : Moment) : String :=
  let time := m.toLocal
  let leap := if 1000000000 ≤ m.nanos then 1 else 0
  writeYear time.date.year ++ "-" ++ padded 2 time.date.month ++ "-" ++ padded 2 time.date.day ++
    "T" ++ padded 2 (time.second / 3600) ++ ":" ++ padded 2 (time.second / 60 % 60) ++ ":" ++
    padded 2 (time.second % 60 + leap) ++ writeFraction (m.nanos % 1000000000) ++
    writeOffset m.offset

/-- A number of exactly `count` digits at the front of a text, and the rest. -/
def takeDigits (count : Nat) (cs : List Char) : Option (Nat × List Char) :=
  let digits := cs.take count
  if digits.length = count ∧ digits.all Char.isDigit then
    some (digits.foldl (fun n c => n * 10 + (c.toNat - '0'.toNat)) 0, cs.drop count)
  else none

def takeMark (allowed : List Char) : List Char → Option (List Char)
  | [] => none
  | c :: cs => if allowed.contains c then some cs else none

/-- Nanoseconds from a decimal fraction; digits after the ninth are ignored. -/
def takeFraction : List Char → Option (Nat × List Char)
  | '.' :: cs =>
    let (digits, rest) := cs.span Char.isDigit
    if digits.isEmpty then none
    else
      let first := digits.take 9
      let value := first.foldl (fun n c => n * 10 + (c.toNat - '0'.toNat)) 0
      some (value * Nat.pow 10 (9 - first.length), rest)
  | cs => some (0, cs)

def takeOffset : List Char → Option (Int × List Char)
  | 'Z' :: cs | 'z' :: cs => some (0, cs)
  | sign :: cs => do
    let negative ← if sign == '+' then some false
      else if sign == '-' || sign == '\u2212' then some true else none
    let (hours, cs) ← takeDigits 2 cs
    let cs ← takeMark [':'] cs
    let (minutes, cs) ← takeDigits 2 cs
    let size : Int := (hours * 3600 + minutes * 60 : Nat)
    if minutes < 60 ∧ size < 86400 then some (if negative then -size else size, cs) else none
  | [] => none

def ofTimestamp? (text : String) : Option Moment := do
  let (year, cs) ← takeDigits 4 text.toList
  let cs ← takeMark ['-'] cs
  let (month, cs) ← takeDigits 2 cs
  let cs ← takeMark ['-'] cs
  let (day, cs) ← takeDigits 2 cs
  let cs ← takeMark ['T', 't', ' '] cs
  let (hour, cs) ← takeDigits 2 cs
  let cs ← takeMark [':'] cs
  let (minute, cs) ← takeDigits 2 cs
  let cs ← takeMark [':'] cs
  let (second, cs) ← takeDigits 2 cs
  let (nanos, cs) ← takeFraction cs
  let (offset, cs) ← takeOffset cs
  let date ← Date.of? year month day
  let leap := second == 60
  let time ← LocalTime.of? date hour minute (if leap then 59 else second)
  if cs.isEmpty then
    ofLocal? { time with nanos := if leap then nanos + 1000000000 else nanos } offset
  else none

end Moment

end SkillLang

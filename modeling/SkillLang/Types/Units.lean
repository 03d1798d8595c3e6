/-!
# Units of measure

Every known unit belongs to a quantity, which is named by its base unit.  A value in
a unit is converted to the base unit by a factor and an offset.
-/

namespace SkillLang

structure MeasureUnit where
  name : String
  /-- The base unit of its quantity. -/
  base : String
  scale : Float
  offset : Float

namespace MeasureUnit

def known : List MeasureUnit :=
  [
    ⟨"ms", "ms", 1.0, 0.0⟩,
    ⟨"s", "ms", 1000.0, 0.0⟩,
    ⟨"min", "ms", 60000.0, 0.0⟩,
    ⟨"h", "ms", 3600000.0, 0.0⟩,
    ⟨"day", "ms", 86400000.0, 0.0⟩,
    ⟨"week", "ms", 604800000.0, 0.0⟩,
    ⟨"mon", "ms", 2592000000.0, 0.0⟩,
    ⟨"year", "ms", 31536000000.0, 0.0⟩,
    ⟨"m", "m", 1.0, 0.0⟩,
    ⟨"km", "m", 1000.0, 0.0⟩,
    ⟨"mm", "m", 0.001, 0.0⟩,
    ⟨"cm", "m", 0.01, 0.0⟩,
    ⟨"mi", "m", 1609.344, 0.0⟩,
    ⟨"in", "m", 0.0254, 0.0⟩,
    ⟨"ft", "m", 0.3048, 0.0⟩,
    ⟨"m2", "m2", 1.0, 0.0⟩,
    ⟨"km2", "m2", 1000000.0, 0.0⟩,
    ⟨"ft2", "m2", 0.092903, 0.0⟩,
    ⟨"m3", "m3", 1.0, 0.0⟩,
    ⟨"l", "m3", 0.001, 0.0⟩,
    ⟨"ml", "m3", 0.000001, 0.0⟩,
    ⟨"gal", "m3", 0.00378541, 0.0⟩,
    ⟨"mps", "mps", 1.0, 0.0⟩,
    ⟨"kmph", "mps", 0.2777777778, 0.0⟩,
    ⟨"mph", "mps", 0.44704, 0.0⟩,
    ⟨"kg", "kg", 1.0, 0.0⟩,
    ⟨"g", "kg", 0.001, 0.0⟩,
    ⟨"lb", "kg", 0.453592, 0.0⟩,
    ⟨"oz", "kg", 0.0283495, 0.0⟩,
    ⟨"Pa", "Pa", 1.0, 0.0⟩,
    ⟨"bar", "Pa", 100000.0, 0.0⟩,
    ⟨"psi", "Pa", 6894.76, 0.0⟩,
    ⟨"mmHg", "Pa", 133.322, 0.0⟩,
    ⟨"atm", "Pa", 101325.0, 0.0⟩,
    ⟨"C", "C", 1.0, 0.0⟩,
    ⟨"F", "C", 5.0 / 9.0, -32.0 * 5.0 / 9.0⟩,
    ⟨"K", "C", 1.0, -273.15⟩,
    ⟨"kcal", "kcal", 1.0, 0.0⟩,
    ⟨"kJ", "kcal", 0.239006, 0.0⟩,
    ⟨"byte", "byte", 1.0, 0.0⟩,
    ⟨"KB", "byte", 1000.0, 0.0⟩,
    ⟨"MB", "byte", 1000000.0, 0.0⟩,
    ⟨"GB", "byte", 1000000000.0, 0.0⟩,
    ⟨"TB", "byte", 1000000000000.0, 0.0⟩,
    ⟨"KiB", "byte", 1024.0, 0.0⟩,
    ⟨"MiB", "byte", 1048576.0, 0.0⟩,
    ⟨"GiB", "byte", 1073741824.0, 0.0⟩,
    ⟨"W", "W", 1.0, 0.0⟩,
    ⟨"kW", "W", 1000.0, 0.0⟩,
    ⟨"lx", "lx", 1.0, 0.0⟩,
    ⟨"nit", "nit", 1.0, 0.0⟩,
    ⟨"dBm", "dBm", 1.0, 0.0⟩,
    ⟨"dB", "dB", 1.0, 0.0⟩,
    ⟨"bpm", "bpm", 1.0, 0.0⟩,
    ⟨"ppm", "ppm", 1.0, 0.0⟩
  ]

def find? (unit : String) : Option MeasureUnit :=
  known.find? fun candidate => candidate.name == unit

def isKnown (unit : String) : Bool :=
  (find? unit).isSome

/-- The base unit of a unit; a unit that is not known is its own. -/
def baseOf (unit : String) : String :=
  match find? unit with
  | some found => found.base
  | none => unit

/-- A value of a unit as a value of its base unit. -/
def toBase (value : Float) (unit : String) : Float :=
  match find? unit with
  | some found => value * found.scale + found.offset
  | none => value

def sameQuantity (a b : String) : Bool :=
  baseOf a == baseOf b

end MeasureUnit

end SkillLang

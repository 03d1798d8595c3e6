import SkillLang.Slots.Basic
import SkillLang.Wire.Value

/-!
# Slots in the wire form
-/

namespace SkillLang

open Wire

namespace ScopeEntry

def toWire (e : ScopeEntry) : Json :=
  .obj [("type", e.type.textToWire), ("origin", text e.origin)]

def ofWire (j : Json) : FromWire ScopeEntry := do
  return ⟨← field Ty.ofWire j "type", ← textAt j "origin"⟩

end ScopeEntry

namespace ScopeMap

def toWire (scope : ScopeMap) : Json :=
  .obj (Keyed.mapValues ScopeEntry.toWire scope)

end ScopeMap

def Owner.toWire (o : Owner) : Json := text o.name

def SlotKind.toWire : SlotKind → Json
  | inputParam => text "InputParam"
  | deviceAttribute => text "DeviceAttribute"
  | filterAtom => text "FilterAtom"
  | scalar => text "Scalar"

def Slot.toWire (s : Slot) : Json :=
  .obj [("kind", s.kind.toWire), ("name", orNull text s.name), ("value", s.value.toWire),
    ("undefined", .bool s.isUndefined), ("arg", orNull Argument.toWire s.arg),
    ("owner", orNull Owner.toWire s.owner), ("scope", ScopeMap.toWire s.scope)]

end SkillLang

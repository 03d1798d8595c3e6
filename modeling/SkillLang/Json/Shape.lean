/-!
# Shapes of JSON values

A structure is made from members of known names, and a shape tells them in advance, so
that a reader can pass over all others.
-/

namespace SkillLang.Json

/-- Which parts of a value are read. -/
inductive Shape where
  | whole
  /-- The items of an array have a shape. -/
  | list (item : Shape)
  /-- The members of the given names, which an array may also give in this order. -/
  | record (fields : List (String × Shape))

namespace Shape

/-- The shapes of the first item of an array and of the array of the others. -/
def uncons : Shape → Shape × Shape
  | whole => (whole, whole)
  | list item => (item, list item)
  | record [] => (whole, record [])
  | record ((_, first) :: fields) => (first, record fields)

/-- The shape of a member, unless it is passed over. -/
def member? (key : String) : Shape → Option Shape
  | record fields => fields.lookup key
  | _ => some whole

end Shape

end SkillLang.Json

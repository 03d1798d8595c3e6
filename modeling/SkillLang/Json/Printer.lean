import SkillLang.Json.Basic
import SkillLang.Decimal.Style
import SkillLang.Text.Quoted

/-!
# Writing JSON

The compact form of a value, without any blanks.  Numbers that are not finite have
no form of their own and are written as `null`.
-/

namespace SkillLang.Json

def writeFloat (x : Float) : String :=
  if Decimal.isFinite x then Decimal.json.write x else "null"

mutual
def write : Json → String
  | null => "null"
  | bool b => if b then "true" else "false"
  | int n => toString n
  | float x => writeFloat x
  | str s => Text.quote s
  | arr items => "[" ++ ",".intercalate (writeItems items) ++ "]"
  | obj members => "\x7b" ++ ",".intercalate (writeMembers members) ++ "\x7d"

def writeItems : List Json → List String
  | [] => []
  | item :: items => write item :: writeItems items

def writeMembers : List (String × Json) → List String
  | [] => []
  | (key, value) :: members => (Text.quote key ++ ":" ++ write value) :: writeMembers members
end

end SkillLang.Json

import SkillLang.Keyed

/-!
# JSON values

Numbers are either exact integers or doubles, as their text shows.  An object keeps
its members in a list.
-/

namespace SkillLang

inductive Json where
  | null
  | bool (b : Bool)
  | int (n : Int)
  | float (x : Float)
  | str (s : String)
  | arr (items : List Json)
  | obj (members : List (String × Json))

namespace Json

mutual
/-- Equality of values, with doubles compared as numbers. -/
def beq : Json → Json → Bool
  | null, null => true
  | bool a, bool b => a == b
  | int a, int b => a == b
  | float a, float b => a == b
  | str a, str b => a == b
  | arr a, arr b => beqItems a b
  | obj a, obj b => beqMembers a b
  | _, _ => false
termination_by structural a => a

def beqItems : List Json → List Json → Bool
  | [], [] => true
  | a :: as, b :: bs => beq a b && beqItems as bs
  | _, _ => false
termination_by structural a => a

def beqMembers : List (String × Json) → List (String × Json) → Bool
  | [], [] => true
  | (k, a) :: as, (l, b) :: bs => k == l && beq a b && beqMembers as bs
  | _, _ => false
termination_by structural a => a
end

instance : BEq Json := ⟨beq⟩

instance : Inhabited Json := ⟨null⟩

def member? (key : String) : Json → Option Json
  | obj members => Keyed.find? key members
  | _ => none

end Json

end SkillLang

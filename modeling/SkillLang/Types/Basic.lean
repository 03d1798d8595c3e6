import SkillLang.Keyed

/-!
# Types

The types of arguments and values.  A type variable stands for a type that is found
when a signature is used, and a measure without a unit stands for a measure of any
quantity.  The fields of a compound are in the order of their names.
-/

namespace SkillLang

inductive Ty where
  | any
  | boolean
  | string
  | number
  | currency
  | measure (unit : String)
  /-- One of the entries; without entries, any entry. -/
  | enum (entries : Option (List String))
  | entity (kind : String)
  | date
  | time
  | location
  | recurrentTime
  | argMap
  | array (elem : Ty)
  | compound (fields : List (String × Ty))
  | object
  | var (name : String)
  | unknown (name : String)

namespace Ty

mutual
def beq : Ty → Ty → Bool
  | any, any => true
  | boolean, boolean => true
  | string, string => true
  | number, number => true
  | currency, currency => true
  | measure a, measure b => a == b
  | enum a, enum b => a == b
  | entity a, entity b => a == b
  | date, date => true
  | time, time => true
  | location, location => true
  | recurrentTime, recurrentTime => true
  | argMap, argMap => true
  | array a, array b => beq a b
  | compound a, compound b => beqFields a b
  | object, object => true
  | var a, var b => a == b
  | unknown a, unknown b => a == b
  | _, _ => false
termination_by structural a => a

def beqFields : List (String × Ty) → List (String × Ty) → Bool
  | [], [] => true
  | (n, a) :: as, (m, b) :: bs => n == m && beq a b && beqFields as bs
  | _, _ => false
termination_by structural a => a
end

instance : BEq Ty := ⟨beq⟩

mutual
theorem eq_of_beq : {a b : Ty} → beq a b = true → a = b
  | array a, b, h => by
    cases b <;> simp [beq] at h
    rw [eq_of_beq h]
  | compound a, b, h => by
    cases b <;> simp [beq] at h
    rw [eq_of_beqFields h]
  | any, b, h | boolean, b, h | string, b, h | number, b, h | currency, b, h | measure _, b, h
  | enum _, b, h | entity _, b, h | date, b, h | time, b, h | location, b, h
  | recurrentTime, b, h | argMap, b, h | object, b, h | var _, b, h | unknown _, b, h => by
    cases b <;> simp_all [beq]

theorem eq_of_beqFields : {a b : List (String × Ty)} → beqFields a b = true → a = b
  | [], b, h => by
    cases b <;> simp_all [beqFields]
  | (n, a) :: as, b, h => by
    cases b with
    | nil => simp [beqFields] at h
    | cons field bs =>
      simp only [beqFields, Bool.and_eq_true, beq_iff_eq] at h
      obtain ⟨⟨hname, htype⟩, hrest⟩ := h
      rw [hname, eq_of_beq htype, eq_of_beqFields hrest]
end

mutual
theorem beq_self : (a : Ty) → beq a a = true
  | array a => by simp [beq, beq_self a]
  | compound fields => by simp [beq, beqFields_self fields]
  | any | boolean | string | number | currency | measure _ | enum _ | entity _ | date | time
  | location | recurrentTime | argMap | object | var _ | unknown _ => by simp [beq]

theorem beqFields_self : (a : List (String × Ty)) → beqFields a a = true
  | [] => rfl
  | (_, a) :: as => by simp [beqFields, beq_self a, beqFields_self as]
end

instance : LawfulBEq Ty where
  eq_of_beq := eq_of_beq
  rfl := beq_self _

instance : DecidableEq Ty := fun a b =>
  if h : beq a b = true then isTrue (eq_of_beq h)
  else isFalse fun heq => h (heq ▸ beq_self a)

/-- Numbers, amounts of money and measures. -/
def isNumeric : Ty → Bool
  | number | currency | measure _ => true
  | _ => false

/-- Types whose values have an order. -/
def isComparable : Ty → Bool
  | number | currency | measure _ | date | time | string => true
  | _ => false

def elem? : Ty → Option Ty
  | array elem => some elem
  | _ => none

end Ty

end SkillLang

import Mathlib.Data.List.TakeWhile
import SkillLang.Entities.Finder

/-!
# Placeholders

A numbered placeholder is a type and a number in decimal digits with an underscore between
them.  The digits have no underscore, so the last underscore of the placeholder is the one
in front of them, whatever the type looks like: type and number are read back from it, and
different numbers lead to different placeholders.
-/

namespace SkillLang

namespace Entity

def numbered (type : String) (n : Nat) : String :=
  type ++ "_" ++ toString n

/-- The number that some digits stand for, however large it is. -/
def number? (digits : List Char) : Option Nat :=
  if digits.isEmpty || !digits.all Char.isDigit then none else some (Decimal.valueOf digits)

/-- The number behind the last underscore of a placeholder, which may have a plus sign. -/
def suffix? (placeholder : String) : Option Nat := do
  let (_, digits) ← splitPlaceholder? placeholder
  match digits.toList with
  | '+' :: digits => number? digits
  | digits => number? digits

theorem toList_numbered
    (type : String) (n : Nat) :
    (numbered type n).toList = type.toList ++ '_' :: Nat.toDigits 10 n := by
  simp [numbered]

theorem ne_underscore_of_mem_digits
    {n : Nat} {c : Char} (h : c ∈ (Nat.toDigits 10 n).reverse) :
    (c != '_') = true := by
  rw [bne_iff_ne]
  rintro rfl
  exact Nat.underscore_not_in_toDigits (List.mem_reverse.mp h)

theorem splitPlaceholder?_numbered
    (type : String) (n : Nat) :
    splitPlaceholder? (numbered type n) = some (type, toString n) := by
  have hreversed : (numbered type n).toList.reverse =
      (Nat.toDigits 10 n).reverse ++ '_' :: type.toList.reverse := by
    rw [toList_numbered]
    simp
  have hdrop : ((Nat.toDigits 10 n).reverse ++ '_' :: type.toList.reverse).dropWhile (· != '_') =
      '_' :: type.toList.reverse := by
    rw [List.dropWhile_append_of_pos fun c hc => ne_underscore_of_mem_digits hc]
    rfl
  have htake : ((Nat.toDigits 10 n).reverse ++ '_' :: type.toList.reverse).takeWhile (· != '_') =
      (Nat.toDigits 10 n).reverse := by
    rw [List.takeWhile_append_of_pos fun c hc => ne_underscore_of_mem_digits hc]
    simp
  simp only [splitPlaceholder?]
  rw [hreversed, hdrop, htake]
  simp only [List.reverse_reverse, String.ofList_toList, Nat.toString_eq_ofList_toDigits]

/-- The type of a numbered placeholder comes back, also if it has underscores itself. -/
@[simp] theorem typeOf_numbered
    (type : String) (n : Nat) :
    typeOf (numbered type n) = type := by
  rw [typeOf, splitPlaceholder?_numbered]

theorem valueOf_toDigits
    (n : Nat) :
    Decimal.valueOf (Nat.toDigits 10 n) = n :=
  Nat.ofDigitChars_ten_toDigits

theorem numbered_injective
    (type : String) :
    Function.Injective (numbered type) := by
  intro m n h
  have hlist := congrArg String.toList h
  rw [toList_numbered, toList_numbered] at hlist
  have hdigits : Nat.toDigits 10 m = Nat.toDigits 10 n :=
    (List.cons.inj (List.append_cancel_left hlist)).2
  rw [← valueOf_toDigits m, hdigits, valueOf_toDigits]

theorem isDigit_toDigits
    (n : Nat) :
    (Nat.toDigits 10 n).all Char.isDigit = true := by
  rw [List.all_eq_true]
  intro c hc
  exact Nat.isDigit_of_mem_toDigits (by decide) (by decide) hc

theorem toDigits_ne_plus
    (n : Nat) (rest : List Char) :
    Nat.toDigits 10 n ≠ '+' :: rest := by
  intro h
  have hdigit := isDigit_toDigits n
  rw [h] at hdigit
  cases hdigit

theorem number?_toDigits
    (n : Nat) :
    number? (Nat.toDigits 10 n) = some n := by
  have hempty : (Nat.toDigits 10 n).isEmpty = false := by
    simp
  rw [number?, hempty, isDigit_toDigits, valueOf_toDigits]
  rfl

@[simp] theorem suffix?_numbered
    (type : String) (n : Nat) :
    suffix? (numbered type n) = some n := by
  rw [suffix?, splitPlaceholder?_numbered]
  simp only [Option.bind_eq_bind, Option.bind_some]
  rw [Nat.toString_eq_ofList_toDigits, String.toList_ofList]
  split
  next rest h => exact absurd h (toDigits_ne_plus n rest)
  next => exact number?_toDigits n

theorem natOf?_of_number?
    {digits : List Char} {n bound : Nat} (h : number? digits = some n) (hn : n < bound) :
    Decimal.natOf? bound digits = some n := by
  rw [number?] at h
  rw [Decimal.natOf?]
  split at h
  next => cases h
  next hdigits =>
      cases h
      rw [if_neg hdigits, if_pos hn]

end Entity

namespace Allocator

/-- A word of 64 bits holds the number of a placeholder if it is not too large. -/
theorem numberOf?_of_suffix?
    {placeholder : String} {n : Nat} (h : Entity.suffix? placeholder = some n)
    (hn : n < Nat.pow 2 64) :
    numberOf? placeholder = some n := by
  rw [Entity.suffix?] at h
  rw [numberOf?]
  cases hsplit : Entity.splitPlaceholder? placeholder with
  | none =>
      rw [hsplit] at h
      cases h
  | some parts =>
      rw [hsplit] at h
      simp only [Option.bind_eq_bind, Option.bind_some] at h ⊢
      cases hdigits : parts.2.toList with
      | nil =>
          rw [hdigits] at h
          exact Entity.natOf?_of_number? h hn
      | cons c digits =>
          rw [hdigits] at h
          by_cases hplus : c = '+'
          · subst hplus
            exact Entity.natOf?_of_number? h hn
          · simp only [List.cons.injEq, hplus, false_and, imp_false, not_false_eq_true,
              implies_true] at h ⊢
            exact Entity.natOf?_of_number? h hn

theorem numberAfter_of_suffix?
    {placeholder : String} {n : Nat} (h : Entity.suffix? placeholder = some n)
    (hn : n + 1 < Nat.pow 2 64) :
    numberAfter placeholder = n + 1 := by
  rw [numberAfter, numberOf?_of_suffix? h (Nat.lt_of_succ_lt hn)]
  exact Nat.mod_eq_of_lt hn

end Allocator

end SkillLang

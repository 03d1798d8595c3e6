import SkillLang.Decimal.Style
import SkillLang.Proofs.Text.Words

/-!
# Numbers as words

The decimal of a number is a word in every style: it has digits, signs, points and letters, and
no blanks.
-/

namespace SkillLang.Decimal

open Text (isBlank AreSolid IsRun IsWord areSolid_append areSolid_cons)

theorem not_blank_of_isDigit
    {c : Char} (h : c.isDigit = true) :
    isBlank c = false := by
  have hrange : 48 ≤ c.toNat ∧ c.toNat ≤ 57 := by
    simpa [Char.isDigit, UInt32.le_iff_toNat_le] using h
  simp only [isBlank, Bool.or_eq_false_iff, Bool.and_eq_false_iff, decide_eq_false_iff_not,
    beq_eq_false_iff_ne]
  omega

theorem areSolid_toDigits
    (n : Nat) :
    AreSolid (Nat.toDigits 10 n) :=
  fun _ hc => not_blank_of_isDigit (Nat.isDigit_of_mem_toDigits (by decide) (by decide) hc)

theorem areSolid_zeros
    (n : Nat) :
    AreSolid (zeros n) := by
  intro c hc
  rw [List.eq_of_mem_replicate hc]
  rfl

section Layout

variable {ds : List Char} (hds : AreSolid ds)
include hds

theorem areSolid_positional
    (keepsPoint : Bool) (exponent : Int) :
    AreSolid (positional keepsPoint ds exponent) := by
  unfold positional
  split
  next =>
      rw [areSolid_append, areSolid_append]
      refine ⟨⟨hds, areSolid_zeros _⟩, ?_⟩
      cases keepsPoint <;> decide
  next =>
      dsimp only
      split
      next =>
          rw [areSolid_append, areSolid_cons]
          exact ⟨hds.take _, rfl, hds.drop _⟩
      next =>
          rw [List.cons_append, List.cons_append, areSolid_cons, areSolid_cons, areSolid_append]
          exact ⟨rfl, rfl, areSolid_zeros _, hds⟩

theorem areSolid_scientific
    (signsExponent : Bool) (exponent : Int) :
    AreSolid (scientific signsExponent ds exponent) := by
  unfold scientific
  dsimp only
  rw [areSolid_append, areSolid_cons, areSolid_append]
  refine ⟨?head, rfl, ?sign, areSolid_toDigits _⟩
  case head =>
    split
    next => exact hds
    next =>
        rw [areSolid_append, areSolid_cons]
        exact ⟨hds.take _, rfl, hds.drop _⟩
  case sign =>
    split
    next => decide
    next => cases signsExponent <;> decide

end Layout

theorem positional_ne_nil
    {ds : List Char} (hne : ds ≠ []) (keepsPoint : Bool) (exponent : Int) :
    positional keepsPoint ds exponent ≠ [] := by
  unfold positional
  dsimp only
  split_ifs <;> simp [hne]

theorem scientific_ne_nil
    (signsExponent : Bool) (ds : List Char) (exponent : Int) :
    scientific signsExponent ds exponent ≠ [] := by
  simp [scientific]

variable (f : Style)

theorem Style.isRun_layout
    (d : Digits) :
    IsRun (f.layout d) := by
  unfold layout
  dsimp only
  split
  next => exact ⟨positional_ne_nil (by simp) _ _, areSolid_positional (areSolid_toDigits _) _ _⟩
  next => exact ⟨scientific_ne_nil _ _ _, areSolid_scientific (areSolid_toDigits _) _ _⟩

theorem Style.isRun_magnitude
    (x : Float) :
    IsRun (f.magnitude x) := by
  unfold magnitude
  dsimp only
  split
  next => exact ⟨positional_ne_nil (by decide) _ _, areSolid_positional (by decide) _ _⟩
  next => exact f.isRun_layout _

theorem Style.isWord_write
    (x : Float) :
    IsWord (f.write x) := by
  have hsize : IsRun (if isFinite x then f.magnitude x else ['i', 'n', 'f']) := by
    split
    next => exact f.isRun_magnitude x
    next => exact ⟨by decide, by decide⟩
  unfold write
  split
  next => decide
  next =>
      dsimp only
      split
      next => exact IsRun.isWord ⟨by simp, areSolid_cons.mpr ⟨rfl, hsize.areSolid⟩⟩
      next => exact hsize.isWord

theorem isWord_toString
    (n : Nat) :
    IsWord (toString n) := by
  rw [Nat.toString_eq_ofList_toDigits]
  exact IsRun.isWord ⟨by simp, areSolid_toDigits n⟩

theorem isWord_number
    (x : Float) :
    IsWord (number x) := by
  have hplain := plain.isWord_write x
  unfold number
  split
  next n _ =>
      split
      next =>
          cases n with
          | ofNat n => exact isWord_toString n
          | negSucc n =>
              have hminus : IsWord "-" := by decide
              exact hminus.append (isWord_toString (n + 1)).hasNoBlank
      next => exact hplain
  next => exact hplain

end SkillLang.Decimal

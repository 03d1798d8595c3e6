import Mathlib.Data.List.Basic
import Mathlib.Data.List.TakeDrop
import Mathlib.Tactic.Common
import Mathlib.Tactic.SplitIfs
import SkillLang.Json.Lexeme
import SkillLang.Json.Printer

/-!
# Strings and numerals in JSON texts

Every text is read again from between its quotes: an escape is read as the character that it
stands for, and what is not escaped as itself.  What is written for an integer or for a finite
double is a numeral: a whole part without needless zeros, and perhaps a fraction and an exponent.
The reader finds the parts of a numeral again, if what follows it cannot be taken for one of them.
-/

namespace SkillLang

namespace Decimal

/-! ## The digits of a number -/

theorem Binary.digits_ne_zero_of_readsBack
    {b : Binary} {d : Digits} (hb : b.mantissa ≠ 0) (h : b.readsBack d = true) :
    d.digits ≠ 0 := by
  intro hzero
  have hbelow {low : Nat} (hlow : 0 < low) (j : Int) :
      compareScaled d.digits d.exponent low j = .lt := by
    rw [compareScaled, hzero, Nat.zero_mul, Nat.zero_mul, Nat.compare_eq_lt]
    exact Nat.mul_pos (Nat.mul_pos hlow (Nat.pow_pos (by decide))) (Nat.pow_pos (by decide))
  have hlow : 0 < if b.narrowBelow = true then 4 * b.mantissa - 1 else 4 * b.mantissa - 2 := by
    split <;> omega
  rw [readsBack, hbelow hlow] at h
  simp at h

theorem Binary.readsBack_of_onGrid
    {b : Binary} {tie : Tie} {exponent : Int} {d : Digits}
    (h : b.onGrid tie exponent = some d) :
    b.readsBack d = true := by
  unfold onGrid at h
  dsimp only at h
  split at h
  next hbelow habove =>
      rw [← Option.some.inj h, nearer.eq_def]
      split
      next => exact habove
      next => exact hbelow
      next =>
          split
          next => exact habove
          next =>
              split
              next => exact hbelow
              next => exact habove
  next hbelow _ => rwa [← Option.some.inj h]
  next _ habove => rwa [← Option.some.inj h]
  next => cases h

theorem digits_stripZeros_ne_zero
    (fuel : Nat) {d : Digits} (h : d.digits ≠ 0) :
    (stripZeros fuel d).digits ≠ 0 := by
  induction fuel generalizing d with
  | zero => exact h
  | succ fuel ih =>
      unfold stripZeros
      split
      next hstrip => exact ih (show d.digits / 10 ≠ 0 by omega)
      next => exact h

theorem Binary.digits_exact_ne_zero
    {b : Binary} (hb : b.mantissa ≠ 0) :
    b.exact.digits ≠ 0 := by
  unfold exact
  split
  · exact Nat.mul_ne_zero hb (Nat.ne_of_gt (Nat.pow_pos (by decide)))
  · exact Nat.mul_ne_zero hb (Nat.ne_of_gt (Nat.pow_pos (by decide)))

/-- A number that is not zero has digits other than zero. -/
theorem Binary.digits_shortest_ne_zero
    {b : Binary} (hb : b.mantissa ≠ 0) (tie : Tie) :
    (b.shortest tie).digits ≠ 0 := by
  apply digits_stripZeros_ne_zero
  cases hfound : (List.range 17).findSome? fun n => b.onGrid tie (b.scale - (n + 1 : Nat)) with
  | none => exact b.digits_exact_ne_zero hb
  | some d =>
      obtain ⟨n, -, hgrid⟩ := List.exists_of_findSome?_eq_some hfound
      exact b.digits_ne_zero_of_readsBack hb (readsBack_of_onGrid hgrid)

end Decimal

namespace Json

/-! ## Quoted text -/

theorem fourHex_hexDigit :
    ∀ n : Fin 32, fourHex '0' '0' (Text.hexDigit (n.val / 16)) (Text.hexDigit n.val) =
      some n.val := by
  decide

theorem readString_fourHex
    {a b c d : Char} {n : Nat} (h : fourHex a b c d = some n) (hn : n < 32)
    (read rest : List Char) :
    readString read ('\\' :: 'u' :: a :: b :: c :: d :: rest) =
      readString (Char.ofNat n :: read) rest := by
  have hlow : isLowSurrogate n = false := by
    rw [isLowSurrogate, decide_eq_false (by omega), Bool.false_and]
  have hhigh : isHighSurrogate n = false := by
    rw [isHighSurrogate, decide_eq_false (by omega), Bool.false_and]
  rw [readString, h]
  dsimp only
  rw [hlow, hhigh, if_neg Bool.false_ne_true, if_neg Bool.false_ne_true]

theorem readString_unescaped
    {c : Char} (hquote : c ≠ '"') (hbackslash : c ≠ '\\') (hcontrol : ¬ c.toNat < 32)
    (read rest : List Char) :
    readString read (c :: rest) = readString (c :: read) rest := by
  rw [readString.eq_def]
  split
  next heq => cases heq
  next heq => cases heq; exact absurd rfl hquote
  next heq => cases heq; exact absurd rfl hbackslash
  next heq => cases heq; exact absurd rfl hbackslash
  next heq => cases heq; exact if_neg hcontrol

theorem readString_escapeChar
    (c : Char) (read rest : List Char) :
    readString read (Text.escapeChar c ++ rest) = readString (c :: read) rest := by
  have hchar {n : Nat} (h : c.toNat = n) : c = Char.ofNat n := h ▸ (Char.ofNat_toNat c).symm
  unfold Text.escapeChar
  split
  · rfl
  · rfl
  · rfl
  · rfl
  · rfl
  next hquote hbackslash _ _ _ =>
      split_ifs with hback hfeed hcontrol
      · rw [hchar hback]
        rfl
      · rw [hchar hfeed]
        rfl
      · have hhex := readString_fourHex (fourHex_hexDigit ⟨c.toNat, hcontrol⟩) hcontrol read rest
        rw [Char.ofNat_toNat] at hhex
        exact hhex
      · exact readString_unescaped hquote hbackslash hcontrol read rest

/-- The quoted text ends at the quote after it. -/
theorem readString_escaped
    (cs read rest : List Char) :
    readString read (cs.flatMap Text.escapeChar ++ '"' :: rest) =
      some (String.ofList (read.reverse ++ cs), rest) := by
  induction cs generalizing read with
  | nil =>
      rw [List.append_nil]
      rfl
  | cons c cs ih =>
      rw [List.flatMap_cons, List.append_assoc, readString_escapeChar, ih, List.reverse_cons,
        List.append_assoc, List.singleton_append]

/-! ## Numerals -/

/-- One digit or more. -/
structure AreDigits (cs : List Char) : Prop where
  ne_nil : cs ≠ []
  isDigit : ∀ c ∈ cs, c.isDigit = true

/-- One digit or more, the first of several not being zero. -/
structure AreWholeDigits (cs : List Char) : Prop extends AreDigits cs where
  first : cs.head? = some '0' → cs = ['0']

structure Numeral.IsProper (n : Numeral) : Prop where
  whole : AreWholeDigits n.whole
  fraction : ∀ ds ∈ n.fraction, AreDigits ds
  exponent : ∀ e ∈ n.exponent, AreDigits e.2

def fractionChars : Option (List Char) → List Char
  | none => []
  | some ds => '.' :: ds

def exponentChars : Option (Bool × List Char) → List Char
  | none => []
  | some (negative, ds) => 'e' :: (if negative then '-' else '+') :: ds

def Numeral.unsignedChars (n : Numeral) : List Char :=
  n.whole ++ (fractionChars n.fraction ++ exponentChars n.exponent)

def Numeral.chars (n : Numeral) : List Char :=
  if n.negative then '-' :: n.unsignedChars else n.unsignedChars

/-- What follows a numeral without being taken for a part of it. -/
structure EndsNumeral (rest : List Char) : Prop where
  digit : ∀ c ∈ rest.head?, c.isDigit = false
  point : rest.head? ≠ some '.'
  mark : ∀ c ∈ rest.head?, (c == 'e' || c == 'E') = false

theorem AreDigits.append
    {cs ds : List Char} (hcs : AreDigits cs) (hds : ∀ c ∈ ds, c.isDigit = true) :
    AreDigits (cs ++ ds) :=
  ⟨List.append_ne_nil_of_left_ne_nil hcs.ne_nil ds,
    fun c hc => (List.mem_append.mp hc).elim (hcs.isDigit c) (hds c)⟩

theorem AreDigits.take
    {cs : List Char} (h : AreDigits cs) {n : Nat} (hn : n ≠ 0) :
    AreDigits (cs.take n) :=
  ⟨by simp [hn, h.ne_nil], fun c hc => h.isDigit c (List.mem_of_mem_take hc)⟩

theorem AreDigits.drop
    {cs : List Char} (h : AreDigits cs) {n : Nat} (hn : n < cs.length) :
    AreDigits (cs.drop n) :=
  ⟨by simpa using hn, fun c hc => h.isDigit c (List.mem_of_mem_drop hc)⟩

theorem AreDigits.whole
    {cs : List Char} (h : AreDigits cs) (hfirst : cs.head? ≠ some '0') :
    AreWholeDigits cs :=
  ⟨h, fun hzero => absurd hzero hfirst⟩

theorem areWholeDigits_zero :
    AreWholeDigits ['0'] :=
  ⟨⟨by decide, List.forall_mem_singleton.mpr rfl⟩, fun _ => rfl⟩

theorem areDigits_toDigits
    (n : Nat) :
    AreDigits (Nat.toDigits 10 n) :=
  ⟨Nat.toDigits_ne_nil, fun _ hc => Nat.isDigit_of_mem_toDigits (by decide) (by decide) hc⟩

/-- The digits of a number other than zero do not begin with a zero. -/
theorem head?_toDigits_ne_zero
    {n : Nat} (h : n ≠ 0) :
    (Nat.toDigits 10 n).head? ≠ some '0' := by
  induction n using Nat.strongRecOn with
  | _ n ih =>
      by_cases hsmall : n < 10
      · have hdigit : ∀ n : Fin 10, n.val ≠ 0 → [n.val.digitChar].head? ≠ some '0' := by decide
        rw [Nat.toDigits_of_lt_base hsmall]
        exact hdigit ⟨n, hsmall⟩ h
      · rw [Nat.toDigits_of_base_le (by decide) (by omega),
          List.head?_append_of_ne_nil _ Nat.toDigits_ne_nil]
        exact ih (n / 10) (by omega) (by omega)

theorem areWholeDigits_toDigits
    (n : Nat) :
    AreWholeDigits (Nat.toDigits 10 n) := by
  by_cases h : n = 0
  · rw [h, Nat.toDigits_zero]
    exact areWholeDigits_zero
  · exact (areDigits_toDigits n).whole (head?_toDigits_ne_zero h)

/-! ## Reading numerals -/

theorem readDigits_append
    {ds rest : List Char} (hds : AreDigits ds) (hrest : ∀ c ∈ rest.head?, c.isDigit = false) :
    readDigits (ds ++ rest) = some (ds, rest) := by
  have htake : rest.takeWhile Char.isDigit = [] := by
    cases rest with
    | nil => rfl
    | cons c rest => exact List.takeWhile_cons_of_neg (by simp [hrest c rfl])
  have hdrop : rest.dropWhile Char.isDigit = rest := by
    cases rest with
    | nil => rfl
    | cons c rest => exact List.dropWhile_cons_of_neg (by simp [hrest c rfl])
  rw [readDigits, List.span_eq_takeWhile_dropWhile, List.takeWhile_append_of_pos hds.isDigit,
    List.dropWhile_append_of_pos hds.isDigit, htake, hdrop, List.append_nil]
  split
  next heq => exact absurd (congrArg Prod.fst heq) hds.ne_nil
  next heq => rw [heq]

theorem readWhole_append
    {ds rest : List Char} (hds : AreWholeDigits ds)
    (hrest : ∀ c ∈ rest.head?, c.isDigit = false) :
    readWhole (ds ++ rest) = some (ds, rest) := by
  rw [readWhole, readDigits_append hds.toAreDigits hrest, Option.bind_eq_bind, Option.bind_some]
  dsimp only
  split
  next c cs => cases hds.first rfl
  next => rfl

theorem readFraction_append
    {fraction : Option (List Char)} {rest : List Char} (hfraction : ∀ ds ∈ fraction, AreDigits ds)
    (hrest : ∀ c ∈ rest.head?, c.isDigit = false) (hpoint : rest.head? ≠ some '.') :
    readFraction (fractionChars fraction ++ rest) = some (fraction, rest) := by
  cases fraction with
  | none =>
      rw [fractionChars, List.nil_append]
      unfold readFraction
      split
      next => exact absurd rfl hpoint
      next => rfl
  | some ds =>
      rw [fractionChars, List.cons_append, readFraction, readDigits_append (hfraction ds rfl) hrest]
      rfl

theorem readExponent_append
    {exponent : Option (Bool × List Char)} {rest : List Char}
    (hexponent : ∀ e ∈ exponent, AreDigits e.2) (hrest : EndsNumeral rest) :
    readExponent (exponentChars exponent ++ rest) = some (exponent, rest) := by
  cases exponent with
  | none =>
      rw [exponentChars, List.nil_append]
      unfold readExponent
      split
      next c rest => exact if_neg (by simp [hrest.mark c rfl])
      next => rfl
  | some exponent =>
      obtain ⟨negative, ds⟩ := exponent
      have hdigits : readDigits (ds ++ rest) = some (ds, rest) :=
        readDigits_append (hexponent _ rfl) hrest.digit
      cases negative
      all_goals
        change (readDigits (ds ++ rest)).map _ = _
        rw [hdigits]
        rfl

theorem head?_exponentChars_append
    {exponent : Option (Bool × List Char)} {rest : List Char} :
    ∀ c ∈ (exponentChars exponent ++ rest).head?, c = 'e' ∨ c ∈ rest.head? := by
  cases exponent with
  | none => exact fun c hc => .inr hc
  | some e => exact fun c hc => .inl (Option.some.inj hc).symm

theorem head?_fractionChars_append
    {fraction : Option (List Char)} {rest : List Char} :
    ∀ c ∈ (fractionChars fraction ++ rest).head?, c = '.' ∨ c ∈ rest.head? := by
  cases fraction with
  | none => exact fun c hc => .inr hc
  | some ds => exact fun c hc => .inl (Option.some.inj hc).symm

/-- The parts of a numeral are found again. -/
theorem readNumeral_chars
    {n : Numeral} {rest : List Char} (hn : n.IsProper) (hrest : EndsNumeral rest) :
    readNumeral (n.chars ++ rest) = some (n, rest) := by
  obtain ⟨negative, whole, fraction, exponent⟩ := n
  have hexponentDigit : ∀ c ∈ (exponentChars exponent ++ rest).head?, c.isDigit = false := by
    intro c hc
    obtain rfl | hc := head?_exponentChars_append c hc
    · rfl
    · exact hrest.digit c hc
  have hpoint : (exponentChars exponent ++ rest).head? ≠ some '.' := by
    intro hc
    obtain heq | hc := head?_exponentChars_append '.' hc
    · cases heq
    · exact hrest.point hc
  have hfractionDigit :
      ∀ c ∈ (fractionChars fraction ++ (exponentChars exponent ++ rest)).head?,
        c.isDigit = false := by
    intro c hc
    obtain rfl | hc := head?_fractionChars_append c hc
    · rfl
    · exact hexponentDigit c hc
  have hwhole := readWhole_append hn.whole hfractionDigit
  have hfraction := readFraction_append hn.fraction hexponentDigit hpoint
  have hexponent := readExponent_append hn.exponent hrest
  have hunsigned :
      Numeral.unsignedChars ⟨negative, whole, fraction, exponent⟩ ++ rest =
        whole ++ (fractionChars fraction ++ (exponentChars exponent ++ rest)) := by
    rw [Numeral.unsignedChars, List.append_assoc, List.append_assoc]
  dsimp only at hwhole hfraction hexponent
  cases negative with
  | true =>
      rw [Numeral.chars, if_pos rfl, List.cons_append, hunsigned]
      simp only [readNumeral, hwhole, hfraction, hexponent, Option.bind_eq_bind, Option.bind_some]
      rfl
  | false =>
      rw [Numeral.chars, if_neg Bool.false_ne_true, hunsigned]
      -- The first digit is not taken for a sign.
      obtain ⟨c, cs, hcs⟩ := List.exists_cons_of_ne_nil hn.whole.ne_nil
      dsimp only at hcs
      have hminus : c ≠ '-' := by
        rintro rfl
        exact absurd (hn.whole.isDigit '-' (by simp [hcs])) (by decide)
      unfold readNumeral
      split
      next sign body hsign =>
          have hbody : (sign, body) =
              (false, whole ++ (fractionChars fraction ++ (exponentChars exponent ++ rest))) := by
            rw [← hsign]
            split
            next heq =>
                rw [hcs] at heq
                exact absurd (List.cons.inj heq).1 hminus
            next => rfl
          obtain ⟨rfl, rfl⟩ := Prod.mk.inj hbody
          simp only [hwhole, hfraction, hexponent, Option.bind_eq_bind, Option.bind_some]
          rfl

/-! ## Numbers as numerals -/

open Decimal (positional scientific zeros)

/-- The text is a numeral, which stands for the value. -/
def IsNumeralOf (cs : List Char) (value : Json) : Prop :=
  ∃ n : Numeral, n.IsProper ∧ n.chars = cs ∧ n.value = some value

theorem foldl_digitValue
    (cs : List Char) (n : Nat) :
    cs.foldl (fun value c => value * 10 + digitValue c) n = Nat.ofDigitChars 10 cs n := by
  have hstep : (fun value c => value * 10 + digitValue c) =
      fun (value : Nat) (c : Char) => 10 * value + (c.toNat - '0'.toNat) := by
    funext value c
    rw [Nat.mul_comm, digitValue]
  rw [hstep]
  rfl

theorem isNumeralOf_int
    {n : Int} (hlow : -(Nat.pow 2 63 : Nat) ≤ n) (hhigh : n < Nat.pow 2 64) :
    IsNumeralOf (write (.int n)).toList (.int n) := by
  rw [write]
  refine ⟨⟨decide (n < 0), Nat.toDigits 10 n.natAbs, none, none⟩,
    ⟨areWholeDigits_toDigits _, by simp, by simp⟩, ?_, ?_⟩
  · cases n with
    | ofNat n =>
        change Nat.toDigits 10 n ++ ([] ++ []) = (toString n).toList
        rw [Nat.toString_eq_ofList_toDigits, String.toList_ofList, List.append_nil, List.append_nil]
    | negSucc n =>
        rw [Numeral.chars, if_pos (decide_eq_true (Int.negSucc_lt_zero n))]
        change '-' :: (Nat.toDigits 10 (n + 1) ++ ([] ++ [])) = ("-" ++ toString (n + 1)).toList
        have hminus : ("-" : String).toList = ['-'] := rfl
        rw [Nat.toString_eq_ofList_toDigits, String.toList_append, hminus, String.toList_ofList,
          List.append_nil, List.append_nil, List.singleton_append]
  · have hsize : (Nat.toDigits 10 n.natAbs).foldl (fun value c => value * 10 + digitValue c) 0 =
        n.natAbs := by
      rw [foldl_digitValue, Nat.ofDigitChars_ten_toDigits]
    unfold Numeral.value
    dsimp only
    rw [hsize]
    by_cases hneg : n < 0
    · have hfits : 0 < n.natAbs ∧ n.natAbs ≤ Nat.pow 2 63 := by omega
      have habs : -(n.natAbs : Int) = n := by omega
      simpa [hneg, hfits] using habs
    · have hfits : n.natAbs < Nat.pow 2 64 := by omega
      have habs : (n.natAbs : Int) = n := by omega
      simpa [hneg, hfits] using habs

theorem isDigit_zeros
    {n : Nat} {c : Char} (hc : c ∈ zeros n) :
    c.isDigit = true := by
  rw [List.eq_of_mem_replicate hc]
  rfl

/-- Digits with the decimal point in its place are a numeral. -/
theorem exists_positional
    {ds : List Char} (hds : AreDigits ds) (hfirst : ds.head? ≠ some '0') (exponent : Int) :
    ∃ n : Numeral, n.IsProper ∧ n.unsignedChars = positional true ds exponent := by
  unfold positional
  split
  next =>
      have hwhole : AreDigits (ds ++ zeros exponent.toNat) := hds.append fun _ => isDigit_zeros
      refine ⟨⟨false, ds ++ zeros exponent.toNat, some ['0'], none⟩,
        ⟨hwhole.whole ?_, ?_, by simp⟩, rfl⟩
      · rwa [List.head?_append_of_ne_nil _ hds.ne_nil]
      · simpa using areWholeDigits_zero.toAreDigits
  next =>
      dsimp only
      split
      next hlt =>
          have hwhole := hds.take (show ds.length - (-exponent).toNat ≠ 0 by omega)
          have hfraction := hds.drop (show ds.length - (-exponent).toNat < ds.length by omega)
          refine ⟨⟨false, _, some _, none⟩,
            ⟨hwhole.whole ?_, by simpa using hfraction, by simp⟩, ?_⟩
          · rwa [List.head?_take, if_neg (by omega)]
          · rw [Numeral.unsignedChars, fractionChars, exponentChars, List.append_nil]
      next =>
          have hfraction : AreDigits (zeros ((-exponent).toNat - ds.length) ++ ds) :=
            ⟨List.append_ne_nil_of_right_ne_nil _ hds.ne_nil,
              fun c hc => (List.mem_append.mp hc).elim isDigit_zeros (hds.isDigit c)⟩
          refine ⟨⟨false, ['0'], some _, none⟩,
            ⟨areWholeDigits_zero, by simpa using hfraction, by simp⟩, ?_⟩
          rw [Numeral.unsignedChars, fractionChars, exponentChars, List.append_nil]
          rfl

/-- One digit, the others behind the point, and a power of ten are a numeral. -/
theorem exists_scientific
    {ds : List Char} (hds : AreDigits ds) (hfirst : ds.head? ≠ some '0') (exponent : Int) :
    ∃ n : Numeral, n.IsProper ∧ n.unsignedChars = scientific true ds exponent := by
  let mark := (decide (exponent + ds.length - 1 < 0),
    Nat.toDigits 10 (exponent + ds.length - 1).natAbs)
  have hmark : ∀ e ∈ some mark, AreDigits e.2 := by
    simpa [mark] using areDigits_toDigits (exponent + ds.length - 1).natAbs
  have hlayout : scientific true ds exponent =
      (if ds.length ≤ 1 then ds else ds.take 1 ++ '.' :: ds.drop 1) ++
        exponentChars (some mark) := by
    by_cases hneg : exponent + ds.length - 1 < 0
    · simp [scientific, exponentChars, mark, hneg]
    · simp [scientific, exponentChars, mark, hneg]
  rw [hlayout]
  split
  next => exact ⟨⟨false, ds, none, some mark⟩, ⟨hds.whole hfirst, by simp, hmark⟩, rfl⟩
  next hlong =>
      have hwhole := hds.take (show 1 ≠ 0 by decide)
      have hfraction := hds.drop (show 1 < ds.length by omega)
      refine ⟨⟨false, ds.take 1, some (ds.drop 1), some mark⟩,
        ⟨hwhole.whole ?_, by simpa using hfraction, hmark⟩, ?_⟩
      · rwa [List.head?_take, if_neg (by decide)]
      · rw [Numeral.unsignedChars, List.append_assoc]
        rfl

/-- Reading the number that stands in the text of a double gives the double. -/
def ReadsBack (x : Float) : Prop :=
  ∀ n rest, readNumeral (Decimal.json.write x).toList = some (n, rest) → n.value = some (.float x)

theorem exists_magnitude
    (x : Float) :
    ∃ n : Numeral, n.IsProper ∧ n.unsignedChars = Decimal.json.magnitude x := by
  unfold Decimal.Style.magnitude
  dsimp only
  split
  next =>
      exact ⟨⟨false, ['0'], some ['0'], none⟩,
        ⟨areWholeDigits_zero, by simpa using areWholeDigits_zero.toAreDigits, by simp⟩, rfl⟩
  next hmantissa =>
      have hdigits := Decimal.Binary.digits_shortest_ne_zero hmantissa Decimal.json.tie
      unfold Decimal.Style.layout
      dsimp only
      split
      next => exact exists_positional (areDigits_toDigits _) (head?_toDigits_ne_zero hdigits) _
      next => exact exists_scientific (areDigits_toDigits _) (head?_toDigits_ne_zero hdigits) _

/-- What is written for a finite double is a numeral. -/
theorem exists_write
    {x : Float} (hfinite : Decimal.isFinite x = true) :
    ∃ n : Numeral, n.IsProper ∧ n.chars = (Decimal.json.write x).toList := by
  obtain ⟨n, hn, hsize⟩ := exists_magnitude x
  refine ⟨{ n with negative := Decimal.isNegative x }, ⟨hn.whole, hn.fraction, hn.exponent⟩, ?_⟩
  have hnumber : Decimal.isNotNumber x = false := by
    rw [Decimal.isNotNumber, hfinite]
    rfl
  rw [Decimal.Style.write, hnumber, if_neg Bool.false_ne_true, if_pos hfinite, String.toList_ofList,
    ← hsize]
  rfl

theorem isNumeralOf_float
    {x : Float} (hfinite : Decimal.isFinite x = true) (hback : ReadsBack x) :
    IsNumeralOf (write (.float x)).toList (.float x) := by
  rw [write]
  obtain ⟨n, hn, hchars⟩ := exists_write hfinite
  refine ⟨n, hn, ?_, ?_⟩
  · rw [writeFloat, if_pos hfinite, hchars]
  · apply hback n []
    rw [← hchars, ← List.append_nil n.chars]
    exact readNumeral_chars hn ⟨by simp, by simp, by simp⟩

end Json

end SkillLang

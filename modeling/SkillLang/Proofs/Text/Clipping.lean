import Mathlib.Data.List.Basic
import SkillLang.Log.Event

/-!
# Clipped texts

A text that is too long is cut between two characters.  What is kept of it is its longest
beginning that leaves room for the dots.  The cut is where a search for a boundary between
characters ends that steps back byte by byte, which takes at most three steps.
-/

namespace SkillLang

namespace Text

/-! ## The longest beginning that fits -/

theorem utf8ByteSize_ofList_cons
    (c : Char) (cs : List Char) :
    (String.ofList (c :: cs)).utf8ByteSize =
      c.utf8Size + (String.ofList cs).utf8ByteSize := by
  rw [String.ofList_cons, String.utf8ByteSize_append, String.utf8ByteSize_singleton]

/-- The beginnings of the characters that are taken are all beginnings that fit. -/
theorem isPrefix_takeBytes_iff
    {limit : Nat} {cs other : List Char} :
    other <+: takeBytes limit cs ↔
      other <+: cs ∧ (String.ofList other).utf8ByteSize ≤ limit := by
  induction cs generalizing limit other with
  | nil =>
      rw [takeBytes, List.prefix_nil]
      constructor
      · rintro rfl
        exact ⟨rfl, Nat.zero_le limit⟩
      · exact And.left
  | cons c cs ih =>
      cases other with
      | nil => simp
      | cons d other =>
          rw [takeBytes, utf8ByteSize_ofList_cons, List.cons_prefix_cons]
          -- A character that fits is taken from the room, and one that does not ends it all.
          by_cases hfits : c.utf8Size ≤ limit
          · rw [if_pos hfits, List.cons_prefix_cons, ih, and_assoc]
            constructor
            · rintro ⟨rfl, hbegins, hsize⟩
              exact ⟨rfl, hbegins, by omega⟩
            · rintro ⟨rfl, hbegins, hsize⟩
              exact ⟨rfl, hbegins, by omega⟩
          · rw [if_neg hfits, List.prefix_nil]
            constructor
            · intro hnil
              cases hnil
            · rintro ⟨⟨rfl, _⟩, hsize⟩
              omega

/-- A beginning of a text that takes at most `limit` bytes, and that all others that do are
beginnings of. -/
structure IsLongestWithin (limit : Nat) (s kept : String) : Prop where
  isPrefix : kept.toList <+: s.toList
  fits : kept.utf8ByteSize ≤ limit
  longest : ∀ other : String, other.toList <+: s.toList → other.utf8ByteSize ≤ limit →
    other.toList <+: kept.toList

theorem IsLongestWithin.eq
    {limit : Nat} {s kept kept' : String} (h : IsLongestWithin limit s kept)
    (h' : IsLongestWithin limit s kept') :
    kept = kept' := by
  have hbegins := h'.longest kept h.isPrefix h.fits
  have hbegins' := h.longest kept' h'.isPrefix h'.fits
  exact String.toList_inj.mp
    (hbegins.eq_of_length (Nat.le_antisymm hbegins.length_le hbegins'.length_le))

theorem isLongestWithin_takeBytes
    (limit : Nat) (s : String) :
    IsLongestWithin limit s (String.ofList (takeBytes limit s.toList)) := by
  have htaken := isPrefix_takeBytes_iff.mp (List.prefix_refl (takeBytes limit s.toList))
  refine ⟨?_, htaken.2, ?_⟩
  · rw [String.toList_ofList]
    exact htaken.1
  · intro other hbegins hfits
    rw [String.toList_ofList, isPrefix_takeBytes_iff, String.ofList_toList]
    exact ⟨hbegins, hfits⟩

theorem utf8ByteSize_ofList_replicate
    (n : Nat) (c : Char) :
    (String.ofList (List.replicate n c)).utf8ByteSize = n * c.utf8Size := by
  induction n with
  | zero => rw [Nat.zero_mul, List.replicate_zero, String.ofList_nil, String.utf8ByteSize_empty]
  | succ n ih => rw [List.replicate_succ, utf8ByteSize_ofList_cons, ih, Nat.succ_mul, Nat.add_comm]

theorem takeBytes_replicate
    (limit n : Nat) (c : Char) :
    takeBytes limit (List.replicate n c) = List.replicate (min n (limit / c.utf8Size)) c := by
  induction n generalizing limit with
  | zero => rw [Nat.zero_min, List.replicate_zero, takeBytes]
  | succ n ih =>
      rw [List.replicate_succ, takeBytes]
      by_cases hfits : c.utf8Size ≤ limit
      · rw [if_pos hfits, ih, Nat.div_eq_sub_div c.utf8Size_pos hfits, Nat.add_min_add_right,
          List.replicate_succ]
      · rw [if_neg hfits, Nat.div_eq_of_lt (Nat.not_le.mp hfits), Nat.min_zero,
          List.replicate_zero]

/-! ## The search for the cut -/

/-- A search for a boundary between characters that begins at a byte and steps back byte by byte
ends at `cut`: there is no boundary before it is reached, and at most three steps are taken. -/
structure EndsSearch (s : String) (start : Nat) (cut : s.Pos) : Prop where
  le_start : cut.offset.byteIdx ≤ start
  misses : ∀ n, cut.offset.byteIdx < n → n ≤ start → ¬ String.Pos.Raw.IsValid s ⟨n⟩
  start_le : start ≤ cut.offset.byteIdx + 3

theorem endsSearch_posLE
    {s : String} {start : Nat} (hstart : start < s.utf8ByteSize) :
    EndsSearch s start (s.posLE ⟨start⟩) := by
  have hle : (s.posLE ⟨start⟩).offset.byteIdx ≤ start := String.offset_posLE_le
  refine ⟨hle, ?_, ?_⟩
  · intro n hlt hn hvalid
    have hreached : (⟨⟨n⟩, hvalid⟩ : s.Pos) ≤ s.posLE ⟨start⟩ := String.le_posLE_iff.mpr hn
    exact Nat.not_lt.mpr hreached hlt
  · -- The next boundary is behind the start, and no further from the cut than a character is wide.
    have hne : s.posLE ⟨start⟩ ≠ s.endPos := by
      intro hend
      rw [hend] at hle
      exact Nat.not_le.mpr hstart hle
    have hnext : start < ((s.posLE ⟨start⟩).next hne).offset.byteIdx :=
      String.posLE_lt_iff.mp String.Pos.lt_next
    rw [String.Pos.byteIdx_offset_next] at hnext
    have hwidth := ((s.posLE ⟨start⟩).get hne).utf8Size_le_four
    omega

/-- What is before the end of the search is the longest beginning that fits. -/
theorem isLongestWithin_sliceTo_posLE
    (s : String) (start : Nat) :
    IsLongestWithin start s (s.sliceTo (s.posLE ⟨start⟩)).copy := by
  refine ⟨?_, ?_, ?_⟩
  · use (s.sliceFrom (s.posLE ⟨start⟩)).copy.toList
    rw [← String.toList_append, String.sliceTo_append_sliceFrom]
  · rw [String.Slice.utf8ByteSize_copy, String.utf8ByteSize_sliceTo]
    exact String.offset_posLE_le
  · -- A beginning that fits ends at a boundary, which the search does not step over.
    rintro other ⟨rest, hrest⟩ hfits
    have happend : s = other ++ String.ofList rest := by
      rw [← String.toList_inj, String.toList_append, String.toList_ofList, hrest]
    have hvalid : other.rawEndPos.IsValid s :=
      String.Pos.Raw.isValid_iff_exists_append.mpr ⟨other, _, happend, rfl⟩
    have hsplits : (⟨other.rawEndPos, hvalid⟩ : s.Pos).Splits other (String.ofList rest) :=
      ⟨happend, rfl⟩
    obtain ⟨more, hmore, _⟩ := (hsplits.le_iff_exists_eq_append (s.posLE ⟨start⟩).splits).mp
      (String.le_posLE_iff.mpr hfits)
    rw [hmore, String.toList_append]
    exact List.prefix_append _ _

/-! ## Clipping -/

theorem clip_of_le
    {limit keep : Nat} {s : String} (h : s.utf8ByteSize ≤ limit) :
    clip limit keep s = s :=
  if_pos h

theorem clip_of_lt
    {limit keep : Nat} {s : String} (h : limit < s.utf8ByteSize) :
    clip limit keep s = (s.sliceTo (s.posLE ⟨keep⟩)).copy ++ "..." := by
  rw [clip, if_neg (Nat.not_le.mpr h),
    (isLongestWithin_takeBytes keep s).eq (isLongestWithin_sliceTo_posLE s keep)]

theorem utf8ByteSize_clip_le
    {limit : Nat} (hdots : 3 ≤ limit) (s : String) :
    (clip limit (limit - 3) s).utf8ByteSize ≤ limit := by
  by_cases h : s.utf8ByteSize ≤ limit
  · rw [clip_of_le h]
    exact h
  · rw [clip_of_lt (Nat.not_le.mp h), String.utf8ByteSize_append]
    have hfits := (isLongestWithin_sliceTo_posLE s (limit - 3)).fits
    have hwidth : "...".utf8ByteSize = 3 := by decide
    omega

end Text

/-- A text that fits is its own excerpt.  Of one that does not fit, the excerpt is its longest
beginning in whole characters that leaves room for the dots, up to where a search ends that steps
back byte by byte.  No excerpt is longer than the limit, and excerpts are their own excerpts. -/
theorem excerpt_keeps_longest
    (s : String) :
    (s.utf8ByteSize ≤ Limits.maxErrorMessageLength → excerpt s = s) ∧
    (Limits.maxErrorMessageLength < s.utf8ByteSize →
      ∃ cut : s.Pos,
        Text.EndsSearch s (Limits.maxErrorMessageLength - 3) cut ∧
        Text.IsLongestWithin (Limits.maxErrorMessageLength - 3) s (s.sliceTo cut).copy ∧
        excerpt s = (s.sliceTo cut).copy ++ "...") ∧
    (excerpt s).utf8ByteSize ≤ Limits.maxErrorMessageLength ∧
    excerpt (excerpt s) = excerpt s := by
  have hsize : (excerpt s).utf8ByteSize ≤ Limits.maxErrorMessageLength :=
    Text.utf8ByteSize_clip_le (by decide) s
  refine ⟨Text.clip_of_le, ?_, hsize, Text.clip_of_le hsize⟩
  intro hlong
  have hstart : Limits.maxErrorMessageLength - 3 < s.utf8ByteSize :=
    Nat.lt_of_le_of_lt (Nat.sub_le _ 3) hlong
  exact ⟨_, Text.endsSearch_posLE hstart, Text.isLongestWithin_sliceTo_posLE s _,
    Text.clip_of_lt hlong⟩

/-- A text of so many characters of three bytes each. -/
def euros (n : Nat) : String :=
  String.ofList (List.replicate n '€')

/-- The room for what is kept ends inside of a character, which is left out. -/
theorem euros_excerpt :
    Limits.maxErrorMessageLength < (euros 700).utf8ByteSize ∧
      excerpt (euros 700) = euros 665 ++ "..." := by
  have hlong : Limits.maxErrorMessageLength < (euros 700).utf8ByteSize := by
    rw [euros, Text.utf8ByteSize_ofList_replicate]
    decide
  obtain ⟨_, _, hlongest, hexcerpt⟩ := (excerpt_keeps_longest (euros 700)).2.1 hlong
  have hkept := hlongest.eq (Text.isLongestWithin_takeBytes _ (euros 700))
  rw [show (euros 700).toList = List.replicate 700 '€' from String.toList_ofList,
    Text.takeBytes_replicate] at hkept
  refine ⟨hlong, ?_⟩
  rw [hexcerpt, hkept]
  rfl

end SkillLang

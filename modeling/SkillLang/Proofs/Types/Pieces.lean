import SkillLang.Signature.Json

/-!
# Pieces of the text of a type

Texts that begin and end with no blank are not changed by trimming, texts without a mark are not cut
at it, and texts whose commas all stand inside of brackets are not cut into fields.
-/

namespace SkillLang

/-! ## Texts without blanks at their ends -/

namespace Text

/-- The text is not empty, and its first and last characters are no blanks. -/
structure IsSolid (cs : List Char) : Prop where
  ne_nil : cs ≠ []
  head : ∀ c ∈ cs.head?, isBlank c = false
  last : ∀ c ∈ cs.getLast?, isBlank c = false

theorem dropWhile_blanks
    {blanks cs : List Char} (hblanks : ∀ c ∈ blanks, isBlank c = true)
    (hhead : ∀ c ∈ cs.head?, isBlank c = false) :
    (blanks ++ cs).dropWhile isBlank = cs := by
  rw [List.dropWhile_append_of_pos hblanks]
  cases cs with
  | nil => rfl
  | cons c cs =>
      have hc : isBlank c = false := hhead c rfl
      rw [List.dropWhile_cons_of_neg (by simp [hc])]

/-- Trimming takes away the blanks around a solid text, and nothing else. -/
theorem IsSolid.trimChars_eq
    {cs : List Char} (h : IsSolid cs) {before after : List Char}
    (hbefore : ∀ c ∈ before, isBlank c = true) (hafter : ∀ c ∈ after, isBlank c = true) :
    trimChars (before ++ (cs ++ after)) = cs := by
  have hhead : ∀ c ∈ (cs ++ after).head?, isBlank c = false := by
    intro c hc
    apply h.head
    rwa [List.head?_append, Option.or_of_isSome (List.isSome_head?.mpr h.ne_nil)] at hc
  have hstart : trimStart (before ++ (cs ++ after)) = cs ++ after :=
    dropWhile_blanks hbefore hhead
  have hreverse : ∀ c ∈ after.reverse, isBlank c = true := by
    intro c hc
    exact hafter c (List.mem_reverse.mp hc)
  have hlast : ∀ c ∈ cs.reverse.head?, isBlank c = false := by
    rw [List.head?_reverse]
    exact h.last
  rw [trimChars, hstart, trimEnd, List.reverse_append, dropWhile_blanks hreverse hlast,
    List.reverse_reverse]

theorem IsSolid.trimChars_self
    {cs : List Char} (h : IsSolid cs) :
    trimChars cs = cs := by
  simpa using h.trimChars_eq (List.forall_mem_nil _) (List.forall_mem_nil _)

theorem isSolid_of_no_blank
    {cs : List Char} (hne : cs ≠ []) (h : ∀ c ∈ cs, isBlank c = false) :
    IsSolid cs where
  ne_nil := hne
  head c hc := h c (List.mem_of_head? hc)
  last c hc := h c (List.mem_of_getLast? hc)

theorem trimChars_of_no_blank
    {cs : List Char} (h : ∀ c ∈ cs, isBlank c = false) :
    trimChars cs = cs := by
  by_cases hne : cs = []
  · subst hne
    rfl
  · exact (isSolid_of_no_blank hne h).trimChars_self

theorem isSolid_char
    {c : Char} (h : isBlank c = false) :
    IsSolid [c] :=
  isSolid_of_no_blank (List.cons_ne_nil _ _) (List.forall_mem_singleton.mpr h)

/-- Only the two ends of a text matter. -/
theorem IsSolid.around
    {before after : List Char} (hbefore : IsSolid before) (hafter : IsSolid after)
    (middle : List Char) :
    IsSolid (before ++ (middle ++ after)) := by
  constructor
  · exact List.append_ne_nil_of_left_ne_nil hbefore.ne_nil _
  · intro c hc
    rw [List.head?_append, Option.or_of_isSome (List.isSome_head?.mpr hbefore.ne_nil)] at hc
    exact hbefore.head c hc
  · intro c hc
    rw [← List.append_assoc, List.getLast?_append,
      Option.or_of_isSome (List.getLast?_isSome.mpr hafter.ne_nil)] at hc
    exact hafter.last c hc

end Text

open Text

namespace Ty

/-! ## Names -/

/-- What keeps the parts of a type apart, blanks aside. -/
def syntaxChars : List Char :=
  ['(', ')', '\x7b', '\x7d', ',']

/-- The text can stand for itself in a type. -/
def isPlainName (name : String) : Bool :=
  name.toList.all fun c => !isBlank c && !syntaxChars.contains c

section Names

variable {name : String}

theorem not_blank_of_isPlainName
    (h : isPlainName name = true) :
    ∀ c ∈ name.toList, isBlank c = false := by
  intro c hc
  have hboth := List.all_eq_true.mp h c hc
  rw [Bool.and_eq_true, Bool.not_eq_true'] at hboth
  exact hboth.1

theorem not_mem_of_isPlainName
    (h : isPlainName name = true) {c : Char} (hc : c ∈ syntaxChars) :
    c ∉ name.toList := by
  intro hmem
  have hboth := List.all_eq_true.mp h c hmem
  rw [Bool.and_eq_true, Bool.not_eq_true', Bool.not_eq_true', List.contains_eq_mem] at hboth
  exact of_decide_eq_false hboth.2 hc

theorem trimmed_of_isPlainName
    (h : isPlainName name = true) :
    trimmed name.toList = name := by
  rw [trimmed, trimChars_of_no_blank (not_blank_of_isPlainName h), String.ofList_toList]

theorem isSolid_of_isPlainName
    (h : isPlainName name = true) (hne : name ≠ "") :
    IsSolid name.toList := by
  apply isSolid_of_no_blank
  · intro hnil
    exact hne (String.toList_eq_nil_iff.mp hnil)
  · exact not_blank_of_isPlainName h

end Names

/-! ## Cuts at single characters -/

section Cuts

variable {mark : Char} {before after cs : List Char}

theorem splitAt?_append
    (h : mark ∉ before) (after : List Char) :
    splitAt? mark (before ++ mark :: after) = some (before, after) := by
  induction before with
  | nil =>
      rw [List.nil_append, splitAt?, if_pos (beq_self_eq_true mark)]
  | cons c before ih =>
      rw [List.mem_cons, not_or] at h
      have hc : (c == mark) = false := beq_eq_false_iff_ne.mpr (Ne.symm h.1)
      rw [List.cons_append, splitAt?, hc, ih h.2]
      rfl

theorem splitAt?_eq_none
    (h : mark ∉ cs) :
    splitAt? mark cs = none := by
  induction cs with
  | nil => rfl
  | cons c cs ih =>
      rw [List.mem_cons, not_or] at h
      have hc : (c == mark) = false := beq_eq_false_iff_ne.mpr (Ne.symm h.1)
      rw [splitAt?, hc, ih h.2]
      rfl

theorem dropEnd?_concat
    (mark : Char) (cs : List Char) :
    dropEnd? mark (cs ++ [mark]) = some cs := by
  have hreverse : (cs ++ [mark]).reverse = mark :: cs.reverse := by simp
  simp [dropEnd?, hreverse]

theorem unbrace?_eq_none
    (h : cs.head? ≠ some '\x7b') :
    unbrace? cs = none := by
  unfold unbrace?
  split
  · exact absurd rfl h
  · rfl

theorem splitCommas_append
    (h : ',' ∉ cs) (part rest : List Char) :
    splitCommas part (cs ++ rest) = splitCommas (cs.reverse ++ part) rest := by
  induction cs generalizing part with
  | nil => rfl
  | cons c cs ih =>
      rw [List.mem_cons, not_or] at h
      have hc : (c == ',') = false := beq_eq_false_iff_ne.mpr (Ne.symm h.1)
      rw [List.cons_append, splitCommas, hc, List.reverse_cons, List.append_assoc]
      exact ih h.2 (c :: part)

/-- Texts without commas are found again between the commas that join them. -/
theorem splitCommas_intercalate
    {pieces : List (List Char)} (hne : pieces ≠ []) (h : ∀ piece ∈ pieces, ',' ∉ piece) :
    splitCommas [] ([','].intercalate pieces) = pieces := by
  induction pieces with
  | nil => exact absurd rfl hne
  | cons piece pieces ih =>
      rw [List.forall_mem_cons] at h
      cases pieces with
      | nil =>
          have hsplit := splitCommas_append h.1 [] []
          simpa [splitCommas] using hsplit
      | cons next pieces =>
          have hrest := ih (List.cons_ne_nil _ _) h.2
          rw [List.intercalate_cons_cons, List.append_assoc, splitCommas_append h.1,
            List.singleton_append, splitCommas, if_pos (beq_self_eq_true ','), hrest]
          simp

end Cuts

/-! ## Commas inside of brackets -/

/-- Fields are cut nowhere inside of the text if it stands in as many brackets. -/
def IsWhole (depth : Int) (cs : List Char) : Prop :=
  ∀ part rest, splitFields depth part (cs ++ rest) = splitFields depth (cs.reverse ++ part) rest

section IsWhole

variable {depth : Int} {cs ds : List Char}

theorem isWhole_nil :
    IsWhole depth [] :=
  fun _ _ => rfl

theorem IsWhole.append
    (hcs : IsWhole depth cs) (hds : IsWhole depth ds) :
    IsWhole depth (cs ++ ds) := by
  intro part rest
  rw [List.append_assoc, hcs, hds, List.reverse_append, List.append_assoc]

/-- A character that is no bracket, and no comma outside of all brackets. -/
theorem isWhole_char
    {c : Char} (hc : c ∉ syntaxChars ∨ c = ',' ∧ 0 < depth) :
    IsWhole depth [c] := by
  intro part rest
  rw [List.singleton_append, splitFields]
  obtain hc | ⟨rfl, hdepth⟩ := hc
  · simp only [syntaxChars, List.mem_cons, List.not_mem_nil, or_false, not_or] at hc
    simp [hc]
  · have hne : depth ≠ 0 := by omega
    simp [hne]

theorem isWhole_of_forall
    (h : ∀ c ∈ cs, c ∉ syntaxChars ∨ c = ',' ∧ 0 < depth) :
    IsWhole depth cs := by
  induction cs with
  | nil => exact isWhole_nil
  | cons c cs ih =>
      rw [List.forall_mem_cons] at h
      exact (isWhole_char h.1).append (ih h.2)

theorem isWhole_of_isPlainName
    {name : String} (h : isPlainName name = true) :
    IsWhole depth name.toList := by
  apply isWhole_of_forall
  intro c hc
  exact .inl fun hmem => not_mem_of_isPlainName h hmem hc

/-- What stands between brackets is one level deeper. -/
theorem IsWhole.enclosed
    {opening closing : Char} (hopening : opening = '(' ∨ opening = '\x7b')
    (hclosing : closing = ')' ∨ closing = '\x7d') (h : IsWhole (depth + 1) cs) :
    IsWhole depth (opening :: (cs ++ [closing])) := by
  intro part rest
  have hopen : splitFields depth part (opening :: (cs ++ ([closing] ++ rest))) =
      splitFields (depth + 1) (opening :: part) (cs ++ ([closing] ++ rest)) := by
    obtain rfl | rfl := hopening <;> rfl
  have hclose (p : List Char) : splitFields (depth + 1) p ([closing] ++ rest) =
      splitFields depth (closing :: p) rest := by
    have hback : depth + 1 - 1 = depth := by omega
    obtain rfl | rfl := hclosing <;> simp [splitFields, hback]
  rw [List.cons_append, List.append_assoc, hopen, h, hclose]
  simp

end IsWhole

end Ty

end SkillLang

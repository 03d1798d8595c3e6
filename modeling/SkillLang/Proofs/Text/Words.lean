import Mathlib.Tactic.Common
import SkillLang.Text.Basic

/-!
# Words

A word is a text that is not empty and has no blanks.  The words of a text are words, and words
are read again from a text in which there is a blank between each two of them.
-/

namespace SkillLang.Text

/-- None of the characters is a blank. -/
def AreSolid (cs : List Char) : Prop :=
  ∀ c ∈ cs, isBlank c = false

def HasNoBlank (s : String) : Prop :=
  AreSolid s.toList

structure IsWord (s : String) : Prop where
  ne_empty : s ≠ ""
  hasNoBlank : HasNoBlank s

def AreWords (texts : List String) : Prop :=
  ∀ text ∈ texts, IsWord text

/-- The characters of a word. -/
structure IsRun (cs : List Char) : Prop where
  ne_nil : cs ≠ []
  areSolid : AreSolid cs

-- The characters of the list are tried, not all characters that there are.
instance (cs : List Char) : Decidable (AreSolid cs) :=
  List.decidableBAll _ cs

instance (s : String) : Decidable (HasNoBlank s) :=
  inferInstanceAs (Decidable (AreSolid s.toList))

instance (s : String) : Decidable (IsWord s) :=
  decidable_of_iff (s ≠ "" ∧ HasNoBlank s) ⟨fun h => ⟨h.1, h.2⟩, fun h => ⟨h.1, h.2⟩⟩

instance (texts : List String) : Decidable (AreWords texts) :=
  List.decidableBAll _ texts

theorem areSolid_cons
    {c : Char} {cs : List Char} :
    AreSolid (c :: cs) ↔ isBlank c = false ∧ AreSolid cs :=
  List.forall_mem_cons

theorem areSolid_append
    {cs ds : List Char} :
    AreSolid (cs ++ ds) ↔ AreSolid cs ∧ AreSolid ds :=
  List.forall_mem_append

theorem AreSolid.take
    {cs : List Char} (h : AreSolid cs) (n : Nat) :
    AreSolid (cs.take n) :=
  fun c hc => h c (List.mem_of_mem_take hc)

theorem AreSolid.drop
    {cs : List Char} (h : AreSolid cs) (n : Nat) :
    AreSolid (cs.drop n) :=
  fun c hc => h c (List.mem_of_mem_drop hc)

theorem AreSolid.reverse
    {cs : List Char} (h : AreSolid cs) :
    AreSolid cs.reverse :=
  fun c hc => h c (List.mem_reverse.mp hc)

theorem hasNoBlank_append
    {s t : String} :
    HasNoBlank (s ++ t) ↔ HasNoBlank s ∧ HasNoBlank t := by
  rw [HasNoBlank, String.toList_append, areSolid_append]
  rfl

/-- Text without blanks may follow a word. -/
theorem IsWord.append
    {s t : String} (hs : IsWord s) (ht : HasNoBlank t) :
    IsWord (s ++ t) where
  ne_empty := by
    intro hempty
    exact hs.ne_empty (String.append_eq_empty_iff.mp hempty).1
  hasNoBlank := hasNoBlank_append.mpr ⟨hs.hasNoBlank, ht⟩

theorem IsRun.isWord
    {cs : List Char} (h : IsRun cs) :
    IsWord (String.ofList cs) where
  ne_empty := by
    intro hempty
    exact h.ne_nil (by simpa using congrArg String.toList hempty)
  hasNoBlank := by
    rw [HasNoBlank, String.toList_ofList]
    exact h.areSolid

theorem IsWord.isRun
    {s : String} (h : IsWord s) :
    IsRun s.toList where
  ne_nil := by simpa using h.ne_empty
  areSolid := h.hasNoBlank

theorem areWords_nil :
    AreWords [] :=
  List.forall_mem_nil _

theorem areWords_singleton
    {text : String} :
    AreWords [text] ↔ IsWord text :=
  List.forall_mem_singleton

theorem areWords_cons
    {text : String} {texts : List String} :
    AreWords (text :: texts) ↔ IsWord text ∧ AreWords texts :=
  List.forall_mem_cons

theorem areWords_append
    {texts others : List String} :
    AreWords (texts ++ others) ↔ AreWords texts ∧ AreWords others :=
  List.forall_mem_append

/-! ## Words of a text -/

theorem isRun_of_mem_wordsAfter
    {current cs word : List Char} (hcurrent : AreSolid current)
    (h : word ∈ wordsAfter current cs) :
    IsRun word := by
  have hreverse (hne : ¬ current.isEmpty = true) : IsRun current.reverse :=
    ⟨by simpa using hne, hcurrent.reverse⟩
  induction cs generalizing current with
  | nil =>
      rw [wordsAfter] at h
      split at h
      next => cases h
      next hne =>
          obtain rfl := List.mem_singleton.mp h
          exact hreverse hne
  | cons c cs ih =>
      rw [wordsAfter] at h
      split at h
      next =>
          have hnil := @ih [] (List.forall_mem_nil _)
          split at h
          next => exact hnil h (absurd rfl)
          next hne =>
              rcases List.mem_cons.mp h with rfl | h
              · exact hreverse hne
              · exact hnil h (absurd rfl)
      next hblank =>
          have hlonger : AreSolid (c :: current) :=
            areSolid_cons.mpr ⟨by simpa using hblank, hcurrent⟩
          exact ih hlonger h fun _ => ⟨by simp, hlonger.reverse⟩

theorem areWords_words
    (s : String) :
    AreWords (words s) := by
  intro word hword
  obtain ⟨cs, hcs, rfl⟩ := List.mem_map.mp hword
  exact (isRun_of_mem_wordsAfter (List.forall_mem_nil _) hcs).isWord

/-! ## Reading words again -/

theorem wordsAfter_append
    {word : List Char} (hword : AreSolid word) (current cs : List Char) :
    wordsAfter current (word ++ cs) = wordsAfter (word.reverse ++ current) cs := by
  induction word generalizing current with
  | nil => rfl
  | cons c word ih =>
      obtain ⟨hc, hword⟩ := areSolid_cons.mp hword
      rw [List.cons_append, wordsAfter, hc, if_neg Bool.false_ne_true, ih hword]
      simp

/-- The first word ends where a blank follows it. -/
theorem IsRun.wordsAfter
    {word : List Char} (h : IsRun word) (cs : List Char) :
    wordsAfter [] (word ++ ' ' :: cs) = word :: wordsAfter [] cs := by
  have hspace : isBlank ' ' = true := by decide
  rw [wordsAfter_append h.areSolid, List.append_nil, Text.wordsAfter, hspace, if_pos rfl,
    if_neg (by simpa using h.ne_nil), List.reverse_reverse]

theorem IsRun.wordsAfter_last
    {word : List Char} (h : IsRun word) :
    Text.wordsAfter [] word = [word] := by
  have happend := wordsAfter_append h.areSolid [] []
  rw [List.append_nil, List.append_nil] at happend
  rw [happend, Text.wordsAfter, if_neg (by simpa using h.ne_nil), List.reverse_reverse]

theorem wordsAfter_intercalate
    {ws : List String} (h : AreWords ws) :
    wordsAfter [] (" ".intercalate ws).toList = ws.map String.toList := by
  induction ws with
  | nil => rfl
  | cons w ws ih =>
      obtain ⟨hw, hws⟩ := areWords_cons.mp h
      cases ws with
      | nil =>
          rw [String.intercalate_singleton]
          exact hw.isRun.wordsAfter_last
      | cons other ws =>
          have hspace : (" " : String).toList = [' '] := rfl
          rw [String.intercalate_cons_cons, String.toList_append, String.toList_append, hspace,
            List.append_assoc, List.singleton_append, hw.isRun.wordsAfter, ih hws]
          rfl

/-- Words that are joined by blanks come apart again. -/
theorem words_intercalate
    {ws : List String} (h : AreWords ws) :
    words (" ".intercalate ws) = ws := by
  rw [words, wordsAfter_intercalate h, List.map_map]
  exact List.map_id'' (fun w => String.ofList_toList) ws

/-- Nothing else than words comes apart again. -/
theorem words_intercalate_iff
    {ws : List String} :
    words (" ".intercalate ws) = ws ↔ AreWords ws := by
  refine ⟨fun h => ?_, words_intercalate⟩
  rw [← h]
  exact areWords_words _

end SkillLang.Text

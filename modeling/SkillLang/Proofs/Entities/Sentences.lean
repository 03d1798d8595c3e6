import Mathlib.Data.List.Infix
import SkillLang.Proofs.Entities.Reuse

/-!
# Sentences

A sentence mentions some words if it has them one after the other, apart from the case of
letters.  A finder with a sentence stays the same whatever it is asked for, and a search in it
never fails by itself: it ends with words or without any.
-/

namespace SkillLang

/-- Words that differ from others at most in the case of ASCII letters. -/
def Text.SameWords (words others : List String) : Prop :=
  List.Forall₂ (fun word other => equalIgnoringCase word other = true) words others

namespace SentenceFinder

variable {f : SentenceFinder} {words sentence : List String}

/-! ## Mentions -/

theorem startsWith_iff :
    startsWith words sentence = true ↔
      ∃ window, window <+: sentence ∧ Text.SameWords words window := by
  induction words generalizing sentence with
  | nil => exact iff_of_true (by cases sentence <;> rfl) ⟨[], List.nil_prefix, .nil⟩
  | cons word words ih =>
      cases sentence with
      | nil =>
          refine iff_of_false Bool.false_ne_true ?_
          rintro ⟨window, hprefix, hsame⟩
          rw [List.prefix_nil.mp hprefix] at hsame
          cases hsame
      | cons other sentence =>
          rw [startsWith, Bool.and_eq_true, ih]
          constructor
          · rintro ⟨hword, window, hprefix, hsame⟩
            exact ⟨other :: window, (List.prefix_cons_inj other).mpr hprefix, .cons hword hsame⟩
          · rintro ⟨window, hprefix, hsame⟩
            cases hsame with
            | cons hword hsame =>
                obtain ⟨rfl, hrest⟩ := List.cons_prefix_cons.mp hprefix
                exact ⟨hword, _, hrest, hsame⟩

theorem occurs_iff
    (hne : words ≠ []) :
    occurs words sentence = true ↔
      ∃ window, window <:+: sentence ∧ Text.SameWords words window := by
  induction sentence with
  | nil =>
      refine iff_of_false Bool.false_ne_true ?_
      rintro ⟨window, hwindow, hsame⟩
      rw [List.infix_nil.mp hwindow] at hsame
      cases hsame
      exact hne rfl
  | cons word sentence ih =>
      rw [occurs, Bool.or_eq_true, startsWith_iff, ih]
      simp only [List.infix_cons_iff, or_and_right, exists_or]

theorem mentions_iff :
    f.mentions words = true ↔
      words ≠ [] ∧ ∃ window, window <:+: f.sentence ∧ Text.SameWords words window := by
  by_cases hne : words = []
  · subst hne
    exact iff_of_false Bool.false_ne_true fun h => h.1 rfl
  · have hempty : words.isEmpty = false := by simpa using hne
    rw [mentions, hempty, Bool.not_false, Bool.true_and, occurs_iff hne, and_iff_right hne]

theorem mentions_singleton_iff
    {word : String} :
    f.mentions [word] = true ↔
      ∃ other ∈ f.sentence, Text.equalIgnoringCase word other = true := by
  rw [mentions_iff, and_iff_right (List.cons_ne_nil _ _)]
  constructor
  · rintro ⟨_, hwindow, _ | ⟨hword, _ | _⟩⟩
    exact ⟨_, hwindow.mem List.mem_cons_self, hword⟩
  · rintro ⟨other, hmem, hword⟩
    exact ⟨[other], (List.singleton_infix_iff other _).mpr hmem, .cons hword .nil⟩

/-! ## Searches -/

/-- The search has ended without an error, what it has found has a property, and the finder is
still the same. -/
def Settles (f : SentenceFinder) (P : Option (List String) → Prop)
    (result : Except EntityError (Option (List String))) (finder : EntityFinder) : Prop :=
  finder = .sentence f ∧ ∃ found, result = .ok found ∧ P found

/-- What a request ends with after a search. -/
def reply (f : SentenceFinder) (type : String) (v : Value) (options : FindOptions)
    (found : Option (List String)) : Except EntityError (Option (List String)) :=
  if found.isSome || options.ignoreNotFound then .ok found
  else .error (.notFound type v.source.text f.entities.describe)

theorem eq_of_reply
    {type : String} {v : Value} {options : FindOptions} {found given : Option (List String)}
    (h : .ok given = f.reply type v options found) :
    found = given := by
  rw [reply] at h
  split at h
  next => exact (Except.ok.inj h).symm
  next => cases h

end SentenceFinder

namespace EntityFinder

open SkillLang.Action SentenceFinder

variable {f : SentenceFinder} {P Q : Option (List String) → Prop}

theorem settles_pure
    {found : Option (List String)} (h : P found) :
    (pure found : Find (Option (List String))).Ends (.sentence f) (f.Settles P) :=
  ends_pure ⟨rfl, found, rfl, h⟩

theorem settles_mono
    {search : Find (Option (List String))} (h : search.Ends (.sentence f) (f.Settles P))
    (hle : ∀ found, P found → Q found) :
    search.Ends (.sentence f) (f.Settles Q) := by
  refine h.mono ?_
  rintro result finder ⟨hfinder, found, hresult, hfound⟩
  exact ⟨hfinder, found, hresult, hle found hfound⟩

theorem settles_bind
    {first : Find (Option (List String))}
    {g : Option (List String) → Find (Option (List String))}
    (hfirst : first.Ends (.sentence f) (f.Settles P))
    (hsecond : ∀ found, P found → (g found).Ends (.sentence f) (f.Settles Q)) :
    (first >>= g).Ends (.sentence f) (f.Settles Q) := by
  refine hfirst.bind ?_ ?_
  · rintro found finder ⟨rfl, _, heq, hfound⟩
    cases heq
    exact hsecond found hfound
  · rintro e finder ⟨-, _, heq, -⟩
    cases heq

theorem findLiteral_settles
    (type : String) (v : Value) (options : FindOptions)
    (h : P (f.literal? type v options)) :
    (findLiteral type v options).Ends (.sentence f) (f.Settles P) :=
  ends_getState_bind (settles_pure h)

/-- A request replies by what the search for its words has found. -/
theorem reply_ends
    {search : Find (Option (List String))} (hsearch : search.Ends (.sentence f) (f.Settles P))
    (type : String) (v : Value) (options : FindOptions) :
    (search >>= fun found =>
      if found.isSome || options.ignoreNotFound then pure found
      else do
        let finder ← getState
        fail (.notFound type v.source.text finder.entities.describe)).Ends (.sentence f)
      fun result finder =>
        finder = .sentence f ∧ ∃ found, result = f.reply type v options found ∧ P found := by
  refine hsearch.bind ?_ ?_
  · rintro found finder ⟨rfl, _, heq, hfound⟩
    cases heq
    split
    next hgiven => exact ends_pure ⟨rfl, found, (if_pos hgiven).symm, hfound⟩
    next hgiven =>
        exact ends_getState_bind
          (ends_record_bind (ends_throw ⟨rfl, found, (if_neg hgiven).symm, hfound⟩))
  · rintro e finder ⟨-, _, heq, -⟩
    cases heq

end EntityFinder

end SkillLang

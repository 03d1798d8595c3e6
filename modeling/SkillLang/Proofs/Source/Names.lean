import SkillLang.Proofs.Source.Separators

/-!
# Names

A name is a plain identifier that is no keyword.  It is no mark of the syntax, and none of the
words that are put together with a sign begins like it.
-/

namespace SkillLang

open TokenTree

def isNameHead (c : Char) : Bool :=
  c.isAlpha || c == '_'

def isNameTail (c : Char) : Bool :=
  c.isAlphanum || c == '_'

/-- The words of letters that have a meaning of their own. -/
def syntaxWords : List String :=
  ["true", "false", "enum", "new", "any", "of", "filter", "as", "on", "join", "monitor", "sort",
    "asc", "desc", "let", "return", "function", "class"]

def isName (w : String) : Bool :=
  match w.toList with
  | [] => false
  | c :: cs => isNameHead c && cs.all isNameTail && !syntaxWords.contains w

/-! ## Marks -/

/-- What stands between values and around filters, and at the ends of statements. -/
def structureMarks : List String :=
  [",", ";", ":", "=", "|", "=>", "join", "as", "asc", "desc", "\n", "let", "return", "function",
    "class"]

def comparisonMarks : List String :=
  ["==", ">=", "<=", ">", "<", "=~", "~="]

/-- What stands in and before filters. -/
def testMarks : List String :=
  ["filter", "!", "&&", "||"] ++ comparisonMarks

/-- The marks that no expression has outside of brackets. -/
def statementMarks : List String :=
  [";", "=", "\n", "let", "return", "function", "class"]

section IsName

variable {w : String}

theorem isNameTail_of_isNameHead
    {c : Char} (h : isNameHead c = true) :
    isNameTail c = true := by
  rw [isNameHead, Bool.or_eq_true] at h
  rw [isNameTail, Char.isAlphanum, Bool.or_eq_true, Bool.or_eq_true]
  exact h.imp_left .inl

theorem isNameTail_of_mem
    (h : isName w = true) :
    ∀ c ∈ w.toList, isNameTail c = true := by
  unfold isName at h
  split at h
  next => cases h
  next c cs hw =>
      rw [Bool.and_eq_true, Bool.and_eq_true, List.all_eq_true] at h
      rw [hw, List.forall_mem_cons]
      exact ⟨isNameTail_of_isNameHead h.1.1, h.1.2⟩

theorem not_mem_of_isName
    (h : isName w = true) {marks : List String}
    (hmarks : marks.all (fun mark => !isName mark) = true) :
    w ∉ marks := by
  intro hmem
  have := List.all_eq_true.mp hmarks w hmem
  rw [h] at this
  cases this

theorem ne_of_isName
    (h : isName w = true) {mark : String} (hmark : isName mark = false) :
    w ≠ mark := by
  rintro rfl
  rw [h] at hmark
  cases hmark

theorem avoids_of_isName
    (h : isName w = true) {marks : List String}
    (hmarks : marks.all (fun mark => !isName mark) = true) :
    Avoids marks [word w] :=
  avoids_word (not_mem_of_isName h hmarks)

theorem afterPrefix?_eq_none
    {c : Char} {before : String} (hbefore : c ∈ before.toList) (h : c ∉ w.toList) :
    afterPrefix? before w = none := by
  rw [afterPrefix?, Option.map_eq_none_iff, Option.eq_none_iff_forall_ne_some]
  intro rest hrest
  rw [eq_append_of_stripPrefix? hrest] at h
  exact h (List.mem_append_left rest hbefore)

/-- A name does not begin with what is no part of names. -/
theorem afterPrefix?_of_isName
    (h : isName w = true) {before : String}
    (hbefore : before.toList.any (fun c => !isNameTail c) = true) :
    afterPrefix? before w = none := by
  obtain ⟨c, hc, hsign⟩ := List.any_eq_true.mp hbefore
  refine afterPrefix?_eq_none hc fun hmem => ?_
  rw [isNameTail_of_mem h c hmem] at hsign
  cases hsign

theorem isPlain_of_isName
    (h : isName w = true) :
    Token.isPlain (.literal w) = true :=
  Token.isPlain_of_not_mem (not_mem_of_isName h (by decide)) (afterPrefix?_of_isName h (by decide))

end IsName

/-! ## Words with a sign in front -/

theorem not_mem_of_afterPrefix?
    {before w rest : String} (h : afterPrefix? before w = some rest) {marks : List String}
    (hmarks : marks.all (fun mark => (afterPrefix? before mark).isNone) = true) :
    w ∉ marks := by
  intro hmem
  have := List.all_eq_true.mp hmarks w hmem
  rw [h] at this
  cases this

example : isName "title_2" = true ∧ isName "filter" = false ∧ isName "$result" = false := by
  decide

end SkillLang

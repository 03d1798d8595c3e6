import SkillLang.Proofs.Entities.Sentences

/-!
# Numbers in sentences

Words justify a number if they are its decimal or a placeholder that stands for it, with a minus
sign in front of those of its size, and for a year also those of its last two digits.  A search
finds words that justify the number if there are any, and nothing else.
-/

namespace SkillLang

open Allocator (IsShort)

/-- The number is one of the years that may be told by their last two digits. -/
def IsYear (x : Float) (n : Nat) : Prop :=
  Decimal.exactInt? x = some (n : Int) ∧ 1950 ≤ n ∧ n ≤ 2050

theorem IsYear.eq
    {x : Float} {m n : Nat} (hm : IsYear x m) (hn : IsYear x n) :
    m = n :=
  Int.ofNat.inj (Option.some.inj (hm.1.symm.trans hn.1))

namespace SentenceFinder

/-- Words name a number: they are its decimal, which is a word of the sentence, or the placeholder
of a number that is equal to it. -/
inductive Names (f : SentenceFinder) (x : Float) : List String → Prop
  | word
      (hword : ∃ other ∈ f.sentence, Text.equalIgnoringCase (Decimal.number x) other = true) :
      Names f x [Decimal.number x]
  | placeholder
      (hentity : (key, Entity.number y) ∈ f.entities)
      (htype : Entity.typeOf key = "NUMBER")
      (hequal : (x == y) = true) :
      Names f x [key]

inductive Justifies (f : SentenceFinder) : Float → List String → Prop
  | short
      (hshort : IsShort x n) :
      Justifies f x [toString n]
  | named
      (hnames : f.Names x words) :
      Justifies f x words
  | negative
      (hx : x < 0)
      (hsize : Justifies f (-x) words) :
      Justifies f x ("-" :: words)
  | shortYear
      (hyear : IsYear x n)
      (hsmall : n % 100 ≤ 12) :
      Justifies f x [toString (n % 100)]
  | namedYear
      (hyear : IsYear x n)
      (hnames : f.Names (Float.ofNat (n % 100)) words) :
      Justifies f x words

/-- What is found has a property, and nothing has it if nothing is found. -/
def Decides (P : List String → Prop) : Option (List String) → Prop
  | some words => P words
  | none => ∀ words, ¬ P words

/-- What the search for a value of a type ends with. -/
inductive Finds (f : SentenceFinder) (options : FindOptions) :
    String → Value → Option (List String) → Prop
  | number
      (hfound : Decides (f.Justifies x) found) :
      Finds f options "NUMBER" (.number x) found
  | literal
      (hother : ∀ x, type = "NUMBER" → v ≠ .number x) :
      Finds f options type v (f.literal? type v options)

variable {f : SentenceFinder} {x : Float}

/-! ## Names -/

theorem denotes_number_iff
    {e : Entity} {now : Moment} :
    e.denotes "NUMBER" now (.number x) = true ↔ ∃ y, e = .number y ∧ (x == y) = true := by
  cases e with
  | number y => exact ⟨fun h => ⟨y, rfl, h⟩, fun ⟨_, heq, h⟩ => by cases heq; exact h⟩
  | _ =>
      refine iff_of_false Bool.false_ne_true ?_
      rintro ⟨_, heq, -⟩
      cases heq

theorem literal?_number
    (f : SentenceFinder) (x : Float) (options : FindOptions) :
    f.literal? "NUMBER" (.number x) options =
      if f.mentions [Decimal.number x] then some [Decimal.number x]
      else (Entity.placeholder? f.entities "NUMBER" f.now (.number x)).map fun key => [key] := by
  have htype : (f.explicitStrings && "NUMBER" == "QUOTED_STRING") = false := Bool.and_false _
  rw [literal?, copy?, htype, if_neg Bool.false_ne_true]
  by_cases hmentions : f.mentions [Decimal.number x] = true
  · rw [if_pos hmentions, if_pos hmentions]
  · rw [if_neg hmentions, if_neg hmentions]

theorem decides_names
    (f : SentenceFinder) (x : Float) (options : FindOptions) :
    Decides (f.Names x) (f.literal? "NUMBER" (.number x) options) := by
  rw [literal?_number]
  split
  next hmentions => exact .word (mentions_singleton_iff.mp hmentions)
  next hmentions =>
      cases hkey : Entity.placeholder? f.entities "NUMBER" f.now (.number x) with
      | some key =>
          obtain ⟨e, hmem, hanswers⟩ := Entity.exists_mem_of_placeholder? hkey
          obtain ⟨htype, hdenotes⟩ := Entity.answers_iff.mp hanswers
          obtain ⟨y, rfl, hequal⟩ := denotes_number_iff.mp hdenotes
          exact .placeholder hmem htype hequal
      | none =>
          rintro words (hword | ⟨hentity, htype, hequal⟩)
          · exact hmentions (mentions_singleton_iff.mpr hword)
          · refine Entity.placeholder?_eq_none_iff.mp hkey _ hentity ?_
            exact Entity.answers_iff.mpr ⟨htype, denotes_number_iff.mpr ⟨_, rfl, hequal⟩⟩

/-! ## Searches for numbers -/

/-- All ways to justify a number have to be ruled out. -/
theorem not_justifies
    (hshort : ∀ n, ¬ IsShort x n) (hnames : ∀ words, ¬ f.Names x words)
    (hnegative : x < 0 → ∀ words, ¬ f.Justifies (-x) words)
    (hyear : ∀ n, IsYear x n → 12 < n % 100 ∧ ∀ words, ¬ f.Names (Float.ofNat (n % 100)) words)
    (words : List String) :
    ¬ f.Justifies x words := by
  intro h
  cases h with
  | short h => exact hshort _ h
  | named h => exact hnames _ h
  | negative hx h => exact hnegative hx _ h
  | shortYear h hsmall => exact absurd (hyear _ h).1 (Nat.not_lt_of_le hsmall)
  | namedYear h hshort => exact (hyear _ h).2 _ hshort

theorem not_isShort_of_lt_zero
    (hx : x < 0) (n : Nat) :
    ¬ IsShort x n := by
  intro hshort
  have hn := Decimal.lt_zero_of_exactInt? hx hshort.1
  omega

theorem not_isYear_of_lt_zero
    (hx : x < 0) (n : Nat) :
    ¬ IsYear x n := by
  intro hyear
  have hn := Decimal.lt_zero_of_exactInt? hx hyear.1
  omega

/-- The decimal of a number from 0 to 12 has its digits. -/
theorem number_ofNat
    {n : Nat} (hn : n ≤ 12) :
    Decimal.number (Float.ofNat n) = toString n := by
  have hall : ∀ n : Fin 13, Decimal.number (Float.ofNat n) = toString n.val := by decide +kernel
  exact hall ⟨n, Nat.lt_succ_of_le hn⟩

end SentenceFinder

namespace EntityFinder

open SkillLang.Action SentenceFinder

variable {f : SentenceFinder} {x : Float}

theorem isYear_of_integerWithin?
    {year : Int} (h : integerWithin? 1950 2050 x = some year) :
    ∃ n : Nat, year = n ∧ IsYear x n := by
  obtain ⟨hexact, hlow, hhigh⟩ := integerWithin?_eq_some_iff.mp h
  obtain ⟨n, rfl⟩ := Int.eq_ofNat_of_zero_le (Int.le_trans (by decide) hlow)
  exact ⟨n, rfl, hexact, by omega, by omega⟩

theorem not_isYear_of_integerWithin?
    (h : integerWithin? 1950 2050 x = none) (n : Nat) :
    ¬ IsYear x n := by
  rintro ⟨hexact, hlow, hhigh⟩
  have hrange := not_within_of_integerWithin? h hexact
  omega

/-! ## Numbers that are found -/

theorem findNumberLiteral_settles
    (x : Float) (options : FindOptions) :
    (findNumberLiteral x options).Ends (.sentence f) (f.Settles (Decides (f.Names x))) :=
  findLiteral_settles "NUMBER" (.number x) options (decides_names f x options)

theorem findMagnitude_settles
    (hx : ¬ x < 0) (options : FindOptions) :
    (findMagnitude x options).Ends (.sentence f) (f.Settles (Decides (f.Justifies x))) := by
  have hnegative : x < 0 → ∀ words, ¬ f.Justifies (-x) words := fun h => absurd h hx
  unfold findMagnitude
  cases hwithin : integerWithin? 0 12 x with
  | some n =>
      obtain ⟨m, hshort, hnumber⟩ := isShort_of_integerWithin? hwithin
      rw [if_pos Option.isSome_some, hnumber]
      exact settles_pure (.short hshort)
  | none =>
      have hshort := not_isShort_of_integerWithin? hwithin
      rw [if_neg (by simp)]
      cases hyear : integerWithin? 1950 2050 x with
      | none =>
          have hnot := not_isYear_of_integerWithin? hyear
          refine settles_mono (findNumberLiteral_settles x options) ?_
          rintro (_ | words) hnames
          · exact not_justifies hshort hnames hnegative fun n h => absurd h (hnot n)
          · exact .named hnames
      | some year =>
          obtain ⟨n, rfl, hisYear⟩ := isYear_of_integerWithin? hyear
          -- Three forms are tried: the year, what names its last two digits, and these digits.
          refine settles_bind (findNumberLiteral_settles x options.ignoring) ?_
          rintro (_ | words) hnames
          case some => exact settles_pure (.named hnames)
          refine settles_bind (findNumberLiteral_settles (Float.ofNat (n % 100)) _) ?_
          rintro (_ | words) hshortNames
          case some => exact settles_pure (.namedYear hisYear hshortNames)
          dsimp only
          split
          next hsmall =>
              have hle : n % 100 ≤ 12 := by omega
              have hdigits : Decimal.number (Float.ofInt (n % 100)) = toString (n % 100) :=
                number_ofNat hle
              rw [hdigits]
              exact settles_pure (.shortYear hisYear hle)
          next hsmall =>
              refine settles_mono (findNumberLiteral_settles x options) ?_
              rintro (_ | words) hagain
              · refine not_justifies hshort hagain hnegative fun m hm => ?_
                obtain rfl := hm.eq hisYear
                exact ⟨by omega, hshortNames⟩
              · exact absurd hagain (hnames words)

theorem findNumber_settles
    (x : Float) (options : FindOptions) :
    (findNumber x options).Ends (.sentence f) (f.Settles (Decides (f.Justifies x))) := by
  unfold findNumber
  by_cases hx : x < 0
  · rw [if_pos hx]
    refine settles_bind (findMagnitude_settles (Decimal.not_neg_lt_zero hx) _) ?_
    rintro (_ | words) hsize
    case some => exact settles_pure (.negative hx hsize)
    refine settles_mono (findNumberLiteral_settles x options) ?_
    rintro (_ | words) hnames
    · refine not_justifies (not_isShort_of_lt_zero hx) hnames (fun _ => hsize) fun n hyear => ?_
      exact absurd hyear (not_isYear_of_lt_zero hx n)
    · exact .named hnames
  · rw [if_neg hx]
    exact findMagnitude_settles hx options

theorem find_replies
    (type : String) (v : Value) (options : FindOptions) :
    (find type v options).Ends (.sentence f) fun result finder =>
      finder = .sentence f ∧
        ∃ found, result = f.reply type v options found ∧ f.Finds options type v found := by
  unfold find
  cases v with
  | number x =>
      by_cases htype : type = "NUMBER"
      · subst htype
        refine reply_ends (settles_mono (findNumber_settles x options) ?_) _ _ _
        exact fun _ h => .number h
      · dsimp only
        rw [if_neg (by simpa using htype)]
        exact reply_ends (findLiteral_settles _ _ _ (.literal fun _ h => absurd h htype)) _ _ _
  | _ => exact reply_ends (findLiteral_settles _ _ _ (.literal nofun)) _ _ _

/-- A request for a number replies with words that justify it whenever there are any, and its
failure says that there are none. -/
theorem find_number_justifies
    (f : SentenceFinder) (x : Float) (options : FindOptions) (log : Array Event) :
    let run := (find "NUMBER" (.number x) options).runIn ⟨.sentence f, log⟩
    (∃ words, run.1 = .ok (some words) ∧ f.Justifies x words) ∨
      (∀ words, ¬ f.Justifies x words) ∧
        run.1 = if options.ignoreNotFound then .ok none
          else .error (.notFound "NUMBER" (Value.number x).source.text f.entities.describe) := by
  intro run
  obtain ⟨-, found, hresult, hfinds⟩ :=
    find_replies "NUMBER" (.number x) options ⟨.sentence f, log⟩ rfl
  cases hfinds with
  | literal hother => exact absurd rfl (hother x rfl)
  | number hfound =>
      cases found with
      | some words => exact .inl ⟨words, hresult, hfound⟩
      | none => exact .inr ⟨hfound, hresult⟩

end EntityFinder

end SkillLang

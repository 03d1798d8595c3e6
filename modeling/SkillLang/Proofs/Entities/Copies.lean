import SkillLang.Proofs.Entities.Numbers

/-!
# Copies from sentences

Words between quotation marks in an answer are those of a value that the sentence mentions.  They
stand in the sentence one after the other, though it may write them with other small or capital
letters.
-/

namespace SkillLang

/-- The words between the first two quotation marks. -/
def quotedSpan? (tokens : List String) : Option (List String) :=
  match tokens.dropWhile (· != "\"") with
  | [] => none
  | _ :: rest => if rest.contains "\"" then some (rest.takeWhile (· != "\"")) else none

theorem quotedSpan?_singleton
    (token : String) :
    quotedSpan? [token] = none := by
  by_cases hquote : token = "\""
  · subst hquote
    rfl
  · rw [quotedSpan?, List.dropWhile_cons_of_pos (by simpa using hquote)]
    rfl

theorem quotedSpan?_cons_of_ne
    {token : String} (h : token ≠ "\"") (tokens : List String) :
    quotedSpan? (token :: tokens) = quotedSpan? tokens := by
  rw [quotedSpan?, List.dropWhile_cons_of_pos (by simpa using h)]
  rfl

/-- The span ends at the first quotation mark, which may be one of the words. -/
theorem quotedSpan?_quotedWords
    (words rest : List String) :
    quotedSpan? (quotedWords words ++ rest) = some (words.takeWhile (· != "\"")) := by
  have hmarked : (words ++ "\"" :: rest).contains "\"" = true := by simp
  have htake : (words ++ "\"" :: rest).takeWhile (· != "\"") = words.takeWhile (· != "\"") := by
    induction words with
    | nil => rfl
    | cons word words ih =>
        rw [List.cons_append, List.takeWhile_cons, List.takeWhile_cons, ih (by simp)]
  have hquoted : quotedWords words ++ rest = "\"" :: (words ++ "\"" :: rest) := by
    simp [quotedWords]
  rw [hquoted, ← htake]
  exact if_pos hmarked

theorem Text.SameWords.eq_of_spelling
    {span window : List String} (hsame : Text.SameWords span window)
    (hspelling : ∀ word ∈ span, ∀ other ∈ window,
      Text.equalIgnoringCase word other = true → word = other) :
    span = window := by
  induction hsame with
  | nil => rfl
  | @cons word other span window hword _ ih =>
      have hrest := ih fun word hword other hother =>
        hspelling word (List.mem_cons_of_mem _ hword) other (List.mem_cons_of_mem _ hother)
      rw [hspelling word List.mem_cons_self other List.mem_cons_self hword, hrest]

namespace SentenceFinder

/-- The identifier of an entity in round brackets, if it is to be given. -/
def identifierWords (options : FindOptions) (value : Option String) : List String :=
  match options.includeValue, value with
  | true, some value => "(" :: (quotedWords [value] ++ [")"])
  | _, _ => []

/-- The ways in which a constant is told in the words of the sentence. -/
inductive Copies (f : SentenceFinder) (options : FindOptions) (type : String) :
    Value → List String → Prop
  | number
      (hmentions : f.mentions [Decimal.number x] = true) :
      Copies f options type (.number x) [Decimal.number x]
  | string
      (hkind : Entity.stringKind? type = some kind)
      (htext : Entity.textOf? v = some text)
      (hmentions : f.mentions (Text.words text) = true) :
      Copies f options type v
        (quotedWords (Text.words text) ++ if kind.isEmpty then [] else ["^^" ++ kind])
  | entity
      (hkind : genericKind? type = some kind)
      (hname : e.display = some name)
      (hmentions : f.mentions (Text.words name) = true) :
      Copies f options type (.entity e)
        (quotedWords (Text.words name) ++ ["^^" ++ kind] ++ identifierWords options e.value)

variable {f : SentenceFinder} {options : FindOptions} {type : String} {v : Value}
  {words : List String}

theorem copies_of_copyString?
    {kind : String} (hkind : Entity.stringKind? type = some kind)
    (h : f.copyString? kind v = some words) :
    f.Copies options type v words := by
  rw [copyString?] at h
  obtain ⟨text, htext, h⟩ := Option.bind_eq_some_iff.mp h
  dsimp only at h
  split at h
  next hmentions =>
      cases h
      exact .string hkind htext hmentions
  next => cases h

theorem copies_of_copyEntity?
    {kind : String} {e : EntityRef} (hkind : genericKind? type = some kind)
    (h : f.copyEntity? kind e options = some words) :
    f.Copies options type (.entity e) words := by
  rw [copyEntity?] at h
  obtain ⟨name, hname, h⟩ := Option.bind_eq_some_iff.mp h
  dsimp only at h
  split at h
  next hmentions =>
      cases h
      exact .entity hkind hname hmentions
  next => cases h

theorem copies_of_copy?
    (h : f.copy? type v options = some words) :
    f.Copies options type v words := by
  unfold copy? at h
  split at h
  next x =>
      dsimp only at h
      split at h
      next hmentions =>
          cases h
          exact .number hmentions
      next => cases h
  next =>
      split at h
      next kind hkind => exact copies_of_copyString? hkind h
      next =>
          split at h
          next hkind _ => exact copies_of_copyEntity? hkind h
          next => cases h

/-- A constant is copied from the sentence, or it is told by its placeholder. -/
theorem copies_or_placeholder
    (h : f.literal? type v options = some words) :
    f.Copies options type v words ∨
      ∃ key, Entity.placeholder? f.entities type f.now v = some key ∧ words = [key] := by
  rw [literal?] at h
  split at h
  next copied hcopied =>
      cases h
      exact .inl (copies_of_copy? hcopied)
  next =>
      split at h
      next => cases h
      next =>
          obtain ⟨key, hkey, rfl⟩ := Option.map_eq_some_iff.mp h
          exact .inr ⟨key, hkey, rfl⟩

/-! ## Spans -/

theorem Names.quotedSpan?_eq_none
    {x : Float} (h : f.Names x words) :
    quotedSpan? words = none := by
  cases h with
  | word _ => exact quotedSpan?_singleton _
  | placeholder _ _ _ => exact quotedSpan?_singleton _

theorem Justifies.quotedSpan?_eq_none
    {x : Float} (h : f.Justifies x words) :
    quotedSpan? words = none := by
  induction h with
  | short _ => exact quotedSpan?_singleton _
  | named hnames => exact hnames.quotedSpan?_eq_none
  | negative _ _ ih => rw [quotedSpan?_cons_of_ne (by decide), ih]
  | shortYear _ _ => exact quotedSpan?_singleton _
  | namedYear _ hnames => exact hnames.quotedSpan?_eq_none

/-- A part at the start of some words is mentioned with them. -/
theorem exists_window_of_mentions
    (h : f.mentions words = true) {span : List String} (hspan : span <+: words) :
    ∃ window, window <:+: f.sentence ∧ Text.SameWords span window := by
  obtain ⟨-, window, hwindow, hsame⟩ := mentions_iff.mp h
  rw [List.prefix_iff_eq_take.mp hspan]
  refine ⟨window.take span.length, ?_, List.forall₂_take span.length hsame⟩
  exact (List.take_prefix _ _).isInfix.trans hwindow

/-- The span of a copy stands at the start of words that the sentence mentions. -/
theorem Copies.exists_mentions
    (h : f.Copies options type v words) {span : List String}
    (hspan : quotedSpan? words = some span) :
    ∃ copied, f.mentions copied = true ∧ span <+: copied := by
  cases h with
  | number _ =>
      rw [quotedSpan?_singleton] at hspan
      cases hspan
  | string _ _ hmentions =>
      rw [quotedSpan?_quotedWords] at hspan
      cases hspan
      exact ⟨_, hmentions, List.takeWhile_prefix _⟩
  | entity _ _ hmentions =>
      rw [List.append_assoc, quotedSpan?_quotedWords] at hspan
      cases hspan
      exact ⟨_, hmentions, List.takeWhile_prefix _⟩

theorem Finds.exists_window
    (h : f.Finds options type v (some words)) {span : List String}
    (hspan : quotedSpan? words = some span) :
    ∃ window, window <:+: f.sentence ∧ Text.SameWords span window := by
  generalize hfound : some words = found at h
  cases h with
  | number hjustifies =>
      subst hfound
      rw [Justifies.quotedSpan?_eq_none hjustifies] at hspan
      cases hspan
  | literal _ =>
      rcases copies_or_placeholder hfound.symm with hcopies | ⟨key, -, rfl⟩
      · obtain ⟨copied, hmentions, hprefix⟩ := hcopies.exists_mentions hspan
        exact exists_window_of_mentions hmentions hprefix
      · rw [quotedSpan?_singleton] at hspan
        cases hspan

end SentenceFinder

namespace EntityFinder

open SentenceFinder

/-- A quoted span of an answer stands in the sentence apart from the case of letters, and as it is
if the sentence has the words of the span in no other spelling. -/
theorem find_copies_span
    {f : SentenceFinder} {type : String} {v : Value} {options : FindOptions} {log : Array Event}
    {words span : List String}
    (h : ((find type v options).runIn ⟨.sentence f, log⟩).1 = .ok (some words))
    (hspan : quotedSpan? words = some span) :
    (∃ window, window <:+: f.sentence ∧ Text.SameWords span window) ∧
      ((∀ word ∈ span, ∀ other ∈ f.sentence,
          Text.equalIgnoringCase word other = true → word = other) →
        span <:+: f.sentence) := by
  obtain ⟨-, found, hresult, hfinds⟩ := find_replies type v options ⟨.sentence f, log⟩ rfl
  rw [h] at hresult
  obtain rfl := eq_of_reply hresult
  obtain ⟨window, hwindow, hsame⟩ := hfinds.exists_window hspan
  refine ⟨⟨window, hwindow, hsame⟩, fun hspelling => ?_⟩
  have hspan := hsame.eq_of_spelling fun word hword other hother =>
    hspelling word hword other (hwindow.mem hother)
  rw [hspan]
  exact hwindow

/-! ### A tweet -/

namespace Tweet

def finder (sentence : String) : SentenceFinder :=
  .of sentence [] false ⟨0, 0, 0⟩

/-- The answer to a request for the name of the service. -/
def answer (sentence : String) : Except EntityError (Option (List String)) :=
  ((find "QUOTED_STRING" (.string "twitter") {}).runIn ⟨.sentence (finder sentence), #[]⟩).1

end Tweet

/-- The span has the letters of the value, not those of the sentence. -/
theorem tweet_not_copied :
    Tweet.answer "post on Twitter" = .ok (some ["\"", "twitter", "\""]) ∧
      quotedSpan? ["\"", "twitter", "\""] = some ["twitter"] ∧
      ¬ ["twitter"] <:+: (Tweet.finder "post on Twitter").sentence := by
  decide

theorem tweet_copied :
    Tweet.answer "post on twitter" = .ok (some ["\"", "twitter", "\""]) ∧
      quotedSpan? ["\"", "twitter", "\""] = some ["twitter"] ∧
      (∀ word ∈ ["twitter"], ∀ other ∈
        (Tweet.finder "post on twitter").sentence,
        Text.equalIgnoringCase word other = true → word = other) ∧
      ["twitter"] <:+: (Tweet.finder "post on twitter").sentence := by
  have hanswer : Tweet.answer "post on twitter" = .ok (some ["\"", "twitter", "\""]) := by decide
  have hspan : quotedSpan? ["\"", "twitter", "\""] = some ["twitter"] := by decide
  have hspelling : ∀ word ∈ ["twitter"], ∀ other ∈
        (Tweet.finder "post on twitter").sentence,
      Text.equalIgnoringCase word other = true → word = other := by decide
  exact ⟨hanswer, hspan, hspelling, (find_copies_span hanswer hspan).2 hspelling⟩

end EntityFinder

end SkillLang

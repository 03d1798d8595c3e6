import SkillLang.Proofs.Decimal.Words
import SkillLang.Proofs.Entities.Copies
import SkillLang.Proofs.Serialization.Failures

/-!
# Lists of words

Token streams are serialized to words.  There is one exception: an identifier that follows the
name of an entity is given as it is, so that it may have blanks or be empty.  Everything else is
split into words, or it is put together from parts without blanks.
-/

namespace SkillLang

open Text (AreWords HasNoBlank IsWord areWords_append areWords_cons areWords_singleton)

/-! ## Texts that are no words -/

namespace Text

/-- The texts are words, apart from those with a property, which are all among the texts unless
they are words. -/
def AreWordsBut (P : String → Prop) (texts : List String) : Prop :=
  ∀ text, ¬ IsWord text → (text ∈ texts ↔ P text)

variable {P Q : String → Prop} {texts others : List String}

theorem areWordsBut_of_words
    (htexts : AreWords texts) (hP : ∀ text, P text → IsWord text) :
    AreWordsBut P texts :=
  fun text hnot => iff_of_false (fun h => hnot (htexts text h)) fun h => hnot (hP text h)

theorem AreWordsBut.areWords_iff
    (h : AreWordsBut P texts) :
    AreWords texts ↔ ∀ text, P text → IsWord text := by
  constructor
  · intro hwords text hP
    by_contra hnot
    exact hnot (hwords text ((h text hnot).mpr hP))
  · intro hwords text hmem
    by_contra hnot
    exact hnot (hwords text ((h text hnot).mp hmem))

theorem AreWordsBut.congr
    (h : AreWordsBut P texts) (hPQ : ∀ text, P text ↔ Q text) :
    AreWordsBut Q texts :=
  fun text hnot => (h text hnot).trans (hPQ text)

theorem AreWordsBut.append
    (h : AreWordsBut P texts) (hothers : AreWordsBut Q others) :
    AreWordsBut (fun text => P text ∨ Q text) (texts ++ others) :=
  fun text hnot => List.mem_append.trans (or_congr (h text hnot) (hothers text hnot))

/-- Without any texts there are only words, and other words may stand in for them. -/
theorem AreWordsBut.of_nil
    (h : AreWordsBut P []) (htexts : AreWords texts) :
    AreWordsBut P texts :=
  areWordsBut_of_words htexts (h.areWords_iff.mp areWords_nil)

theorem AreWordsBut.getD
    {found : Option (List String)} (h : AreWordsBut P (found.getD []))
    (htexts : AreWords texts) :
    AreWordsBut P (found.getD texts) := by
  cases found with
  | none => exact h.of_nil htexts
  | some words => exact h

end Text

open Text (AreWordsBut)

theorem areWords_quotedWords
    (text : String) :
    AreWords (quotedWords (Text.words text)) := by
  have hmark : IsWord "\"" := by decide
  rw [quotedWords, areWords_cons, areWords_append, areWords_singleton]
  exact ⟨hmark, Text.areWords_words text, hmark⟩

/-! ## Placeholders -/

/-- No placeholder of the entities has a blank. -/
def HaveSolidKeys (entities : EntityMap) : Prop :=
  ∀ key ∈ entities.keys, HasNoBlank key

namespace Entity

theorem isWord_numbered
    {type : String} (htype : IsWord type) (n : Nat) :
    IsWord (numbered type n) := by
  have hunderscore : HasNoBlank "_" := by decide
  exact (htype.append hunderscore).append (Decimal.isWord_toString n).hasNoBlank

/-- A placeholder is not empty, since its type is not. -/
theorem isWord_of_mem
    {entities : EntityMap} (hkeys : HaveSolidKeys entities) {key : String}
    {e : Entity} (hmem : (key, e) ∈ entities) (htype : IsWord (typeOf key)) :
    IsWord key where
  ne_empty := by
    rintro rfl
    exact htype.ne_empty rfl
  hasNoBlank := hkeys key (List.mem_map_of_mem hmem)

theorem isWord_placeholder?
    {entities : EntityMap} (hkeys : HaveSolidKeys entities) {type key : String}
    (htype : IsWord type) {now : Moment} {v : Value}
    (hkey : placeholder? entities type now v = some key) :
    IsWord key := by
  obtain ⟨e, hmem, hanswers⟩ := exists_mem_of_placeholder? hkey
  obtain ⟨rfl, -⟩ := answers_iff.mp hanswers
  exact isWord_of_mem hkeys hmem htype

theorem isWord_stringKind?
    {type kind : String} (h : stringKind? type = some kind) :
    IsWord ("^^" ++ kind) := by
  unfold stringKind? at h
  split at h
  all_goals
    cases h
    try decide

end Entity

/-! ## Sentences -/

namespace EntityFinder

/-- The identifier of an entity is given behind its name, which the sentence mentions. -/
inductive SpellsOut (includeValue : Bool) : EntityFinder → String → Value → String → Prop
  | intro
      (hinclude : includeValue = true)
      (hkind : SentenceFinder.genericKind? type = some kind)
      (hname : e.display = some name)
      (hmentions : f.mentions (Text.words name) = true)
      (hvalue : e.value = some identifier) :
      SpellsOut includeValue (.sentence f) type (.entity e) identifier

end EntityFinder

open EntityFinder (SpellsOut)

namespace SentenceFinder

variable {f : SentenceFinder} {options : FindOptions} {type : String} {v : Value}
  {words : List String}

theorem genericKind?_eq
    {kind : String} (h : genericKind? type = some kind) :
    type = "GENERIC_ENTITY_" ++ kind := by
  rw [genericKind?] at h
  split at h
  next hprefix =>
      obtain ⟨rest, hrest⟩ := List.isPrefixOf_iff_prefix.mp hprefix
      rw [← hrest, List.drop_left] at h
      cases h
      rw [← String.toList_inj, ← hrest]
      simp
  next => cases h

theorem isWord_genericKind?
    {kind : String} (hkind : genericKind? type = some kind) (htype : IsWord type) :
    IsWord ("^^" ++ kind) := by
  have hmark : IsWord "^^" := by decide
  have hblank := htype.hasNoBlank
  rw [genericKind?_eq hkind, Text.hasNoBlank_append] at hblank
  exact hmark.append hblank.2

theorem Names.areWords
    {x : Float} (h : f.Names x words) (hkeys : HaveSolidKeys f.entities) :
    AreWords words := by
  cases h with
  | word _ => exact areWords_singleton.mpr (Decimal.isWord_number x)
  | placeholder hentity htype _ =>
      have hnumber : IsWord "NUMBER" := by decide
      exact areWords_singleton.mpr (Entity.isWord_of_mem hkeys hentity (htype ▸ hnumber))

theorem Justifies.areWords
    {x : Float} (h : f.Justifies x words) (hkeys : HaveSolidKeys f.entities) :
    AreWords words := by
  induction h with
  | short _ => exact areWords_singleton.mpr (Decimal.isWord_toString _)
  | named hnames => exact hnames.areWords hkeys
  | negative _ _ ih => exact areWords_cons.mpr ⟨by decide, ih⟩
  | shortYear _ _ => exact areWords_singleton.mpr (Decimal.isWord_toString _)
  | namedYear _ hnames => exact hnames.areWords hkeys

theorem isWord_or_eq_of_mem_identifierWords
    {value : Option String} {word : String} (h : word ∈ identifierWords options value) :
    IsWord word ∨ options.includeValue = true ∧ value = some word := by
  unfold identifierWords at h
  split at h
  next identifier hinclude =>
      simp only [quotedWords, List.cons_append, List.nil_append, List.mem_cons, List.not_mem_nil,
        or_false] at h
      rcases h with rfl | rfl | rfl | rfl | rfl
      case inr.inr.inl => exact .inr ⟨hinclude, rfl⟩
      all_goals exact .inl (by decide)
  next => cases h

theorem Copies.isWord_or_spellsOut
    (h : f.Copies options type v words) (htype : IsWord type) :
    ∀ word ∈ words, IsWord word ∨ SpellsOut options.includeValue (.sentence f) type v word := by
  intro word hword
  cases h with
  | number _ =>
      rw [List.mem_singleton.mp hword]
      exact .inl (Decimal.isWord_number _)
  | @string kind _ _ hkind _ _ =>
      have hend : AreWords (if kind.isEmpty then [] else ["^^" ++ kind]) := by
        split
        next => exact Text.areWords_nil
        next => exact areWords_singleton.mpr (Entity.isWord_stringKind? hkind)
      exact .inl (areWords_append.mpr ⟨areWords_quotedWords _, hend⟩ word hword)
  | @entity kind name e hkind hname hmentions =>
      have hstart : AreWords (quotedWords (Text.words name) ++ ["^^" ++ kind]) :=
        areWords_append.mpr
          ⟨areWords_quotedWords name, areWords_singleton.mpr (isWord_genericKind? hkind htype)⟩
      rcases List.mem_append.mp hword with hword | hword
      · exact .inl (hstart word hword)
      · rcases isWord_or_eq_of_mem_identifierWords hword with hisWord | ⟨hinclude, hvalue⟩
        · exact .inl hisWord
        · exact .inr (.intro hinclude hkind hname hmentions hvalue)

theorem mem_literal?_of_spellsOut
    {identifier : String}
    (h : SpellsOut options.includeValue (.sentence f) type v identifier) :
    ∃ words, f.literal? type v options = some words ∧ identifier ∈ words := by
  cases h with
  | @intro _ kind name _ _ e hinclude hkind hname hmentions hvalue =>
      have hstring : Entity.stringKind? type = none := by
        rw [genericKind?_eq hkind, Entity.stringKind?_generic]
      let copied := quotedWords (Text.words name) ++ ["^^" ++ kind] ++
        ["(", "\"", identifier, "\"", ")"]
      have hcopy : f.copyEntity? kind e options = some copied := by
        rw [copyEntity?, hname, hinclude, hvalue]
        exact if_pos hmentions
      refine ⟨copied, ?_, List.mem_append_right _ (by simp)⟩
      simp only [literal?, copy?, hstring, hkind, hcopy]

/-- Only identifiers that are spelled out need not be words. -/
theorem Finds.areWordsBut
    {found : Option (List String)} (h : f.Finds options type v found)
    (hkeys : HaveSolidKeys f.entities) (htype : IsWord type) :
    AreWordsBut (SpellsOut options.includeValue (.sentence f) type v) (found.getD []) := by
  cases h with
  | number hfound =>
      refine Text.areWordsBut_of_words ?_ nofun
      cases found with
      | none => exact Text.areWords_nil
      | some words => exact Justifies.areWords hfound hkeys
  | literal _ =>
      intro text hnot
      constructor
      · intro hmem
        cases hfound : f.literal? type v options with
        | none =>
            rw [hfound] at hmem
            cases hmem
        | some words =>
            rw [hfound, Option.getD_some] at hmem
            rcases copies_or_placeholder hfound with hcopies | ⟨key, hkey, rfl⟩
            · exact (hcopies.isWord_or_spellsOut htype text hmem).resolve_left hnot
            · rw [List.mem_singleton.mp hmem] at hnot
              exact absurd (Entity.isWord_placeholder? hkeys htype hkey) hnot
      · intro hspells
        obtain ⟨words, hwords, hmem⟩ := mem_literal?_of_spellsOut hspells
        rw [hwords]
        exact hmem

end SentenceFinder

/-! ## Allocators -/

namespace Allocator

variable {a a' : Allocator} {type : String} {v : Value}

theorem LooksUp.areWords
    {words : List String} (h : a.LooksUp type v (.ok (some words)) a')
    (hkeys : HaveSolidKeys a.entities) (htype : IsWord type) :
    AreWords words := by
  cases h with
  | explicit hwords =>
      unfold explicit? at hwords
      split at hwords
      next s =>
          split at hwords
          next =>
              cases hwords
              exact areWords_quotedWords s
          next => cases hwords
      next => cases hwords
  | known hkey => exact areWords_singleton.mpr (Entity.isWord_placeholder? hkeys htype hkey)
  | issued _ _ _ => exact areWords_singleton.mpr (Entity.isWord_numbered htype _)

theorem Finds.areWords
    {words : List String} (h : a.Finds type v (.ok (some words)) a')
    (hkeys : HaveSolidKeys a.entities) (htype : IsWord type) :
    AreWords words := by
  generalize hresult : Except.ok (some words) = result at h
  induction h generalizing words with
  | short _ =>
      cases hresult
      exact areWords_singleton.mpr (Decimal.isWord_toString _)
  | negative _ _ ih =>
      cases hresult
      exact areWords_cons.mpr ⟨by decide, ih htype rfl⟩
  | negativeRefused _ _ _ => cases hresult
  | lookup _ hlookup =>
      subst hresult
      exact hlookup.areWords hkeys htype

theorem Finds.haveSolidKeys
    {result : Except EntityError (Option (List String))} (h : a.Finds type v result a')
    (hkeys : HaveSolidKeys a.entities) (htype : IsWord type) :
    HaveSolidKeys a'.entities := by
  intro key hmem
  rcases h.eq_or_issued with rfl | ⟨entity, -, rfl⟩
  · exact hkeys key hmem
  · rcases mem_keys_issued.mp hmem with rfl | hmem
    · exact (Entity.isWord_numbered htype _).hasNoBlank
    · exact hkeys key hmem

end Allocator

/-! ## Tokens -/

/-- The unit of a measure, the code of an amount of money or the kind of an entity. -/
def Value.mark? : Value → Option String
  | .measure _ unit => some unit
  | .currency _ code => some code
  | .entity e => some e.kind
  | _ => none

theorem Constant.isWord_entityType
    {c : Constant} (hmark : ∀ mark ∈ c.value.mark?, HasNoBlank mark) :
    IsWord c.entityType := by
  have hmeasure : IsWord "MEASURE_" := by decide
  have hgeneric : IsWord "GENERIC_ENTITY_" := by decide
  unfold entityType
  split
  case h_3 =>
      split
      next hvalue => exact hmeasure.append (hmark _ (by rw [hvalue]; rfl))
      next => decide
  case h_15 =>
      split
      next hvalue => exact hgeneric.append (hmark _ (by rw [hvalue]; rfl))
      next => decide
  all_goals decide

namespace Serialization

open SkillLang.Action EntityFinder

/-- No placeholder of the finder has a blank, and it spells out what another finder does. -/
structure IsLike (start finder : EntityFinder) : Prop where
  haveSolidKeys : HaveSolidKeys finder.entities
  spellsOut_iff : ∀ includeValue type v identifier,
    finder.SpellsOut includeValue type v identifier ↔
      start.SpellsOut includeValue type v identifier

variable {start : EntityFinder}

theorem find_maintains
    (start : EntityFinder) {type : String} (htype : IsWord type) (v : Value)
    (options : FindOptions) :
    (find type v options).Maintains (IsLike start)
      fun found => AreWordsBut (start.SpellsOut options.includeValue type v) (found.getD []) := by
  refine Maintains.mapError ?_ _
  intro finder hfinder
  cases finder with
  | sentence f =>
      refine (find_replies type v options).mono ?_
      rintro result next ⟨rfl, found, hresult, hfinds⟩
      refine ⟨hfinder, fun given hgiven => ?_⟩
      rw [hgiven] at hresult
      obtain rfl := SentenceFinder.eq_of_reply hresult
      exact (hfinds.areWordsBut hfinder.haveSolidKeys htype).congr (hfinder.spellsOut_iff _ _ _)
  | allocator a =>
      refine (EntityFinder.find_ends type v options).mono ?_
      rintro result next ⟨a', rfl, hfinds⟩
      have hnext : IsLike start (.allocator a') := by
        refine ⟨hfinds.haveSolidKeys hfinder.haveSolidKeys htype, fun _ _ _ _ => ?_⟩
        rw [← hfinder.spellsOut_iff]
        exact ⟨nofun, nofun⟩
      refine ⟨hnext, ?_⟩
      rintro (_ | words) rfl
      · exact absurd hfinds not_finds_none
      · refine Text.areWordsBut_of_words (hfinds.areWords hfinder.haveSolidKeys htype) ?_
        intro identifier hspells
        cases (hfinder.spellsOut_iff _ _ _ _).mpr hspells

theorem numberWords_maintains
    (x : Float) (options : FindOptions) :
    (numberWords x options).Maintains (IsLike start) AreWords := by
  have hnumber : IsWord "NUMBER" := by decide
  refine (find_maintains start hnumber (.number x) options).bind fun found hfound => ?_
  have hwords := hfound.getD (areWords_singleton.mpr (Decimal.isWord_number x))
  exact maintains_pure (hwords.areWords_iff.mpr nofun)

/-- A number and its unit stand in for a measure of which there are no words. -/
theorem measureWords_maintains
    {P : String → Prop} (hP : AreWordsBut P []) (x : Float) {last : String} (hlast : IsWord last)
    (options : FindOptions) :
    (numberWords x options >>= fun words => pure (words ++ [last])).Maintains (IsLike start)
      (AreWordsBut P) := by
  refine (numberWords_maintains x options).bind fun words hwords => maintains_pure ?_
  exact hP.of_nil (areWords_append.mpr ⟨hwords, areWords_singleton.mpr hlast⟩)

theorem areWords_placeWords
    (name : String) :
    AreWords (placeWords name) := by
  rw [placeWords, areWords_append, areWords_append]
  exact ⟨⟨by decide, Text.areWords_words name⟩, by decide⟩

theorem areWords_timeWords
    (hour minute second : Nat) :
    AreWords (timeWords hour minute second) := by
  have hnumber (n : Nat) : IsWord (toString n) := Decimal.isWord_toString n
  rw [timeWords, areWords_append, areWords_append]
  refine ⟨⟨?start, ?seconds⟩, by decide⟩
  case start =>
    simp only [areWords_cons, hnumber, true_and]
    exact ⟨by decide, by decide, by decide, by decide, Text.areWords_nil⟩
  case seconds =>
    split
    next => exact Text.areWords_nil
    next => exact areWords_cons.mpr ⟨by decide, areWords_singleton.mpr (hnumber _)⟩

theorem constantWords_maintains
    {c : Constant} (hmark : ∀ mark ∈ c.value.mark?, HasNoBlank mark) (options : FindOptions) :
    (constantWords c options).Maintains (IsLike start)
      (AreWordsBut (start.SpellsOut options.includeValue c.entityType c.value)) := by
  have htype := Constant.isWord_entityType hmark
  have hunit : IsWord "unit:" := by decide
  have hcode : IsWord "unit:$" := by decide
  have hfind := find_maintains start htype c.value options
  have hignoring := find_maintains start htype c.value options.ignoring
  unfold constantWords
  split
  next x unit hvalue =>
      refine hignoring.bind ?_
      rintro (_ | words) hfound
      · have hlast := hunit.append (hmark unit (by rw [hvalue]; rfl))
        exact measureWords_maintains hfound x hlast options
      · exact maintains_pure hfound
  next x code hvalue =>
      refine hignoring.bind ?_
      rintro (_ | words) hfound
      · have hlast := hcode.append (hmark code (by rw [hvalue]; rfl))
        exact measureWords_maintains hfound x hlast options
      · exact maintains_pure hfound
  next name _ =>
      exact hignoring.bind fun _ h => maintains_pure (h.getD (areWords_placeWords name))
  next hour minute second _ =>
      exact hignoring.bind fun _ h =>
        maintains_pure (h.getD (areWords_timeWords hour minute second))
  next =>
      exact hfind.bind fun _ h => maintains_pure (h.getD (Text.areWords_words _))

/-- The identifiers that a finder spells out for the constants among some tokens. -/
def SpelledOut (start : EntityFinder) (includeValue : Bool) (tokens : List Token)
    (identifier : String) : Prop :=
  ∃ c, .constant c ∈ tokens ∧ start.SpellsOut includeValue c.entityType c.value identifier

/-- The units, codes and kinds that some tokens have are free of blanks. -/
def HaveSolidMarks (tokens : List Token) : Prop :=
  ∀ c, .constant c ∈ tokens → ∀ mark ∈ c.value.mark?, HasNoBlank mark

theorem tokenWords_maintains
    {t : Token} (ht : HaveSolidMarks [t]) (options : FindOptions) :
    (tokenWords t options).Maintains (IsLike start)
      (AreWordsBut (SpelledOut start options.includeValue [t])) := by
  have hnone (hconstant : ∀ c, t ≠ .constant c) (identifier : String) :
      ¬ SpelledOut start options.includeValue [t] identifier := by
    rintro ⟨c, hc, -⟩
    exact hconstant c (List.mem_singleton.mp hc).symm
  cases t with
  | layout _ =>
      refine maintains_pure (Text.areWordsBut_of_words Text.areWords_nil ?_)
      exact fun _ h => absurd h (hnone nofun _)
  | literal text =>
      refine maintains_pure (Text.areWordsBut_of_words (Text.areWords_words text) ?_)
      exact fun _ h => absurd h (hnone nofun _)
  | constant c =>
      refine (constantWords_maintains (ht c List.mem_cons_self) options).mono fun words hwords => ?_
      refine hwords.congr fun identifier => ⟨fun h => ⟨c, List.mem_cons_self, h⟩, ?_⟩
      rintro ⟨_, hc, h⟩
      cases List.mem_singleton.mp hc
      exact h

theorem addWords_maintains
    {tokens : List Token} (htokens : HaveSolidMarks tokens) (options : FindOptions)
    (before : Array String) :
    (addWords options tokens before).Maintains (IsLike start) fun words =>
      ∃ new, words.toList = before.toList ++ new ∧
        AreWordsBut (SpelledOut start options.includeValue tokens) new := by
  induction tokens generalizing before with
  | nil =>
      refine maintains_pure ⟨[], by simp, Text.areWordsBut_of_words Text.areWords_nil ?_⟩
      rintro _ ⟨_, hc, -⟩
      cases hc
  | cons t tokens ih =>
      have ht : HaveSolidMarks [t] := fun c hc =>
        htokens c (List.mem_cons.mpr (.inl (List.mem_singleton.mp hc)))
      have hrest : HaveSolidMarks tokens := fun c hc => htokens c (List.mem_cons_of_mem _ hc)
      rw [addWords]
      refine (tokenWords_maintains ht options).bind fun first hfirst => ?_
      dsimp only
      split
      next =>
          exact maintains_record_bind ((maintains_throw _).bind fun _ h => False.elim h)
      next =>
          refine (ih hrest _).mono ?_
          rintro words ⟨new, hnew, hwords⟩
          refine ⟨first ++ new, by simp [hnew], (hfirst.append hwords).congr fun identifier => ?_⟩
          simp only [SpelledOut, List.mem_cons, List.not_mem_nil, or_false, or_and_right, exists_or]

end Serialization

open Serialization

/-- What a token stream is serialized to is a list of words, which comes apart again after it has
been joined by blanks, if and only if the identifiers that are spelled out in it are words. -/
theorem TokenStream.words_areWords_iff
    {stream : TokenStream} {finder : EntityFinder} {includeValue : Bool} {log : Array Event}
    {out : Array String} (hmarks : HaveSolidMarks stream.toList)
    (hkeys : HaveSolidKeys finder.entities)
    (h : ((stream.words includeValue).runIn ⟨finder, log⟩).1 = .ok out) :
    (AreWords out.toList ↔
        ∀ identifier, SpelledOut finder includeValue stream.toList identifier →
          IsWord identifier) ∧
      (Text.words (" ".intercalate out.toList) = out.toList ↔
        ∀ identifier, SpelledOut finder includeValue stream.toList identifier →
          IsWord identifier) := by
  have hrun : (stream.words includeValue).Maintains (IsLike finder) fun words =>
      AreWordsBut (SpelledOut finder includeValue stream.toList) words.toList := by
    unfold TokenStream.words
    refine Action.maintains_record_bind ((addWords_maintains hmarks _ #[]).bind ?_)
    rintro words ⟨new, hnew, hwords⟩
    refine Action.maintains_record_bind (Action.maintains_pure ?_)
    rw [hnew]
    exact hwords
  have hlike : IsLike finder finder := ⟨hkeys, fun _ _ _ _ => Iff.rfl⟩
  have hwords := (hrun finder hlike ⟨finder, log⟩ rfl).2 out h
  rw [Text.words_intercalate_iff]
  exact ⟨hwords.areWords_iff, hwords.areWords_iff⟩

/-! ### An account -/

namespace Account

/-- An account with a service that is asked for by name. -/
def stream (identifier : String) : TokenStream :=
  Value.constant .genericEntity (.entity ⟨some identifier, "tt:account", some "Twitter"⟩)

def finder : EntityFinder :=
  .sentence (.of "post on twitter" [] false ⟨0, 0, 0⟩)

def written (identifier : String) : Except SerializeError (Array String) :=
  (((stream identifier).words true).runIn ⟨finder, #[]⟩).1

theorem haveSolidMarks
    (identifier : String) :
    HaveSolidMarks (stream identifier).toList := by
  intro c hc mark hmark
  cases List.mem_singleton.mp hc
  cases hmark
  have hkind : HasNoBlank "tt:account" := by decide
  exact hkind

theorem haveSolidKeys :
    HaveSolidKeys finder.entities :=
  nofun

end Account

/-- The name of the service is split into words, the identifier of the account is not. -/
theorem account_not_words :
    HaveSolidMarks (Account.stream "my account").toList ∧
      HaveSolidKeys Account.finder.entities ∧
      Account.written "my account" =
        .ok #["\"", "Twitter", "\"", "^^tt:account", "(", "\"", "my account", "\"", ")"] ∧
      ¬ IsWord "my account" :=
  ⟨Account.haveSolidMarks _, Account.haveSolidKeys, rfl, by decide⟩

theorem account_words :
    let out := #["\"", "Twitter", "\"", "^^tt:account", "(", "\"", "my-account", "\"", ")"]
    HaveSolidMarks (Account.stream "my-account").toList ∧
      HaveSolidKeys Account.finder.entities ∧
      Account.written "my-account" = .ok out ∧
      Text.words (" ".intercalate out.toList) = out.toList := by
  intro out
  have hmarks := Account.haveSolidMarks "my-account"
  have hrun : Account.written "my-account" = .ok out := rfl
  refine ⟨hmarks, Account.haveSolidKeys, hrun, ?_⟩
  refine (TokenStream.words_areWords_iff hmarks Account.haveSolidKeys hrun).2.mpr ?_
  rintro identifier ⟨_, hc, hspells⟩
  cases List.mem_singleton.mp hc
  cases hspells with
  | intro _ _ _ _ hvalue =>
      cases hvalue
      decide

end SkillLang

import SkillLang.Proofs.Entities.Allocation
import SkillLang.Serialization.Words

/-!
# Segments

The words of a stream are one segment after the other, one for every token that is not a
layout mark.  The segment of a constant names its value, also by the entities that there
are in the end: entities that are added for later constants do not touch it.
-/

namespace SkillLang

open Allocator

/-- Words name a value of a type: they are a placeholder of that type whose entity stands for
the value or is made from it, apart from numbers that are short or negative. -/
inductive Named (entities : EntityMap) (now : Moment) : String → Value → List String → Prop
  | short
      (hshort : IsShort x n) :
      Named entities now "NUMBER" (.number x) [toString n]
  | negative
      (hx : x < 0)
      (hsize : Named entities now "NUMBER" (.number (-x)) words) :
      Named entities now "NUMBER" (.number x) ("-" :: words)
  | placeholder
      (hnumber : ∀ x, type = "NUMBER" → v = .number x → (∀ n, ¬ IsShort x n) ∧ ¬ x < 0)
      (hentity : Keyed.find? key entities = some e)
      (htype : Entity.typeOf key = type)
      (hvalue : e.denotes type now v = true ∨ Entity.ofValue? type now v = some e) :
      Named entities now type v [key]

/-- Words are the segment of a token. -/
def Token.Segment (entities : EntityMap) (now : Moment) : Token → List String → Prop
  | .literal text, words => words = Text.words text
  | .layout _, _ => False
  | .constant c, words => Named entities now c.entityType c.value words

/-- Every entity is still there under its placeholder. -/
def Keeps (entities later : EntityMap) : Prop :=
  ∀ key e, Keyed.find? key entities = some e → Keyed.find? key later = some e

theorem Keeps.refl (entities : EntityMap) : Keeps entities entities :=
  fun _ _ h => h

theorem Keeps.trans
    {entities later last : EntityMap} (h : Keeps entities later) (hlast : Keeps later last) :
    Keeps entities last :=
  fun key e hentity => hlast key e (h key e hentity)

theorem Named.mono
    {entities later : EntityMap} (hkeeps : Keeps entities later) {now : Moment} {type : String}
    {v : Value} {words : List String} (h : Named entities now type v words) :
    Named later now type v words := by
  induction h with
  | short hshort => exact .short hshort
  | negative hx _ ih => exact .negative hx ih
  | placeholder hnumber hentity htype hvalue =>
      exact .placeholder hnumber (hkeeps _ _ hentity) htype hvalue

theorem Token.Segment.mono
    {entities later : EntityMap} (hkeeps : Keeps entities later) {now : Moment} {token : Token}
    {words : List String} (h : token.Segment entities now words) :
    token.Segment later now words := by
  cases token with
  | literal _ => exact h
  | layout _ => exact h
  | constant c => exact Named.mono hkeeps h

namespace Allocator

/-- The allocator goes on with a proper map, at the moment, and writes no string out. -/
structure IsServing (now : Moment) (a : Allocator) : Prop where
  isAhead : a.IsAhead
  nodup : a.entities.keys.Nodup
  now_eq : a.now = now
  explicitStrings_eq : a.explicitStrings = false

variable {now : Moment} {a a' : Allocator} {type : String} {v : Value}

theorem IsServing.of
    {entities : EntityMap} (hkeys : entities.keys.Nodup) :
    IsServing now (.of entities false now) where
  isAhead := isAhead_of entities false now
  nodup := hkeys
  now_eq := rfl
  explicitStrings_eq := rfl

theorem IsServing.issued
    (h : IsServing now a) (entity : Entity)
    (hlimit : a.offset type < Limits.maxEntitiesPerType) :
    IsServing now (a.issued type entity) where
  isAhead := h.isAhead.issued type entity
  nodup := Keyed.nodup_keys_insert (h.isAhead.not_mem_keys hlimit) h.nodup
  now_eq := h.now_eq
  explicitStrings_eq := h.explicitStrings_eq

theorem IsServing.finds
    (h : IsServing now a) {result : Except EntityError (Option (List String))}
    (hfinds : a.Finds type v result a') :
    IsServing now a' ∧ Keeps a.entities a'.entities := by
  rcases hfinds.eq_or_issued with rfl | ⟨entity, hlimit, rfl⟩
  · exact ⟨h, .refl _⟩
  · exact ⟨h.issued entity hlimit, fun key e => h.isAhead.find?_issued hlimit⟩

theorem IsServing.explicit?_eq_none
    (h : IsServing now a) (type : String) (v : Value) :
    a.explicit? type v = none := by
  unfold explicit?
  rw [h.explicitStrings_eq]
  cases v <;> rfl

theorem IsServing.find?_of_placeholder?
    (h : IsServing now a) {key : String}
    (hkey : Entity.placeholder? a.entities type a.now v = some key) :
    ∃ e, Keyed.find? key a.entities = some e ∧ Entity.typeOf key = type ∧
      e.denotes type now v = true := by
  rw [Entity.placeholder?, Option.map_eq_some_iff] at hkey
  obtain ⟨⟨key, e⟩, hfound, rfl⟩ := hkey
  have hholds := List.find?_some hfound
  rw [Bool.and_eq_true, beq_iff_eq, h.now_eq] at hholds
  exact ⟨e, Keyed.find?_of_mem h.nodup (List.mem_of_find?_eq_some hfound), hholds⟩

/-- What a call comes back with names the value by the entities that there are after it. -/
theorem IsServing.named
    (h : IsServing now a) {words : List String}
    (hfinds : a.Finds type v (.ok (some words)) a') :
    Named a'.entities now type v words := by
  generalize hresult : Except.ok (some words) = result at hfinds
  -- A negative number is named if its negation is, which is found in the same call.
  induction hfinds generalizing words with
  | short hshort =>
      cases hresult
      exact .short hshort
  | negative hx _ ih =>
      cases hresult
      exact .negative hx (ih rfl)
  | negativeRefused _ _ _ => cases hresult
  | lookup hnumber hlookup =>
      cases hlookup with
      | explicit hwords =>
          rw [h.explicit?_eq_none] at hwords
          cases hwords
      | known hkey =>
          cases hresult
          obtain ⟨e, hentity, htype, hdenotes⟩ := h.find?_of_placeholder? hkey
          exact .placeholder hnumber hentity htype (.inl hdenotes)
      | issued hentity hlimit =>
          cases hresult
          rw [h.now_eq] at hentity
          exact .placeholder hnumber (Keyed.find?_insert_self _ _ _)
            (Entity.typeOf_numbered _ _) (.inr hentity)
      | refused _ => cases hresult

end Allocator

namespace Serialization

open SkillLang.Action EntityFinder

variable {now : Moment} {a : Allocator}

/-- An allocator is left that serves on and keeps the entities, and what is written has a
property that refers to its entities. -/
def Writes {α : Type} (now : Moment) (entities : EntityMap) (P : EntityMap → α → Prop)
    (result : Except SerializeError α) (finder : EntityFinder) : Prop :=
  ∃ a, finder = .allocator a ∧ a.IsServing now ∧ Keeps entities a.entities ∧
    ∀ out, result = .ok out → P a.entities out

variable {α β : Type} {P : EntityMap → α → Prop} {Q : EntityMap → β → Prop}

theorem writes_pure
    (ha : a.IsServing now) {out : α} (h : P a.entities out) :
    (pure out : Serialize α).Ends (.allocator a) (Writes now a.entities P) := by
  refine ends_pure ⟨a, rfl, ha, .refl _, ?_⟩
  intro other heq
  cases heq
  exact h

theorem writes_throw
    (ha : a.IsServing now) (e : SerializeError) :
    (throw e : Serialize α).Ends (.allocator a) (Writes now a.entities P) := by
  refine ends_throw ⟨a, rfl, ha, .refl _, ?_⟩
  intro other heq
  cases heq

/-- What is written second may refer to all entities that there are by then. -/
theorem writes_bind
    {first : Serialize α} {f : α → Serialize β}
    (hfirst : first.Ends (.allocator a) (Writes now a.entities P))
    (hsecond : ∀ out a', a'.IsServing now → Keeps a.entities a'.entities → P a'.entities out →
      (f out).Ends (.allocator a') (Writes now a'.entities Q)) :
    (first >>= f).Ends (.allocator a) (Writes now a.entities Q) := by
  refine hfirst.bind ?_ ?_
  · rintro out finder ⟨a', rfl, hserving, hkeeps, hout⟩
    refine (hsecond out a' hserving hkeeps (hout out rfl)).mono ?_
    rintro result finder ⟨last, rfl, hlast, hmore, hresult⟩
    exact ⟨last, rfl, hlast, hkeeps.trans hmore, hresult⟩
  · rintro e finder ⟨a', rfl, hserving, hkeeps, -⟩
    refine ⟨a', rfl, hserving, hkeeps, ?_⟩
    intro out heq
    cases heq

theorem find_ends
    (ha : a.IsServing now) (type : String) (v : Value) (options : FindOptions) :
    (find type v options).Ends (.allocator a)
      (Writes now a.entities fun entities found =>
        ∃ words, found = some words ∧ Named entities now type v words) := by
  refine Ends.mapError (EntityFinder.find_ends type v options) ?_
  rintro result finder ⟨a', rfl, hfinds⟩
  obtain ⟨hserving, hkeeps⟩ := ha.finds hfinds
  refine ⟨a', rfl, hserving, hkeeps, ?_⟩
  intro found hfound
  cases result with
  | error e => cases hfound
  | ok _ =>
      cases hfound
      cases found with
      | none => exact absurd hfinds not_finds_none
      | some words => exact ⟨words, rfl, ha.named hfinds⟩

theorem find_bind_ends
    (ha : a.IsServing now) (type : String) (v : Value) (options : FindOptions)
    {f : Option (List String) → Serialize (List String)}
    (hf : ∀ words, f (some words) = pure words) :
    (find type v options >>= f).Ends (.allocator a)
      (Writes now a.entities fun entities words => Named entities now type v words) := by
  apply writes_bind (find_ends ha type v options)
  -- An allocator always finds words, so `f` is never asked what to write without them.
  rintro found a' hserving - ⟨words, rfl, hnamed⟩
  rw [hf]
  exact writes_pure hserving hnamed

theorem constantWords_ends
    (ha : a.IsServing now) (c : Constant) (options : FindOptions) :
    (constantWords c options).Ends (.allocator a)
      (Writes now a.entities fun entities words =>
        Named entities now c.entityType c.value words) := by
  obtain ⟨kind, v⟩ := c
  unfold constantWords
  dsimp only
  split
  all_goals exact find_bind_ends ha _ _ _ fun _ => rfl

/-- The words of some tokens are their segments one after the other. -/
def AreSegments (now : Moment) (tokens : List Token) (entities : EntityMap)
    (words : List String) : Prop :=
  ∃ segments, words = segments.flatten ∧
    List.Forall₂ (fun token => token.Segment entities now)
      (tokens.filter fun token => !token.isLayout) segments

theorem AreSegments.nil (entities : EntityMap) : AreSegments now [] entities [] :=
  ⟨[], rfl, .nil⟩

theorem AreSegments.append
    {tokens others : List Token} {entities : EntityMap} {words more : List String}
    (h : AreSegments now tokens entities words) (hmore : AreSegments now others entities more) :
    AreSegments now (tokens ++ others) entities (words ++ more) := by
  obtain ⟨segments, rfl, hsegments⟩ := h
  obtain ⟨others, rfl, hothers⟩ := hmore
  refine ⟨segments ++ others, List.flatten_append.symm, ?_⟩
  rw [List.filter_append]
  exact List.rel_append hsegments hothers

theorem AreSegments.mono
    {tokens : List Token} {entities later : EntityMap} (hkeeps : Keeps entities later)
    {words : List String} (h : AreSegments now tokens entities words) :
    AreSegments now tokens later words := by
  obtain ⟨segments, rfl, hsegments⟩ := h
  exact ⟨segments, rfl, hsegments.imp fun _ _ => Token.Segment.mono hkeeps⟩

theorem tokenWords_ends
    (ha : a.IsServing now) (token : Token) (options : FindOptions) :
    (tokenWords token options).Ends (.allocator a)
      (Writes now a.entities (AreSegments now [token])) := by
  cases token with
  | literal text => exact writes_pure ha ⟨[Text.words text], by simp, .cons rfl .nil⟩
  | layout l => exact writes_pure ha ⟨[], rfl, .nil⟩
  | constant c =>
      refine (constantWords_ends ha c options).mono ?_
      rintro result finder ⟨a', rfl, hserving, hkeeps, hnamed⟩
      refine ⟨a', rfl, hserving, hkeeps, ?_⟩
      intro words heq
      exact ⟨[words], by simp, .cons (hnamed words heq) .nil⟩

theorem addWords_ends
    (ha : a.IsServing now) {before : List Token} {words : Array String}
    (hwords : AreSegments now before a.entities words.toList) (tokens : List Token)
    (options : FindOptions) :
    (addWords options tokens words).Ends (.allocator a)
      (Writes now a.entities fun entities out =>
        AreSegments now (before ++ tokens) entities out.toList) := by
  -- The words so far are segments by the entities so far, and stay so when entities are added.
  induction tokens generalizing a before words with
  | nil =>
      rw [List.append_nil]
      exact writes_pure ha hwords
  | cons token tokens ih =>
      rw [addWords]
      apply writes_bind (tokenWords_ends ha token options)
      intro new a' hserving hkeeps hnew
      dsimp only
      split
      next =>
          apply ends_record_bind
          exact writes_bind (writes_throw (P := fun _ _ => False) hserving _)
            fun _ _ _ _ h => h.elim
      next =>
          rw [List.append_cons]
          apply ih hserving
          rw [Array.toList_appendList]
          exact (hwords.mono hkeeps).append hnew

theorem words_ends
    (ha : a.IsServing now) (stream : TokenStream) (includeValue : Bool) :
    (stream.words includeValue).Ends (.allocator a)
      (Writes now a.entities fun entities out =>
        AreSegments now stream.toList entities out.toList) := by
  unfold TokenStream.words
  apply ends_record_bind
  apply writes_bind (addWords_ends ha (.nil _) stream.toList _)
  intro out a' hserving hkeeps hout
  apply ends_record_bind
  exact writes_pure hserving hout

end Serialization

open EntityFinder Serialization

/-- The words of a stream and the entities that there are in the end tell every constant of the
stream, whatever calls there were before. -/
theorem TokenStream.words_eq_segments
    {entities : EntityMap} (hkeys : entities.keys.Nodup) {now : Moment} {log : Array Event}
    {calls : List FindCall} {stream : TokenStream} {includeValue : Bool} {out : Array String}
    {final : Session EntityFinder}
    (h : (stream.words includeValue).runIn
      (afterCalls (allocating entities false now log) calls) = (.ok out, final)) :
    ∃ segments, out.toList = segments.flatten ∧
      List.Forall₂ (fun token => token.Segment final.state.entities now)
        (stream.toList.filter fun token => !token.isLayout) segments := by
  obtain ⟨a, hstate, ha⟩ :=
    afterCalls_induction (s := allocating entities false now log)
      (fun _ _ entity h hlimit => h.issued entity hlimit) rfl (IsServing.of hkeys) calls
  obtain ⟨a', hfinal, -, -, hout⟩ := words_ends ha stream includeValue _ hstate
  rw [h] at hfinal hout
  have hentities : final.state.entities = a'.entities := congrArg EntityFinder.entities hfinal
  rw [hentities]
  exact hout out rfl

/-- A list of what to buy and how much of it. -/
def EntityFinder.Shopping.stream : TokenStream :=
  .concat
    [.token (.literal "buy now"), .token (.layout .newline),
      .token (.constant ⟨.quotedString, .string "milk"⟩),
      .token (.constant ⟨.number, .number (-5)⟩),
      .token (.constant ⟨.quotedString, .string "bread"⟩),
      .token (.constant ⟨.number, .number 40⟩)]

theorem shopping_words_eq_segments :
    Shopping.entities.keys.Nodup ∧
      ∃ final,
        (Shopping.stream.words false).runIn
            (afterCalls (allocating Shopping.entities false Shopping.now #[])
              [Shopping.call "bread"]) =
          (.ok #["buy", "now", "QUOTED_STRING_3", "-", "5", "QUOTED_STRING_4", "NUMBER_0"],
            final) ∧
          ∃ segments,
            ["buy", "now", "QUOTED_STRING_3", "-", "5", "QUOTED_STRING_4", "NUMBER_0"] =
              segments.flatten ∧
            List.Forall₂ (fun token => token.Segment final.state.entities Shopping.now)
              (Shopping.stream.toList.filter fun token => !token.isLayout) segments := by
  have hkeys : Shopping.entities.keys.Nodup := by decide
  obtain ⟨final, hrun⟩ : ∃ final,
      (Shopping.stream.words false).runIn
          (afterCalls (allocating Shopping.entities false Shopping.now #[])
            [Shopping.call "bread"]) =
        (.ok #["buy", "now", "QUOTED_STRING_3", "-", "5", "QUOTED_STRING_4", "NUMBER_0"], final) :=
    ⟨_, Prod.ext (by decide +kernel) rfl⟩
  exact ⟨hkeys, final, hrun, TokenStream.words_eq_segments hkeys hrun⟩

end SkillLang

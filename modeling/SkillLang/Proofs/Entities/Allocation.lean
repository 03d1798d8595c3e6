import SkillLang.Proofs.ActionStates
import SkillLang.Proofs.Decimal.Sign
import SkillLang.Proofs.Entities.Placeholders
import SkillLang.Proofs.Insertion

/-!
# Allocation

An allocator counts the placeholders of every type.  Its counters are ahead of all numbers
that are in use, so a placeholder that it gives out is new and replaces nothing.  A call
gives out one placeholder at most, and none if it fails.
-/

namespace SkillLang

namespace Allocator

/-! ## Counters -/

/-- The counter of every type is ahead of the numbers that its placeholders have. -/
def IsAhead (a : Allocator) : Prop :=
  ∀ type n, Entity.numbered type n ∈ a.entities.keys → n + 1 < Nat.pow 2 64 → n < a.offset type

/-- The counters after one more placeholder that is in use. -/
def counting (offsets : Keyed Nat) (placeholder : String) : Keyed Nat :=
  Keyed.insert (Entity.typeOf placeholder)
    (max ((Keyed.find? (Entity.typeOf placeholder) offsets).getD 0) (numberAfter placeholder))
    offsets

theorem offset_le_counting
    (type : String) (offsets : Keyed Nat) (placeholder : String) :
    (Keyed.find? type offsets).getD 0 ≤
      (Keyed.find? type (counting offsets placeholder)).getD 0 := by
  unfold counting
  by_cases htype : type = Entity.typeOf placeholder
  · rw [← htype, Keyed.find?_insert_self]
    exact le_max_left _ _
  · rw [Keyed.find?_insert_of_ne htype]

theorem numberAfter_le_counting
    (offsets : Keyed Nat) (placeholder : String) :
    numberAfter placeholder ≤
      (Keyed.find? (Entity.typeOf placeholder) (counting offsets placeholder)).getD 0 := by
  unfold counting
  rw [Keyed.find?_insert_self]
  exact le_max_right _ _

theorem offset_le_foldl
    (type : String) (placeholders : List String) (offsets : Keyed Nat) :
    (Keyed.find? type offsets).getD 0 ≤
      (Keyed.find? type (placeholders.foldl counting offsets)).getD 0 := by
  induction placeholders generalizing offsets with
  | nil => exact le_rfl
  | cons placeholder placeholders ih =>
      exact (offset_le_counting type offsets placeholder).trans (ih _)

theorem numberAfter_le_foldl
    {placeholder : String} {placeholders : List String} (h : placeholder ∈ placeholders)
    (offsets : Keyed Nat) :
    numberAfter placeholder ≤
      (Keyed.find? (Entity.typeOf placeholder) (placeholders.foldl counting offsets)).getD 0 := by
  induction placeholders generalizing offsets with
  | nil => cases h
  | cons other placeholders ih =>
      rcases List.mem_cons.mp h with rfl | hrest
      · exact (numberAfter_le_counting offsets placeholder).trans (offset_le_foldl _ _ _)
      · exact ih hrest _

theorem isAhead_of
    (entities : EntityMap) (explicitStrings : Bool) (now : Moment) :
    (Allocator.of entities explicitStrings now).IsAhead := by
  intro type n hmem hn
  have hle := numberAfter_le_foldl hmem []
  have hafter : numberAfter (Entity.numbered type n) = n + 1 :=
    numberAfter_of_suffix? (Entity.suffix?_numbered type n) hn
  rw [hafter, Entity.typeOf_numbered] at hle
  exact hle

/-! ## New placeholders -/

/-- The allocator after it has given an entity the next placeholder of a type. -/
def issued (a : Allocator) (type : String) (entity : Entity) : Allocator :=
  { a with
    offsets := Keyed.insert type (a.offset type + 1) a.offsets
    entities := Keyed.insert (Entity.numbered type (a.offset type)) entity a.entities }

theorem allocate_eq_ok
    {a a' : Allocator} {type key : String} {v : Value}
    (h : a.allocate type v = .ok (key, a')) :
    ∃ entity, Entity.ofValue? type a.now v = some entity ∧
      a.offset type < Limits.maxEntitiesPerType ∧
        key = Entity.numbered type (a.offset type) ∧ a' = a.issued type entity := by
  rw [allocate] at h
  cases hentity : Entity.ofValue? type a.now v with
  | none =>
      rw [hentity] at h
      cases h
  | some entity =>
      rw [hentity] at h
      dsimp only at h
      split at h
      next => cases h
      next hlimit =>
          cases h
          exact ⟨entity, rfl, Nat.lt_of_not_le hlimit, rfl, rfl⟩

/-- A value is refused if it has no entity or if there are too many entities of its type. -/
theorem allocate_eq_error
    {a : Allocator} {type : String} {v : Value} {e : EntityError}
    (h : a.allocate type v = .error e) :
    (Entity.ofValue? type a.now v = none ∧ e = .invalidValue type v.source.text) ∨
      (Limits.maxEntitiesPerType ≤ a.offset type ∧ e = .limitExceeded type) := by
  rw [allocate] at h
  cases hentity : Entity.ofValue? type a.now v with
  | none =>
      rw [hentity] at h
      cases h
      exact .inl ⟨rfl, rfl⟩
  | some entity =>
      rw [hentity] at h
      dsimp only at h
      split at h
      next hlimit =>
          cases h
          exact .inr ⟨hlimit, rfl⟩
      next => cases h

theorem offset_issued_self
    (a : Allocator) (type : String) (entity : Entity) :
    (a.issued type entity).offset type = a.offset type + 1 := by
  simp only [offset, issued]
  rw [Keyed.find?_insert_self, Option.getD_some]

theorem offset_issued_of_ne
    {type other : String} (hne : other ≠ type) (a : Allocator) (entity : Entity) :
    (a.issued type entity).offset other = a.offset other := by
  simp only [offset, issued]
  rw [Keyed.find?_insert_of_ne hne]

theorem mem_keys_issued
    {a : Allocator} {type key : String} {entity : Entity} :
    key ∈ (a.issued type entity).entities.keys ↔
      key = Entity.numbered type (a.offset type) ∨ key ∈ a.entities.keys :=
  Keyed.mem_keys_insert

theorem isWord_of_lt
    {n : Nat} (h : n < Limits.maxEntitiesPerType) :
    n + 1 < Nat.pow 2 64 :=
  Nat.lt_trans (Nat.succ_lt_succ h) (by decide)

/-- A placeholder that is given out was not there before. -/
theorem IsAhead.not_mem_keys
    {a : Allocator} (hahead : a.IsAhead) {type : String}
    (hlimit : a.offset type < Limits.maxEntitiesPerType) :
    Entity.numbered type (a.offset type) ∉ a.entities.keys := by
  intro hmem
  have hlt := hahead type (a.offset type) hmem (isWord_of_lt hlimit)
  omega

theorem IsAhead.issued
    {a : Allocator} (hahead : a.IsAhead) (type : String) (entity : Entity) :
    (a.issued type entity).IsAhead := by
  intro other n hmem hn
  rw [mem_keys_issued] at hmem
  -- Only the counter of the type itself has moved.
  by_cases htype : other = type
  · subst htype
    rw [offset_issued_self]
    rcases hmem with heq | hold
    · have hnumber := Entity.numbered_injective other heq
      omega
    · have hlt := hahead other n hold hn
      omega
  · rw [offset_issued_of_ne htype]
    rcases hmem with heq | hold
    · have hsame := congrArg Entity.typeOf heq
      rw [Entity.typeOf_numbered, Entity.typeOf_numbered] at hsame
      exact absurd hsame htype
    · exact hahead other n hold hn

/-- An entity keeps its placeholder when others are given out. -/
theorem IsAhead.find?_issued
    {a : Allocator} (hahead : a.IsAhead) {type key : String} {entity known : Entity}
    (hlimit : a.offset type < Limits.maxEntitiesPerType)
    (hknown : Keyed.find? key a.entities = some known) :
    Keyed.find? key (a.issued type entity).entities = some known := by
  have hne : key ≠ Entity.numbered type (a.offset type) := by
    rintro rfl
    exact hahead.not_mem_keys hlimit (Keyed.mem_keys_of_find? hknown)
  exact (Keyed.find?_insert_of_ne hne entity a.entities).trans hknown

/-! ## Calls -/

/-- What looking for a value among the entities of a type can end with, and the allocator
after it. -/
inductive LooksUp (a : Allocator) (type : String) (v : Value) :
    Except EntityError (Option (List String)) → Allocator → Prop
  | explicit
      (hwords : a.explicit? type v = some words) :
      LooksUp a type v (.ok (some words)) a
  | known
      (hkey : Entity.placeholder? a.entities type a.now v = some key) :
      LooksUp a type v (.ok (some [key])) a
  | issued
      (hentity : Entity.ofValue? type a.now v = some entity)
      (hlimit : a.offset type < Limits.maxEntitiesPerType)
      (hnew : Entity.placeholder? a.entities type a.now v = none) :
      LooksUp a type v (.ok (some [Entity.numbered type (a.offset type)]))
        (a.issued type entity)
  | refused
      (hallocate : a.allocate type v = .error e)
      (hnew : Entity.placeholder? a.entities type a.now v = none) :
      LooksUp a type v (.error e) a

/-- The number is written out: it is an integer from 0 to 12. -/
def IsShort (x : Float) (n : Nat) : Prop :=
  Decimal.exactInt? x = some (n : Int) ∧ n ≤ 12

/-- What a call for a value of a type can end with, and the allocator after it. -/
inductive Finds (a : Allocator) :
    String → Value → Except EntityError (Option (List String)) → Allocator → Prop
  | short
      (hshort : IsShort x n) :
      Finds a "NUMBER" (.number x) (.ok (some [toString n])) a
  | negative
      (hx : x < 0)
      (hsize : Finds a "NUMBER" (.number (-x)) (.ok (some words)) a') :
      Finds a "NUMBER" (.number x) (.ok (some ("-" :: words))) a'
  | negativeRefused
      (hx : x < 0)
      (hsize : Finds a "NUMBER" (.number (-x)) (.error e) a') :
      Finds a "NUMBER" (.number x) (.error e) a'
  | lookup
      (hnumber : ∀ x, type = "NUMBER" → v = .number x → (∀ n, ¬ IsShort x n) ∧ ¬ x < 0)
      (hlookup : a.LooksUp type v result a') :
      Finds a type v result a'

/-- Something holds of the result and of the allocator that is left. -/
def Leaves (R : Except EntityError (Option (List String)) → Allocator → Prop)
    (result : Except EntityError (Option (List String))) (finder : EntityFinder) : Prop :=
  ∃ a, finder = .allocator a ∧ R result a

end Allocator

namespace EntityFinder

open SkillLang.Action Allocator

variable {a : Allocator}

theorem allocate_ends
    {type : String} {v : Value} (hnew : Entity.placeholder? a.entities type a.now v = none) :
    (allocate a type v).Ends (.allocator a) fun result finder =>
      Leaves (a.LooksUp type v) (result.map fun key => some [key]) finder := by
  unfold allocate
  cases hallocate : a.allocate type v with
  | error e =>
      cases e with
      | notFound _ _ _ | limitExceeded _ =>
          exact ends_record_bind (ends_throw ⟨a, rfl, .refused hallocate hnew⟩)
      | invalidValue _ _ => exact ends_throw ⟨a, rfl, .refused hallocate hnew⟩
  | ok pair =>
      obtain ⟨key, a'⟩ := pair
      obtain ⟨entity, hentity, hlimit, rfl, rfl⟩ := allocate_eq_ok hallocate
      exact ends_setState_bind (ends_record_bind (ends_record_bind
        (ends_pure ⟨_, rfl, .issued hentity hlimit hnew⟩)))

theorem findLiteral_ends
    (type : String) (v : Value) (options : FindOptions) :
    (findLiteral type v options).Ends (.allocator a) (Leaves (a.LooksUp type v)) := by
  unfold findLiteral
  apply ends_getState_bind
  dsimp only
  cases hwords : a.explicit? type v with
  | some words => exact ends_pure ⟨a, rfl, .explicit hwords⟩
  | none =>
      cases hkey : Entity.placeholder? a.entities type a.now v with
      | some key => exact ends_pure ⟨a, rfl, .known hkey⟩
      | none =>
          refine (allocate_ends hkey).bind ?_ ?_
          · intro key finder hleaves
            exact ends_pure hleaves
          · intro e finder hleaves
            exact hleaves

theorem integerWithin?_eq_some_iff
    {low high n : Int} {x : Float} :
    integerWithin? low high x = some n ↔ Decimal.exactInt? x = some n ∧ low ≤ n ∧ n ≤ high := by
  unfold integerWithin?
  cases Decimal.exactInt? x with
  | none => exact ⟨nofun, fun h => nomatch h.1⟩
  | some k =>
      simp only [Option.ite_none_right_eq_some, Option.some.injEq]
      constructor
      · rintro ⟨hrange, rfl⟩
        exact ⟨rfl, hrange⟩
      · rintro ⟨rfl, hrange⟩
        exact ⟨hrange, rfl⟩

theorem not_within_of_integerWithin?
    {low high n : Int} {x : Float} (h : integerWithin? low high x = none)
    (hexact : Decimal.exactInt? x = some n) :
    ¬ (low ≤ n ∧ n ≤ high) := by
  intro hrange
  rw [integerWithin?_eq_some_iff.mpr ⟨hexact, hrange⟩] at h
  cases h

theorem isShort_of_integerWithin?
    {x : Float} {n : Int} (h : integerWithin? 0 12 x = some n) :
    ∃ m, IsShort x m ∧ Decimal.number x = toString m := by
  obtain ⟨hexact, hlow, hhigh⟩ := integerWithin?_eq_some_iff.mp h
  obtain ⟨m, rfl⟩ := Int.eq_ofNat_of_zero_le hlow
  have hm : m ≤ 12 := by omega
  refine ⟨m, ⟨hexact, hm⟩, ?_⟩
  have hsize : ((m : Int).natAbs < Nat.pow 10 15) := by
    change (m : Int).natAbs < 1000000000000000
    omega
  rw [Decimal.number, hexact]
  dsimp only
  rw [if_pos hsize]
  rfl

theorem not_isShort_of_integerWithin?
    {x : Float} (h : integerWithin? 0 12 x = none) (n : Nat) :
    ¬ IsShort x n := by
  rintro ⟨hexact, hn⟩
  have hrange := not_within_of_integerWithin? h hexact
  omega

theorem not_finds_none
    {type : String} {v : Value} {a' : Allocator} :
    ¬ a.Finds type v (.ok none) a' := by
  intro h
  cases h with
  | lookup _ hlookup => cases hlookup

theorem findLiteral_finds
    {type : String} {v : Value}
    (hnumber : ∀ x, type = "NUMBER" → v = .number x → (∀ n, ¬ IsShort x n) ∧ ¬ x < 0)
    (options : FindOptions) :
    (findLiteral type v options).Ends (.allocator a) (Leaves (a.Finds type v)) := by
  refine (findLiteral_ends type v options).mono ?_
  rintro result finder ⟨a', rfl, hlookup⟩
  exact ⟨a', rfl, .lookup hnumber hlookup⟩

theorem findMagnitude_ends
    {x : Float} (hx : ¬ x < 0) (options : FindOptions) :
    (findMagnitude x options).Ends (.allocator a) (Leaves (a.Finds "NUMBER" (.number x))) := by
  have hlookup : ∀ options, (∀ n, ¬ IsShort x n) →
      (findNumberLiteral x options).Ends (.allocator a)
        (Leaves (a.Finds "NUMBER" (.number x))) := by
    intro options hshort
    refine findLiteral_finds ?_ options
    rintro y - heq
    cases heq
    exact ⟨hshort, hx⟩
  unfold findMagnitude
  cases hwithin : integerWithin? 0 12 x with
  | some n =>
      obtain ⟨m, hshort, hnumber⟩ := isShort_of_integerWithin? hwithin
      rw [if_pos Option.isSome_some, hnumber]
      exact ends_pure ⟨a, rfl, .short hshort⟩
  | none =>
      have hshort := not_isShort_of_integerWithin? hwithin
      rw [if_neg (by simp)]
      cases integerWithin? 1950 2050 x with
      | none => exact hlookup options hshort
      | some year =>
          -- The first question is answered, so a year is never asked for in two digits.
          refine (hlookup options.ignoring hshort).bind ?_ ?_
          · rintro (_ | words) finder hleaves
            · obtain ⟨a', -, hfinds⟩ := hleaves
              exact absurd hfinds not_finds_none
            · exact ends_pure hleaves
          · intro e finder hleaves
            exact hleaves

theorem findNumber_ends
    (x : Float) (options : FindOptions) :
    (findNumber x options).Ends (.allocator a) (Leaves (a.Finds "NUMBER" (.number x))) := by
  unfold findNumber
  by_cases hx : x < 0
  · rw [if_pos hx]
    refine (findMagnitude_ends (Decimal.not_neg_lt_zero hx) options.ignoring).bind ?_ ?_
    · rintro (_ | words) finder ⟨a', rfl, hfinds⟩
      · exact absurd hfinds not_finds_none
      · exact ends_pure ⟨a', rfl, .negative hx hfinds⟩
    · rintro e finder ⟨a', rfl, hfinds⟩
      exact ⟨a', rfl, .negativeRefused hx hfinds⟩
  · rw [if_neg hx]
    exact findMagnitude_ends hx options

theorem find_ends
    (type : String) (v : Value) (options : FindOptions) :
    (find type v options).Ends (.allocator a) (Leaves (a.Finds type v)) := by
  -- Something is always found, so what comes after the search only hands it on.
  have hfound : ∀ (found : Option (List String)) (finder : EntityFinder),
      Leaves (a.Finds type v) (.ok found) finder →
        (if found.isSome || options.ignoreNotFound then pure found
          else do
            let finder ← getState
            fail (.notFound type v.source.text finder.entities.describe) :
              Find (Option (List String))).Ends finder (Leaves (a.Finds type v)) := by
    rintro (_ | words) finder hleaves
    · obtain ⟨a', -, hfinds⟩ := hleaves
      exact absurd hfinds not_finds_none
    · exact ends_pure hleaves
  have hrefused : ∀ (e : EntityError) (finder : EntityFinder),
      Leaves (a.Finds type v) (.error e) finder →
        Leaves (a.Finds type v) (.error e) finder :=
    fun _ _ hleaves => hleaves
  unfold find
  cases v with
  | number x =>
      by_cases htype : type = "NUMBER"
      · subst htype
        exact (findNumber_ends x options).bind hfound hrefused
      · dsimp only
        rw [if_neg (by simpa using htype)]
        refine (findLiteral_finds ?_ options).bind hfound hrefused
        intro y heq
        exact absurd heq htype
  | _ =>
      refine (findLiteral_finds ?_ options).bind hfound hrefused
      rintro y - heq
      cases heq

end EntityFinder

namespace Allocator

/-- A call leaves the allocator as it is or gives out one placeholder, for an entity that is made
from its value, or from another number, and for which there was none. -/
theorem Finds.eq_or_sought
    {a a' : Allocator} {type : String} {v : Value}
    {result : Except EntityError (Option (List String))} (h : a.Finds type v result a') :
    a' = a ∨ ∃ sought entity, (sought = v ∨ ∃ x, sought = .number x) ∧
      Entity.placeholder? a.entities type a.now sought = none ∧
      Entity.ofValue? type a.now sought = some entity ∧
      a.offset type < Limits.maxEntitiesPerType ∧ a' = a.issued type entity := by
  induction h with
  | short _ => exact .inl rfl
  | negative _ _ ih | negativeRefused _ _ ih =>
      rcases ih with heq | ⟨sought, entity, hsought, hissued⟩
      · exact .inl heq
      · refine .inr ⟨sought, entity, .inr ?_, hissued⟩
        rcases hsought with rfl | hnumber
        · exact ⟨_, rfl⟩
        · exact hnumber
  | @lookup _ v _ _ _ hlookup =>
      cases hlookup with
      | explicit _ | known _ | refused _ => exact .inl rfl
      | issued hentity hlimit hnew => exact .inr ⟨v, _, .inl rfl, hnew, hentity, hlimit, rfl⟩

/-- A call gives out one placeholder of its type or leaves the allocator as it is. -/
theorem Finds.eq_or_issued
    {a a' : Allocator} {type : String} {v : Value}
    {result : Except EntityError (Option (List String))} (h : a.Finds type v result a') :
    a' = a ∨ ∃ entity, a.offset type < Limits.maxEntitiesPerType ∧ a' = a.issued type entity := by
  rcases h.eq_or_sought with heq | ⟨_, entity, -, -, -, hlimit, heq⟩
  · exact .inl heq
  · exact .inr ⟨entity, hlimit, heq⟩

theorem Finds.eq_of_error
    {a a' : Allocator} {type : String} {v : Value} {e : EntityError}
    (h : a.Finds type v (.error e) a') :
    a' = a := by
  generalize hresult : Except.error e = result at h
  induction h with
  | short _ | negative _ _ _ => cases hresult
  | negativeRefused _ _ ih => exact ih hresult
  | lookup _ hlookup =>
      cases hlookup with
      | explicit _ | known _ | issued _ _ => cases hresult
      | refused _ => rfl

/-- A call fails only where its value is refused. -/
theorem Finds.refused
    {a a' : Allocator} {type : String} {v : Value} {e : EntityError}
    (h : a.Finds type v (.error e) a') :
    (Entity.ofValue? type a.now v = none ∧ e = .invalidValue type v.source.text) ∨
      (Limits.maxEntitiesPerType ≤ a.offset type ∧ e = .limitExceeded type) := by
  generalize hresult : Except.error e = result at h
  induction h with
  | short _ | negative _ _ _ => cases hresult
  | negativeRefused _ _ ih =>
      -- A number has an entity, so that only the limit is left as a reason.
      rcases ih hresult with ⟨hnone, -⟩ | hlimit
      · cases hnone
      · exact .inr hlimit
  | lookup _ hlookup =>
      cases hlookup with
      | explicit _ | known _ | issued _ _ => cases hresult
      | refused hallocate =>
          cases hresult
          exact allocate_eq_error hallocate

end Allocator

/-! ## Runs -/

structure FindCall where
  type : String
  value : Value
  options : FindOptions

namespace EntityFinder

open Allocator

/-- The answer to a call and the session after it. -/
def answer (s : Session EntityFinder) (call : FindCall) :
    Except EntityError (Option (List String)) × Session EntityFinder :=
  (find call.type call.value call.options).runIn s

/-- The session after some calls, any of which may have failed. -/
def afterCalls (s : Session EntityFinder) (calls : List FindCall) : Session EntityFinder :=
  calls.foldl (fun s call => (answer s call).2) s

/-- A session with an allocator that goes on after the entities that there are. -/
def allocating (entities : EntityMap) (explicitStrings : Bool) (now : Moment)
    (log : Array Event) : Session EntityFinder :=
  ⟨.allocator (.of entities explicitStrings now), log⟩

/-- One of some calls has brought a placeholder with a number of a type. -/
def GaveOut (s : Session EntityFinder) (calls : List FindCall) (type : String) (n : Nat) : Prop :=
  ∃ earlier call later, calls = earlier ++ call :: later ∧
    Entity.numbered type n ∉ (afterCalls s earlier).state.entities.keys ∧
      Entity.numbered type n ∈ (afterCalls s (earlier ++ [call])).state.entities.keys

theorem afterCalls_append
    (s : Session EntityFinder) (calls later : List FindCall) :
    afterCalls s (calls ++ later) = afterCalls (afterCalls s calls) later :=
  List.foldl_append

theorem answer_finds
    {s : Session EntityFinder} {a : Allocator} (hs : s.state = .allocator a) (call : FindCall) :
    ∃ a', (answer s call).2.state = .allocator a' ∧
      a.Finds call.type call.value (answer s call).1 a' :=
  find_ends call.type call.value call.options s hs

/-- What is kept when a placeholder is given out is kept by all calls. -/
theorem afterCalls_induction
    {P : Allocator → Prop}
    (hissued : ∀ a type entity, P a → a.offset type < Limits.maxEntitiesPerType →
      P (a.issued type entity))
    {s : Session EntityFinder} {a : Allocator} (hs : s.state = .allocator a) (ha : P a)
    (calls : List FindCall) :
    ∃ a', (afterCalls s calls).state = .allocator a' ∧ P a' := by
  induction calls generalizing s a with
  | nil => exact ⟨a, hs, ha⟩
  | cons call calls ih =>
      obtain ⟨next, hnext, hfinds⟩ := answer_finds hs call
      have hkept : P next := by
        rcases hfinds.eq_or_issued with rfl | ⟨entity, hlimit, rfl⟩
        · exact ha
        · exact hissued a call.type entity ha hlimit
      exact ih hnext hkept

/-- The counters of an allocator are ahead, and no number is too large for a word. -/
structure Counts (a : Allocator) : Prop where
  isAhead : a.IsAhead
  isWord : ∀ type n, Entity.numbered type n ∈ a.entities.keys → n + 1 < Nat.pow 2 64

theorem Counts.issued
    {a : Allocator} (h : Counts a) (type : String) (entity : Entity)
    (hlimit : a.offset type < Limits.maxEntitiesPerType) :
    Counts (a.issued type entity) := by
  constructor
  · exact h.isAhead.issued type entity
  · intro other n hmem
    rcases mem_keys_issued.mp hmem with heq | hold
    · have hsame := congrArg Entity.typeOf heq
      rw [Entity.typeOf_numbered, Entity.typeOf_numbered] at hsame
      subst hsame
      rw [Entity.numbered_injective other heq]
      exact isWord_of_lt hlimit
    · exact h.isWord other n hold

/-- No entity is lost and none is replaced, however many calls follow. -/
theorem find?_afterCalls
    {s : Session EntityFinder} {a : Allocator} (hs : s.state = .allocator a) (ha : a.IsAhead)
    {key : String} {entity : Entity} (hentity : Keyed.find? key s.state.entities = some entity)
    (calls : List FindCall) :
    Keyed.find? key (afterCalls s calls).state.entities = some entity := by
  have hkept : a.IsAhead ∧ Keyed.find? key a.entities = some entity := by
    rw [hs] at hentity
    exact ⟨ha, hentity⟩
  obtain ⟨a', ha', -, hfound⟩ := afterCalls_induction
    (P := fun a => a.IsAhead ∧ Keyed.find? key a.entities = some entity)
    (fun a type new h hlimit => ⟨h.1.issued type new, h.1.find?_issued hlimit h.2⟩)
    hs hkept calls
  rw [ha']
  exact hfound

theorem Counts.of
    {entities : EntityMap}
    (hsuffix : ∀ key ∈ entities.keys, ∀ n, Entity.suffix? key = some n → n < Nat.pow 2 64 - 1)
    (explicitStrings : Bool) (now : Moment) :
    Counts (.of entities explicitStrings now) := by
  constructor
  · exact isAhead_of entities explicitStrings now
  · intro type n hmem
    have hn := hsuffix _ hmem n (Entity.suffix?_numbered type n)
    omega

theorem GaveOut.mem_keys
    {s : Session EntityFinder} {a : Allocator} (hs : s.state = .allocator a) (ha : Counts a)
    {calls : List FindCall} {type : String} {n : Nat} (h : GaveOut s calls type n) :
    Entity.numbered type n ∈ (afterCalls s calls).state.entities.keys := by
  obtain ⟨earlier, call, later, rfl, -, hmem⟩ := h
  obtain ⟨a', ha', hcounts⟩ :=
    afterCalls_induction (fun _ type entity h hlimit => h.issued type entity hlimit) hs ha
      (earlier ++ [call])
  obtain ⟨entity, hentity⟩ := Keyed.exists_find?_of_mem_keys hmem
  have happend : earlier ++ call :: later = (earlier ++ [call]) ++ later := by simp
  rw [happend, afterCalls_append]
  exact Keyed.mem_keys_of_find? (find?_afterCalls ha' hcounts.isAhead hentity later)

/-- The placeholders of every type have the numbers below its counter. -/
def IsDense (a : Allocator) : Prop :=
  ∀ key, key ∈ a.entities.keys ↔ ∃ type, ∃ n < a.offset type, key = Entity.numbered type n

theorem isDense_of_nil
    (explicitStrings : Bool) (now : Moment) :
    IsDense (.of [] explicitStrings now) := by
  intro key
  constructor
  · intro hmem
    cases hmem
  · rintro ⟨type, n, hn, -⟩
    exact absurd hn (Nat.not_lt_zero n)

theorem IsDense.issued
    {a : Allocator} (h : IsDense a) (type : String) (entity : Entity) :
    IsDense (a.issued type entity) := by
  intro key
  rw [mem_keys_issued, h key]
  constructor
  · rintro (rfl | ⟨other, n, hn, rfl⟩)
    · refine ⟨type, a.offset type, ?_, rfl⟩
      rw [offset_issued_self]
      exact Nat.lt_succ_self _
    · refine ⟨other, n, ?_, rfl⟩
      by_cases htype : other = type
      · subst htype
        rw [offset_issued_self]
        omega
      · rw [offset_issued_of_ne htype]
        exact hn
  · rintro ⟨other, n, hn, rfl⟩
    by_cases htype : other = type
    · subst htype
      rw [offset_issued_self] at hn
      rcases Nat.lt_succ_iff_lt_or_eq.mp hn with hold | rfl
      · exact .inr ⟨other, n, hold, rfl⟩
      · exact .inl rfl
    · rw [offset_issued_of_ne htype] at hn
      exact .inr ⟨other, n, hn, rfl⟩

theorem IsDense.numbers
    {a : Allocator} (h : IsDense a) (type key : String) :
    (key ∈ a.entities.keys ∧ Entity.typeOf key = type) ↔
      ∃ n < a.offset type, key = Entity.numbered type n := by
  constructor
  · rintro ⟨hmem, htype⟩
    obtain ⟨other, n, hn, rfl⟩ := (h key).mp hmem
    rw [Entity.typeOf_numbered] at htype
    subst htype
    exact ⟨n, hn, rfl⟩
  · rintro ⟨n, hn, rfl⟩
    exact ⟨(h _).mpr ⟨type, n, hn, rfl⟩, Entity.typeOf_numbered type n⟩

/-- Entities are never lost or replaced.  A new placeholder has a number above all those that
its type has or had, a call that fails changes nothing, and without entities at the start the
numbers of a type have no gaps. -/
theorem calls_move_forward
    (entities : EntityMap) (explicitStrings : Bool) (now : Moment) (log : Array Event)
    (hsuffix : ∀ key ∈ entities.keys, ∀ n, Entity.suffix? key = some n → n < Nat.pow 2 64 - 1)
    (earlier : List FindCall) (call : FindCall) (later : List FindCall) :
    let start := allocating entities explicitStrings now log
    let before := afterCalls start earlier
    let after := (answer before call).2
    (∀ key entity, Keyed.find? key before.state.entities = some entity →
      Keyed.find? key (afterCalls before later).state.entities = some entity) ∧
    (∀ key ∈ after.state.entities.keys, key ∉ before.state.entities.keys →
      ∃ n, key = Entity.numbered call.type n ∧ Entity.typeOf key = call.type ∧
        n < Limits.maxEntitiesPerType ∧
          ∀ m, (Entity.numbered call.type m ∈ before.state.entities.keys ∨
            GaveOut start earlier call.type m) → m < n) ∧
    (∀ e, (answer before call).1 = .error e → after.state = before.state) ∧
    (entities = [] → ∀ type, ∃ k, ∀ key,
      (key ∈ before.state.entities.keys ∧ Entity.typeOf key = type) ↔
        ∃ n < k, key = Entity.numbered type n) := by
  intro start before after
  have hstart : start.state = .allocator (.of entities explicitStrings now) := rfl
  have hcounts := Counts.of hsuffix explicitStrings now
  obtain ⟨a, hbefore, ha⟩ :=
    afterCalls_induction (fun _ type entity h hlimit => h.issued type entity hlimit)
      hstart hcounts earlier
  obtain ⟨a', hafter, hfinds⟩ := answer_finds hbefore call
  have hold : before.state.entities = a.entities := congrArg EntityFinder.entities hbefore
  have hnew : after.state.entities = a'.entities := congrArg EntityFinder.entities hafter
  refine ⟨?_, ?_, ?_, ?_⟩
  · intro key entity hentity
    exact find?_afterCalls hbefore ha.isAhead hentity later
  · intro key hmem hnotMem
    rw [hnew] at hmem
    rw [hold] at hnotMem
    rcases hfinds.eq_or_issued with rfl | ⟨entity, hlimit, rfl⟩
    · exact absurd hmem hnotMem
    -- The number of the new placeholder is the counter, which is ahead of all that are there.
    have hkey : key = Entity.numbered call.type (a.offset call.type) :=
      (mem_keys_issued.mp hmem).resolve_right hnotMem
    refine ⟨a.offset call.type, hkey, ?_, hlimit, ?_⟩
    · rw [hkey, Entity.typeOf_numbered]
    · intro m hm
      have hpresent : Entity.numbered call.type m ∈ a.entities.keys := by
        rw [← hold]
        rcases hm with hpresent | hgave
        · exact hpresent
        · exact hgave.mem_keys hstart hcounts
      exact ha.isAhead call.type m hpresent (ha.isWord call.type m hpresent)
  · intro e he
    have herror := hfinds
    rw [he] at herror
    exact hafter.trans ((congrArg EntityFinder.allocator herror.eq_of_error).trans hbefore.symm)
  · rintro rfl type
    obtain ⟨b, hb, hdense⟩ :=
      afterCalls_induction (fun _ type entity h _ => h.issued type entity)
        hstart (isDense_of_nil explicitStrings now) earlier
    refine ⟨b.offset type, fun key => ?_⟩
    have hkeys : before.state.entities = b.entities := congrArg EntityFinder.entities hb
    rw [hkeys]
    exact hdense.numbers type key

/-! ## A shopping list -/

namespace Shopping

/-- The list begins with an item that is not the first one of its type. -/
def entities : EntityMap :=
  [("QUOTED_STRING_3", .string "milk")]

def now : Moment :=
  ⟨0, 0, 0⟩

def call (item : String) : FindCall :=
  ⟨"QUOTED_STRING", .string item, {}⟩

theorem suffix_lt :
    ∀ key ∈ entities.keys, ∀ n, Entity.suffix? key = some n → n < Nat.pow 2 64 - 1 := by
  intro key hmem n hn
  obtain rfl : key = "QUOTED_STRING_3" := by simpa [entities, Keyed.keys] using hmem
  have hthree : Entity.suffix? "QUOTED_STRING_3" = some 3 := by decide
  obtain rfl : 3 = n := Option.some.inj (hthree.symm.trans hn)
  decide

end Shopping

theorem shopping_moves_forward :
    let start := allocating Shopping.entities false Shopping.now #[]
    let before := afterCalls start [Shopping.call "milk"]
    let after := (answer before (Shopping.call "bread")).2
    (∀ key ∈ Shopping.entities.keys, ∀ n, Entity.suffix? key = some n → n < Nat.pow 2 64 - 1) ∧
      after.state.entities.keys = ["QUOTED_STRING_3", "QUOTED_STRING_4"] ∧
      Keyed.find? "QUOTED_STRING_3" (afterCalls before [Shopping.call "bread"]).state.entities =
        some (.string "milk") ∧
      ∃ n, "QUOTED_STRING_4" = Entity.numbered "QUOTED_STRING" n ∧
        ∀ m, (Entity.numbered "QUOTED_STRING" m ∈ before.state.entities.keys ∨
          GaveOut start [Shopping.call "milk"] "QUOTED_STRING" m) → m < n := by
  intro start before after
  obtain ⟨hkept, hnew, -, -⟩ :=
    calls_move_forward Shopping.entities false Shopping.now #[] Shopping.suffix_lt
      [Shopping.call "milk"] (Shopping.call "bread") [Shopping.call "bread"]
  obtain ⟨n, hkey, -, -, hlt⟩ := hnew "QUOTED_STRING_4" (by decide) (by decide)
  exact ⟨Shopping.suffix_lt, by decide, hkept "QUOTED_STRING_3" (.string "milk") rfl, n, hkey, hlt⟩

end EntityFinder

end SkillLang

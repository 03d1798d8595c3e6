import Mathlib.Data.List.Dedup
import Mathlib.Data.List.Perm.Basic
import SkillLang.Proofs.Typing.CheckOfAcceptance

/-!
# Cached sources

A cache holds the first signature that was found for every key, and nothing for a key that has
only failed so far.  So a source behind a cache is asked again for a key until it has an answer,
and never after that, however its answers change from time to time.
-/

namespace SkillLang

/-- A question to a source and its answer. -/
structure Consultation where
  key : LookupKey
  answer : Except SchemaError Signature

namespace Consultation

def signature? (c : Consultation) : Option Signature :=
  c.answer.toOption

/-- The first signature that was found for a key. -/
def firstFound? (key : LookupKey) (history : List Consultation) : Option Signature :=
  history.findSome? fun c => if c.key = key then c.signature? else none

/-- The keys for which signatures were found, in the order of the questions. -/
def foundKeys (history : List Consultation) : List LookupKey :=
  (history.filter fun c => c.signature?.isSome).map key

theorem firstFound?_append_singleton
    (key : LookupKey) (history : List Consultation) (c : Consultation) :
    firstFound? key (history ++ [c]) =
      (firstFound? key history).or (if c.key = key then c.signature? else none) := by
  rw [firstFound?, List.findSome?_append, List.findSome?_singleton]
  rfl

theorem isSome_firstFound?
    {key : LookupKey} {history : List Consultation} :
    (firstFound? key history).isSome = true ↔ key ∈ foundKeys history := by
  rw [firstFound?, List.findSome?_isSome_iff, foundKeys, List.mem_map]
  constructor
  · rintro ⟨c, hc, hfound⟩
    by_cases hkey : c.key = key
    · rw [if_pos hkey] at hfound
      exact ⟨c, List.mem_filter.mpr ⟨hc, hfound⟩, hkey⟩
    · rw [if_neg hkey] at hfound
      cases hfound
  · rintro ⟨c, hc, rfl⟩
    have hmem := List.mem_filter.mp hc
    refine ⟨c, hmem.1, ?_⟩
    rw [if_pos rfl]
    exact hmem.2

theorem exists_of_firstFound?
    {key : LookupKey} {history : List Consultation} {s : Signature}
    (h : firstFound? key history = some s) :
    ∃ c ∈ history, c.key = key ∧ c.answer = .ok s := by
  obtain ⟨c, hc, hfound⟩ := List.exists_of_findSome?_eq_some h
  by_cases hkey : c.key = key
  · rw [if_pos hkey, signature?] at hfound
    refine ⟨c, hc, hkey, ?_⟩
    cases hanswer : c.answer with
    | ok t =>
        rw [hanswer] at hfound
        exact congrArg Except.ok (Option.some.inj hfound)
    | error e =>
        rw [hanswer] at hfound
        cases hfound
  · rw [if_neg hkey] at hfound
    cases hfound

end Consultation

open Consultation

variable {σ : Type}

namespace SchemaSource

/-- The source with a record of the questions that it was asked. -/
def recorded (source : SchemaSource σ) : SchemaSource (σ × List Consultation) :=
  fun key (state, record) =>
    let (answer, state) := source key state
    (answer, state, record ++ [⟨key, answer⟩])

/-- Asks a source for some keys, one after the other. -/
def askAll (source : SchemaSource σ) : List LookupKey → σ → List Consultation × σ
  | [], state => ([], state)
  | key :: keys, state =>
    let (answer, state) := source key state
    let (history, state) := askAll source keys state
    (⟨key, answer⟩ :: history, state)

end SchemaSource

/-! ## What a cache holds -/

/-- The cache holds what was found first, once for every key. -/
structure SchemaCache.Holds (cache : SchemaCache) (history : List Consultation) : Prop where
  find?_eq : ∀ key, cache.find? key = firstFound? key history
  nodup : (cache.entries.map Prod.fst).Nodup

namespace SchemaCache

theorem holds_empty : ({} : SchemaCache).Holds [] where
  find?_eq _ := rfl
  nodup := List.nodup_nil

theorem mem_keys_iff
    {cache : SchemaCache} {key : LookupKey} :
    key ∈ cache.entries.map Prod.fst ↔ (cache.find? key).isSome = true := by
  rw [find?, List.lookup_isSome_iff, List.mem_map]
  constructor
  · rintro ⟨entry, hentry, rfl⟩
    exact ⟨entry, hentry, beq_self_eq_true _⟩
  · rintro ⟨entry, hentry, hkey⟩
    exact ⟨entry, hentry, (beq_iff_eq.mp hkey).symm⟩

theorem find?_remember
    (cache : SchemaCache) (key other : LookupKey) (s : Signature) :
    (cache.remember key s).find? other =
      if key = other then some s else cache.find? other := by
  by_cases hkey : key = other
  · subst hkey
    simp [find?, remember]
  · have hbeq : (other == key) = false := beq_false_of_ne (Ne.symm hkey)
    rw [if_neg hkey, find?, remember, List.lookup_cons, hbeq]
    rfl

theorem Holds.size_eq
    {cache : SchemaCache} {history : List Consultation} (h : cache.Holds history) :
    cache.size = (foundKeys history).dedup.length := by
  have hperm : (cache.entries.map Prod.fst).Perm (foundKeys history).dedup := by
    rw [List.perm_ext_iff_of_nodup h.nodup (List.nodup_dedup _)]
    intro key
    rw [mem_keys_iff, h.find?_eq, isSome_firstFound?, List.mem_dedup]
  have hlength := hperm.length_eq
  rw [List.length_map] at hlength
  exact hlength

/-- A key that was asked before changes nothing that is held. -/
theorem Holds.again
    {cache : SchemaCache} {history : List Consultation} (h : cache.Holds history)
    {key : LookupKey} {s : Signature} (hfound : firstFound? key history = some s) :
    cache.Holds (history ++ [⟨key, .ok s⟩]) where
  find?_eq other := by
    rw [firstFound?_append_singleton, h.find?_eq]
    by_cases hkey : key = other
    · subst hkey
      rw [hfound]
      rfl
    · rw [if_neg hkey, Option.or_none]
  nodup := h.nodup

theorem Holds.failed
    {cache : SchemaCache} {history : List Consultation} (h : cache.Holds history)
    (key : LookupKey) (e : SchemaError) :
    cache.Holds (history ++ [⟨key, .error e⟩]) where
  find?_eq other := by
    have hnothing : (if key = other then (Except.error e : Except SchemaError Signature).toOption
        else none) = none := by
      split <;> rfl
    rw [firstFound?_append_singleton, signature?, hnothing, Option.or_none, h.find?_eq]
  nodup := h.nodup

theorem Holds.remember
    {cache : SchemaCache} {history : List Consultation} (h : cache.Holds history)
    {key : LookupKey} (hfound : firstFound? key history = none) (s : Signature) :
    (cache.remember key s).Holds (history ++ [⟨key, .ok s⟩]) where
  find?_eq other := by
    rw [find?_remember, firstFound?_append_singleton, h.find?_eq]
    by_cases hkey : key = other
    · subst hkey
      rw [if_pos rfl, if_pos rfl, hfound]
      rfl
    · rw [if_neg hkey, if_neg hkey, Option.or_none]
  nodup := by
    have hnew : key ∉ cache.entries.map Prod.fst := by
      rw [mem_keys_iff, h.find?_eq, hfound]
      decide
    exact List.nodup_cons.mpr ⟨hnew, h.nodup⟩

end SchemaCache

/-! ## Questions to a source behind a cache -/

namespace SchemaSource

variable {inner : SchemaSource σ} {cache : SchemaCache} {history : List Consultation}

theorem cached_of_found
    (h : cache.Holds history) {key : LookupKey} {s : Signature}
    (hfound : firstFound? key history = some s) (state : σ) :
    inner.cached key (state, cache) = (.ok s, state, cache) := by
  have hcached : cache.find? key = some s := (h.find?_eq key).trans hfound
  simp only [cached, hcached]

theorem cached_of_not_found
    (h : cache.Holds history) {key : LookupKey}
    (hfound : firstFound? key history = none) (state : σ) :
    inner.cached key (state, cache) =
      ((inner key state).1, (inner key state).2,
        match (inner key state).1 with
        | .ok s => cache.remember key s
        | .error _ => cache) := by
  have hcached : cache.find? key = none := (h.find?_eq key).trans hfound
  simp only [cached, hcached]
  rcases hinner : inner key state with ⟨answer, next⟩
  cases answer with
  | ok s => rfl
  | error e => rfl

/-- Nothing is held of a failure. -/
theorem cached_of_error
    (h : cache.Holds history) {key : LookupKey} {state : σ} {e : SchemaError}
    (herror : (inner.cached key (state, cache)).1 = .error e) :
    (inner.cached key (state, cache)).2.2 = cache := by
  cases hfound : firstFound? key history with
  | some s =>
      rw [cached_of_found h hfound] at herror
      cases herror
  | none =>
      rw [cached_of_not_found h hfound] at herror ⊢
      dsimp only at herror ⊢
      rw [herror]

/-- After a question the cache holds what was found first up to then. -/
theorem cached_holds
    (inner : SchemaSource σ) (h : cache.Holds history) (key : LookupKey) (state : σ) :
    (inner.cached key (state, cache)).2.2.Holds
      (history ++ [⟨key, (inner.cached key (state, cache)).1⟩]) := by
  cases hfound : firstFound? key history with
  | some s =>
      rw [cached_of_found h hfound]
      exact h.again hfound
  | none =>
      rw [cached_of_not_found h hfound]
      cases hanswer : (inner key state).1 with
      | ok s => exact h.remember hfound s
      | error e => exact h.failed key e

theorem askAll_cached_holds
    (inner : SchemaSource σ) (h : cache.Holds history) (keys : List LookupKey) (state : σ) :
    (inner.cached.askAll keys (state, cache)).2.2.Holds
      (history ++ (inner.cached.askAll keys (state, cache)).1) := by
  induction keys generalizing history state cache with
  | nil =>
      rw [askAll, List.append_nil]
      exact h
  | cons key keys ih =>
      have hstep := cached_holds inner h key state
      have hrest := ih hstep (inner.cached key (state, cache)).2.1
      rw [List.append_assoc, List.singleton_append] at hrest
      exact hrest

/-- The answers are all those of the source, in whatever state it is. -/
def AreAnswersOf (source : SchemaSource σ) (history : List Consultation) : Prop :=
  ∀ c ∈ history, ∀ state, c.answer = (source c.key state).1

theorem IsFixed.cached_eq
    (hfixed : inner.IsFixed) (h : cache.Holds history) (hown : inner.AreAnswersOf history)
    (key : LookupKey) (state other : σ) :
    (inner.cached key (state, cache)).1 = (inner key other).1 := by
  cases hfound : firstFound? key history with
  | some s =>
      obtain ⟨c, hc, hkey, hok⟩ := exists_of_firstFound? hfound
      have hinner := hown c hc other
      rw [hok, hkey] at hinner
      rw [cached_of_found h hfound]
      exact hinner
  | none =>
      rw [cached_of_not_found h hfound]
      exact hfixed key state other

theorem IsFixed.askAll_cached
    (hfixed : inner.IsFixed) (h : cache.Holds history) (hown : inner.AreAnswersOf history)
    (keys : List LookupKey) (state : σ) :
    inner.AreAnswersOf (history ++ (inner.cached.askAll keys (state, cache)).1) := by
  induction keys generalizing history state cache with
  | nil =>
      rw [askAll, List.append_nil]
      exact hown
  | cons key keys ih =>
      have hstep := cached_holds inner h key state
      have hkept : inner.AreAnswersOf
          (history ++ [⟨key, (inner.cached key (state, cache)).1⟩]) := by
        intro c hc other
        rcases List.mem_append.mp hc with hold | hnew
        · exact hown c hold other
        · rw [List.mem_singleton.mp hnew]
          exact hfixed.cached_eq h hown key state other
      have hrest := ih hstep hkept (inner.cached key (state, cache)).2.1
      rw [List.append_assoc, List.singleton_append] at hrest
      exact hrest

/-- The record of the questions leaves the answers as they are. -/
theorem askAll_recorded
    (keys : List LookupKey) (state : σ) (record : List Consultation) (cache : SchemaCache) :
    (inner.recorded.cached.askAll keys ((state, record), cache)).1 =
      (inner.cached.askAll keys (state, cache)).1 := by
  induction keys generalizing state record cache with
  | nil => rfl
  | cons key keys ih =>
      simp only [askAll]
      cases hcached : cache.find? key with
      | some s =>
          simp only [cached, hcached]
          exact congrArg _ (ih state record cache)
      | none =>
          rcases hinner : inner key state with ⟨answer, next⟩
          cases answer with
          | ok s =>
              simp only [cached, hcached, recorded, hinner]
              exact congrArg _ (ih next _ (cache.remember key s))
          | error e =>
              simp only [cached, hcached, recorded, hinner]
              exact congrArg _ (ih next _ cache)

/-- A key that has been found is answered from the cache.  Any other question goes to the source,
once, and nothing is held of a failure.  The cache has one entry for every key that was found,
and cannot be told from the source if that is fixed. -/
theorem cached_follows_history
    (inner : SchemaSource σ) (start : σ) (earlier : List LookupKey) (key : LookupKey) :
    let history := (inner.cached.askAll earlier (start, {})).1
    let before := (inner.recorded.cached.askAll earlier ((start, []), {})).2
    let answer := (inner.recorded.cached key before).1
    let after := (inner.recorded.cached key before).2
    (inner.recorded.cached.askAll earlier ((start, []), {})).1 = history ∧
    (∀ s, firstFound? key history = some s → answer = .ok s ∧ after = before) ∧
    (firstFound? key history = none →
      answer = (inner key before.1.1).1 ∧
        after.1 = ((inner key before.1.1).2, before.1.2 ++ [⟨key, answer⟩])) ∧
    (∀ e, answer = .error e → after.2 = before.2) ∧
    before.2.size = (foundKeys history).dedup.length ∧
    (inner.IsFixed → ∀ state, answer = (inner key state).1) := by
  intro history before answer after
  -- The record changes no answer, so that the recorded source stands for the source itself.
  have hsame : (inner.recorded.cached.askAll earlier ((start, []), {})).1 = history :=
    askAll_recorded earlier start [] {}
  have hholds : before.2.Holds history := by
    have hrun := askAll_cached_holds inner.recorded SchemaCache.holds_empty earlier (start, [])
    rw [List.nil_append, hsame] at hrun
    exact hrun
  have hhit : ∀ s, firstFound? key history = some s →
      inner.recorded.cached key before = (.ok s, before) :=
    fun s hfound => cached_of_found hholds hfound before.1
  have hmiss : firstFound? key history = none →
      inner.recorded.cached key before =
        ((inner.recorded key before.1).1, (inner.recorded key before.1).2,
          match (inner.recorded key before.1).1 with
          | .ok s => before.2.remember key s
          | .error _ => before.2) :=
    fun hfound => cached_of_not_found hholds hfound before.1
  refine ⟨hsame, ?_, ?_, ?_, hholds.size_eq, ?_⟩
  · intro s hfound
    exact ⟨congrArg Prod.fst (hhit s hfound), congrArg Prod.snd (hhit s hfound)⟩
  · intro hfound
    have hanswer : answer = (inner key before.1.1).1 := congrArg Prod.fst (hmiss hfound)
    refine ⟨hanswer, ?_⟩
    rw [hanswer]
    exact congrArg (fun out => out.2.1) (hmiss hfound)
  · intro e herror
    exact cached_of_error hholds herror
  · intro hfixed state
    have hrecorded : inner.recorded.IsFixed := fun key s t => hfixed key s.1 t.1
    have hown : inner.recorded.AreAnswersOf history := by
      have hrun := hrecorded.askAll_cached SchemaCache.holds_empty
        (fun c hc => absurd hc List.not_mem_nil) earlier (start, [])
      rw [List.nil_append, hsame] at hrun
      exact hrun
    exact hrecorded.cached_eq hholds hown key before.1 (state, [])

end SchemaSource

end SkillLang

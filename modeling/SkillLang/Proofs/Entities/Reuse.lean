import SkillLang.Proofs.Serialization.Segments

/-!
# Placeholders that are used again

A value gets the first placeholder of its type whose entity stands for it, in the order of the
placeholders as texts.  That can only change when a new entity that stands for the value gets a
placeholder in front of the old one, and new entities are only added for values that none of the
old ones stands for.
-/

namespace SkillLang

namespace Keyed

variable {α : Type}

/-- A new entry is put between the others, which stay in their order. -/
theorem insert_eq_append
    {key : String} {entries : Keyed α} (hnew : key ∉ entries.keys) (value : α) :
    ∃ before after, entries = before ++ after ∧
      insert key value entries = before ++ (key, value) :: after := by
  induction entries with
  | nil => exact ⟨[], [], rfl, rfl⟩
  | cons entry rest ih =>
      obtain ⟨k, v⟩ := entry
      rw [keys, List.map_cons, List.mem_cons, not_or] at hnew
      rw [insert]
      by_cases hlt : key < k
      · rw [if_pos hlt]
        exact ⟨[], (k, v) :: rest, rfl, rfl⟩
      · obtain ⟨before, after, hrest, hinsert⟩ := ih hnew.2
        rw [if_neg hlt, if_neg hnew.1, hinsert, hrest]
        exact ⟨(k, v) :: before, after, rfl, rfl⟩

end Keyed

namespace Entity

/-- All but the generic entities that have only a name. -/
def isIdentified : Entity → Bool
  | generic value _ => value.isSome
  | _ => true

/-- The ways in which an entity of a type is made of a value at the moment `now`. -/
inductive Makes (type : String) (now : Moment) : Value → Entity → Prop
  | number (x : Float) : Makes type now (.number x) (number x)
  | string (s : String) : Makes type now (.string s) (string s)
  | measure (x : Float) (unit : String) : Makes type now (.measure x unit) (measure x unit)
  | currency (x : Float) (code : String) : Makes type now (.currency x code) (currency x code)
  | stringLike (r : EntityRef) (s : String) (htype : (stringKind? type).isSome = true)
      (hvalue : r.value = some s) : Makes type now (.entity r) (string s)
  | generic (r : EntityRef) (htype : ¬ (stringKind? type).isSome = true) :
      Makes type now (.entity r) (generic r.value r.display)
  | location (latitude longitude : Float) (display : Option String) :
      Makes type now (.place (.absolute latitude longitude display))
        (location latitude longitude display)
  | date (d : DateValue) (moment : Moment) (hmoment : d.resolve now = some moment) :
      Makes type now (.date d) (string moment.timestamp)
  | time (hour minute second : Nat) :
      Makes type now (.time (.absolute hour minute second)) (time hour minute second)

theorem makes_of_ofValue?
    {type : String} {now : Moment} {v : Value} {e : Entity} (h : ofValue? type now v = some e) :
    Makes type now v e := by
  unfold ofValue? at h
  split at h
  next x =>
      cases h
      exact .number x
  next s =>
      cases h
      exact .string s
  next x unit =>
      cases h
      exact .measure x unit
  next x code =>
      cases h
      exact .currency x code
  next r =>
      split at h
      next htype =>
          obtain ⟨s, hvalue, rfl⟩ := Option.map_eq_some_iff.mp h
          exact .stringLike r s htype hvalue
      next htype =>
          cases h
          exact .generic r htype
  next latitude longitude display =>
      cases h
      exact .location latitude longitude display
  next d =>
      obtain ⟨moment, hmoment, rfl⟩ := Option.map_eq_some_iff.mp h
      exact .date d moment hmoment
  next hour minute second =>
      cases h
      exact .time hour minute second
  next => cases h

/-- An entry is one of a type, and its entity stands for a value at the moment `now`. -/
def answers (type : String) (now : Moment) (v : Value) (entry : String × Entity) : Bool :=
  typeOf entry.1 == type && entry.2.denotes type now v

variable {entities : EntityMap} {type key : String} {now : Moment} {v : Value} {e : Entity}

theorem answers_iff
    {entry : String × Entity} :
    answers type now v entry = true ↔
      typeOf entry.1 = type ∧ entry.2.denotes type now v = true := by
  rw [answers, Bool.and_eq_true, beq_iff_eq]

theorem placeholder?_eq
    (entities : EntityMap) (type : String) (now : Moment) (v : Value) :
    placeholder? entities type now v =
      (List.find? (answers type now v) entities).map Prod.fst :=
  rfl

theorem placeholder?_eq_none_iff :
    placeholder? entities type now v = none ↔
      ∀ entry ∈ entities, ¬ answers type now v entry = true := by
  rw [placeholder?_eq, Option.map_eq_none_iff, List.find?_eq_none]

theorem placeholder?_eq_some_iff :
    placeholder? entities type now v = some key ↔
      ∃ e before after, entities = before ++ (key, e) :: after ∧
        answers type now v (key, e) = true ∧
        ∀ entry ∈ before, ¬ answers type now v entry = true := by
  rw [placeholder?_eq, Option.map_eq_some_iff]
  constructor
  · rintro ⟨⟨key, e⟩, hfound, rfl⟩
    obtain ⟨hanswers, before, after, hentities, hbefore⟩ :=
      List.find?_eq_some_iff_append.mp hfound
    refine ⟨e, before, after, hentities, hanswers, ?_⟩
    intro entry hentry
    simpa using hbefore entry hentry
  · rintro ⟨e, before, after, hentities, hanswers, hbefore⟩
    refine ⟨(key, e), List.find?_eq_some_iff_append.mpr ⟨hanswers, before, after, hentities, ?_⟩,
      rfl⟩
    intro entry hentry
    simpa using hbefore entry hentry

theorem exists_mem_of_placeholder?
    (hkey : placeholder? entities type now v = some key) :
    ∃ e, (key, e) ∈ entities ∧ answers type now v (key, e) = true := by
  obtain ⟨e, before, after, rfl, hanswers, -⟩ := placeholder?_eq_some_iff.mp hkey
  exact ⟨e, List.mem_append_right _ List.mem_cons_self, hanswers⟩

/-- A new entry that does not stand for a value leaves its placeholder as it is. -/
theorem placeholder?_insert_of_not
    (hnew : key ∉ entities.keys) (hnot : ¬ answers type now v (key, e) = true) :
    placeholder? (Keyed.insert key e entities) type now v = placeholder? entities type now v := by
  obtain ⟨before, after, hentities, hinsert⟩ := Keyed.insert_eq_append hnew e
  rw [placeholder?_eq, placeholder?_eq, hinsert, hentities, List.find?_append, List.find?_append,
    List.find?_cons_of_neg hnot]

/-- A new entry that stands for a value is its placeholder if it had none. -/
theorem placeholder?_insert_of_none
    (hnew : key ∉ entities.keys) (hnone : placeholder? entities type now v = none)
    (hanswers : answers type now v (key, e) = true) :
    placeholder? (Keyed.insert key e entities) type now v = some key := by
  obtain ⟨before, after, hentities, hinsert⟩ := Keyed.insert_eq_append hnew e
  refine placeholder?_eq_some_iff.mpr ⟨e, before, after, hinsert, hanswers, ?_⟩
  intro entry hentry
  apply placeholder?_eq_none_iff.mp hnone
  rw [hentities]
  exact List.mem_append_left _ hentry

/-- Values for which the same entries stand have the same placeholder. -/
theorem placeholder?_congr
    {other : Value}
    (h : ∀ entry ∈ entities, answers type now v entry = answers type now other entry) :
    placeholder? entities type now v = placeholder? entities type now other := by
  rw [placeholder?_eq, placeholder?_eq, ← List.head?_filter, ← List.head?_filter,
    List.filter_congr h]

/-- The placeholder of a value is the least one of those whose entities stand for it. -/
theorem placeholder?_le
    (hsorted : entities.keys.Pairwise (· < ·)) (hkey : placeholder? entities type now v = some key)
    {entry : String × Entity} (hmem : entry ∈ entities)
    (hanswers : answers type now v entry = true) :
    key ≤ entry.1 := by
  obtain ⟨e, before, after, rfl, -, hbefore⟩ := placeholder?_eq_some_iff.mp hkey
  rw [Keyed.keys, List.map_append, List.map_cons] at hsorted
  have hafter := (List.pairwise_cons.mp (List.pairwise_append.mp hsorted).2.1).1
  rcases List.mem_append.mp hmem with hmem | hmem
  · exact absurd hanswers (hbefore entry hmem)
  · rcases List.mem_cons.mp hmem with rfl | hmem
    · exact le_rfl
    · exact (hafter entry.1 (List.mem_map_of_mem hmem)).le

end Entity

namespace Allocator

open Entity

variable {type key : String} {v : Value} {a a' : Allocator}

/-- A call for anything but a number looks it up as it is. -/
theorem Finds.looksUp
    {result : Except EntityError (Option (List String))} (h : a.Finds type v result a')
    (hnumber : ∀ x, v ≠ .number x) :
    a.LooksUp type v result a' := by
  cases h with
  | @short x _ _ => exact absurd rfl (hnumber x)
  | @negative x _ _ _ _ => exact absurd rfl (hnumber x)
  | @negativeRefused x _ _ _ _ => exact absurd rfl (hnumber x)
  | lookup _ hlookup => exact hlookup

/-- A value with a placeholder is answered with it, unless it is written out. -/
theorem LooksUp.known_eq
    {result : Except EntityError (Option (List String))} (h : a.LooksUp type v result a')
    (hexplicit : a.explicit? type v = none)
    (hkey : placeholder? a.entities type a.now v = some key) :
    result = .ok (some [key]) ∧ a' = a := by
  cases h with
  | explicit hwords =>
      rw [hexplicit] at hwords
      cases hwords
  | known hknown =>
      rw [hknown] at hkey
      cases hkey
      exact ⟨rfl, rfl⟩
  | issued _ _ hnew =>
      rw [hnew] at hkey
      cases hkey
  | refused _ hnew =>
      rw [hnew] at hkey
      cases hkey

/-- A successful request comes back with the placeholder that the value has by then, if what is
made of the value stands for it. -/
theorem LooksUp.exists_placeholder?
    {found : Option (List String)} (h : a.LooksUp type v (.ok found) a') (hahead : a.IsAhead)
    (hexplicit : a.explicit? type v = none)
    (hself : ∀ e, ofValue? type a.now v = some e → e.denotes type a.now v = true) :
    ∃ key, found = some [key] ∧ placeholder? a'.entities type a.now v = some key := by
  cases h with
  | explicit hwords =>
      rw [hexplicit] at hwords
      cases hwords
  | @known key hknown => exact ⟨key, rfl, hknown⟩
  | @issued entity hentity hlimit hnew =>
      have hanswers : answers type a.now v (numbered type (a.offset type), entity) = true := by
        rw [answers_iff]
        exact ⟨typeOf_numbered _ _, hself entity hentity⟩
      exact ⟨_, rfl, placeholder?_insert_of_none (hahead.not_mem_keys hlimit) hnew hanswers⟩

/-- An allocator goes on at the moment, with its placeholders in their order. -/
structure IsOrderly (now : Moment) (a : Allocator) : Prop where
  isAhead : a.IsAhead
  sorted : a.entities.keys.Pairwise (· < ·)
  now_eq : a.now = now

theorem IsOrderly.nodup
    {now : Moment} (h : a.IsOrderly now) :
    a.entities.keys.Nodup :=
  h.sorted.imp ne_of_lt

theorem IsOrderly.issued
    {now : Moment} (h : a.IsOrderly now) (type : String) (entity : Entity) :
    (a.issued type entity).IsOrderly now where
  isAhead := h.isAhead.issued type entity
  sorted := Keyed.pairwise_keys_insert h.sorted _ _
  now_eq := h.now_eq

end Allocator

namespace EntityFinder

open Allocator Entity

/-- What no call takes away holds after all of them. -/
theorem afterCalls_keep
    {P : Allocator → Prop} (calls : List FindCall)
    (hcall : ∀ call ∈ calls, ∀ a result a', P a → a.Finds call.type call.value result a' → P a')
    {s : Session EntityFinder} {a : Allocator} (hs : s.state = .allocator a) (ha : P a) :
    ∃ a', (afterCalls s calls).state = .allocator a' ∧ P a' := by
  induction calls generalizing s a with
  | nil => exact ⟨a, hs, ha⟩
  | cons call calls ih =>
      obtain ⟨next, hnext, hfinds⟩ := answer_finds hs call
      have hkept : P next := hcall call List.mem_cons_self a _ next ha hfinds
      exact ih (fun later hlater => hcall later (List.mem_cons_of_mem _ hlater)) hnext hkept

variable {s : Session EntityFinder} {a : Allocator} {calls : List FindCall} {type key : String}
  {now : Moment}

/-- A placeholder that some calls have brought was given out by one of them. -/
theorem gaveOut_of_mem_keys
    {n : Nat} (hnew : numbered type n ∉ s.state.entities.keys)
    (hmem : numbered type n ∈ (afterCalls s calls).state.entities.keys) :
    GaveOut s calls type n := by
  induction calls generalizing s with
  | nil => exact absurd hmem hnew
  | cons call calls ih =>
      by_cases hfirst : numbered type n ∈ (answer s call).2.state.entities.keys
      · exact ⟨[], call, calls, rfl, hnew, hfirst⟩
      · obtain ⟨earlier, given, later, rfl, hbefore, hafter⟩ := ih hfirst hmem
        exact ⟨call :: earlier, given, later, rfl, hbefore, hafter⟩

/-- The placeholders that calls bring have numbers. -/
theorem exists_numbered
    (hs : s.state = .allocator a) (hnew : key ∉ s.state.entities.keys)
    (hmem : key ∈ (afterCalls s calls).state.entities.keys) :
    ∃ n, key = numbered (typeOf key) n := by
  have hkept : key ∈ a.entities.keys → ∃ n, key = numbered (typeOf key) n := by
    intro hold
    rw [hs] at hnew
    exact absurd hold hnew
  obtain ⟨a', ha', hnumber⟩ := afterCalls_induction
    (P := fun a => key ∈ a.entities.keys → ∃ n, key = numbered (typeOf key) n)
    (fun a type entity h _ hissued => by
      rcases mem_keys_issued.mp hissued with rfl | hold
      · rw [typeOf_numbered]
        exact ⟨_, rfl⟩
      · exact h hold)
    hs hkept calls
  rw [ha'] at hmem
  exact hnumber hmem

/-- Calls keep the order and all entities. -/
theorem exists_isOrderly
    (hs : s.state = .allocator a) (ha : a.IsOrderly now) (calls : List FindCall) :
    ∃ a', (afterCalls s calls).state = .allocator a' ∧ a'.IsOrderly now ∧
      Keeps a.entities a'.entities :=
  afterCalls_induction
    (P := fun a' => a'.IsOrderly now ∧ Keeps a.entities a'.entities)
    (fun _ type entity h hlimit =>
      ⟨h.1.issued type entity, h.2.trans fun _ _ => h.1.isAhead.find?_issued hlimit⟩)
    hs ⟨ha, .refl _⟩ calls

/-- A placeholder is given out for a value that none of the entities at the start stands for. -/
theorem GaveOut.exists_sought
    (hs : s.state = .allocator a) (ha : a.IsOrderly now) {n : Nat}
    (hgave : GaveOut s calls type n) :
    ∃ sought entity, ofValue? type now sought = some entity ∧
      Keyed.find? (numbered type n) (afterCalls s calls).state.entities =
        some entity ∧
      ∀ key e, Keyed.find? key a.entities = some e →
        ¬ answers type now sought (key, e) = true := by
  obtain ⟨earlier, call, later, rfl, hbefore, hafter⟩ := hgave
  obtain ⟨mid, hmid, horderly, hkeeps⟩ := exists_isOrderly hs ha earlier
  obtain ⟨next, hnext, hfinds⟩ := answer_finds hmid call
  have hstep : afterCalls s (earlier ++ [call]) =
      (answer (afterCalls s earlier) call).2 :=
    afterCalls_append s earlier [call]
  rw [hstep, hnext] at hafter
  rw [hmid] at hbefore
  rcases hfinds.eq_or_sought with rfl | ⟨sought, entity, -, hnone, hentity, hlimit, rfl⟩
  · exact absurd hafter hbefore
  have hgiven : numbered type n = numbered call.type (mid.offset call.type) :=
    (mem_keys_issued.mp hafter).resolve_right hbefore
  have htype : type = call.type := by
    rw [← typeOf_numbered type n, hgiven, typeOf_numbered]
  subst htype
  rw [horderly.now_eq] at hnone hentity
  refine ⟨sought, entity, hentity, ?_, ?_⟩
  · have happend : earlier ++ call :: later = (earlier ++ [call]) ++ later := by simp
    rw [happend, afterCalls_append, hstep]
    apply find?_afterCalls hnext (horderly.isAhead.issued _ _)
    rw [hnext, hgiven]
    exact Keyed.find?_insert_self _ _ _
  · intro key e hfind
    exact placeholder?_eq_none_iff.mp hnone _ (Keyed.mem_of_find? (hkeeps key e hfind))

/-- Calls change the placeholder of a value exactly if one of them gives out a placeholder in
front of it, to an entity that stands for the value as well. -/
theorem placeholder?_changes_iff
    {b : Allocator} {v : Value} {later : String} (hs : s.state = .allocator a)
    (ha : a.IsOrderly now) (hb : (afterCalls s calls).state = .allocator b)
    (hkey : placeholder? a.entities type now v = some key)
    (hlater : placeholder? b.entities type now v = some later) :
    later ≠ key ↔ ∃ n entity, GaveOut s calls type n ∧ numbered type n < key ∧
      Keyed.find? (numbered type n) b.entities = some entity ∧
        entity.denotes type now v = true := by
  obtain ⟨b', hb', horderly, hkeeps⟩ := exists_isOrderly hs ha calls
  obtain rfl : b' = b := EntityFinder.allocator.inj (hb'.symm.trans hb)
  constructor
  · intro hne
    obtain ⟨known, hmem, hknown⟩ := exists_mem_of_placeholder? hkey
    obtain ⟨entity, hentity, hstands⟩ := exists_mem_of_placeholder? hlater
    have hfound := Keyed.find?_of_mem horderly.nodup hentity
    have hstill := hkeeps key known (Keyed.find?_of_mem ha.nodup hmem)
    have hle : later ≤ key := placeholder?_le horderly.sorted hlater
      (Keyed.mem_of_find? hstill) hknown
    have hlt : later < key := lt_of_le_of_ne hle hne
    -- It was not there before the calls, or it would have been found instead.
    have hnew : later ∉ a.entities.keys := by
      intro hold
      obtain ⟨old, hfind⟩ := Keyed.exists_find?_of_mem_keys hold
      have hsame : old = entity := Option.some.inj ((hkeeps later old hfind).symm.trans hfound)
      rw [hsame] at hfind
      have hge := placeholder?_le ha.sorted hkey (Keyed.mem_of_find? hfind) hstands
      exact absurd hlt (not_lt.mpr hge)
    obtain ⟨htype, hdenotes⟩ := answers_iff.mp hstands
    have hbefore : later ∉ s.state.entities.keys := by
      rw [hs]
      exact hnew
    have hafter : later ∈ (afterCalls s calls).state.entities.keys := by
      rw [hb]
      exact Keyed.mem_keys_of_find? hfound
    obtain ⟨n, hn⟩ := exists_numbered hs hbefore hafter
    rw [htype] at hn
    subst hn
    exact ⟨n, entity, gaveOut_of_mem_keys hbefore hafter, hlt, hfound, hdenotes⟩
  · rintro ⟨n, entity, -, hlt, hfound, hdenotes⟩ rfl
    have hle := placeholder?_le horderly.sorted hlater (Keyed.mem_of_find? hfound)
      (answers_iff.mpr ⟨typeOf_numbered type n, hdenotes⟩)
    exact absurd hlt (not_lt.mpr hle)

/-- A value that has a placeholder has one after all calls. -/
theorem exists_placeholder?_afterCalls
    {v : Value} (hs : s.state = .allocator a) (ha : a.IsOrderly now)
    (hkey : placeholder? a.entities type now v = some key) (calls : List FindCall) :
    ∃ b later, (afterCalls s calls).state = .allocator b ∧ b.IsOrderly now ∧
      placeholder? b.entities type now v = some later := by
  obtain ⟨b, hb, horderly, hkeeps⟩ := exists_isOrderly hs ha calls
  obtain ⟨known, hmem, hknown⟩ := exists_mem_of_placeholder? hkey
  have hstill := hkeeps key known (Keyed.find?_of_mem ha.nodup hmem)
  cases hlater : placeholder? b.entities type now v with
  | some later => exact ⟨b, later, hb, horderly, hlater⟩
  | none =>
      exact absurd hknown (placeholder?_eq_none_iff.mp hlater _ (Keyed.mem_of_find? hstill))

end EntityFinder

end SkillLang

import SkillLang.Proofs.Entities.Reuse

/-!
# Generic entities

Generic entities are the same if their identifiers are or, where one of them has no identifier,
if their names are.  So an entity can be the same as two others that are not the same, and the
placeholder of an entity can change: it is the first one in the order of texts, in which the
tenth of a type comes before the ninth.  Between two requests for an entity its placeholder changes
exactly if another entity that is the same as it gets one in front.
-/

namespace SkillLang

namespace Entity

variable {type : String} {now : Moment} {v : Value} {e : Entity} {r : EntityRef}
  {value display otherValue otherDisplay : Option String}

/-- An entity that has anything to be known by is the same as itself. -/
theorem sameGeneric_self
    (h : value.isSome = true ∨ display.isSome = true) :
    sameGeneric value display value display = true := by
  cases value with
  | some a => simp [sameGeneric]
  | none =>
      cases display with
      | some a => simp [sameGeneric]
      | none =>
          rcases h with h | h
          · cases h
          · cases h

/-- What is the same as an entity with an identifier has that identifier, unless they are told
by their names. -/
theorem eq_some_of_sameGeneric
    {a : String} (h : sameGeneric (some a) display otherValue otherDisplay = true)
    (hnames : display = none ∨ otherValue.isSome = true) :
    otherValue = some a := by
  cases otherValue with
  | some b =>
      rw [sameGeneric, beq_iff_eq] at h
      rw [h]
  | none =>
      rcases hnames with rfl | hsome
      · cases h
      · cases hsome

/-- Only generic entities stand for an entity that is more than a string. -/
theorem denotes_entity_iff
    (htype : stringKind? type = none) :
    e.denotes type now (.entity r) = true ↔
      ∃ value display, e = generic value display ∧
        sameGeneric r.value r.display value display = true := by
  constructor
  · intro hdenotes
    cases e with
    | generic value display => exact ⟨value, display, rfl, hdenotes⟩
    | string s =>
        have hstring : (string s).denotes type now (.entity r) =
            ((stringKind? type).isSome && r.value == some s) := rfl
        rw [hstring, htype] at hdenotes
        cases hdenotes
    | _ => cases hdenotes
  · rintro ⟨value, display, rfl, hsame⟩
    exact hsame

/-- Generic entities are made of entities only. -/
theorem eq_entity_of_ofValue?
    (h : ofValue? type now v = some (generic value display)) :
    ∃ r : EntityRef, v = .entity r ∧ r.value = value := by
  cases makes_of_ofValue? h with
  | generic r _ => exact ⟨r, rfl, rfl⟩

/-- The entity that is made of an entity stands for it. -/
theorem denotes_of_ofValue?_entity
    (htype : stringKind? type = none) (hnamed : r.value.isSome = true ∨ r.display.isSome = true)
    (h : ofValue? type now (.entity r) = some e) :
    e.denotes type now (.entity r) = true := by
  rw [ofValue?, htype] at h
  cases h
  exact (denotes_entity_iff htype).mpr ⟨_, _, rfl, sameGeneric_self hnamed⟩

/-- What stands for an entity with an identifier is of that identifier, if the entity has no name
or what stands for it an identifier. -/
theorem eq_generic_of_denotes
    (htype : stringKind? type = none) {a : String} (hvalue : r.value = some a)
    (hdenotes : e.denotes type now (.entity r) = true)
    (hnames : r.display = none ∨ e.isIdentified = true) :
    ∃ display, e = generic (some a) display := by
  obtain ⟨value, display, rfl, hsame⟩ := (denotes_entity_iff htype).mp hdenotes
  rw [hvalue] at hsame
  obtain rfl : value = some a := eq_some_of_sameGeneric hsame hnames
  exact ⟨display, rfl⟩

end Entity

namespace EntityFinder

open Allocator Entity

/-- No entity of the same identifier is added where there is one, so that calls leave the
placeholder of an entity as it is if names play no part. -/
theorem placeholder?_eq_of_identified
    {s : Session EntityFinder} {a b : Allocator} {calls : List FindCall}
    {type key later : String} {r : EntityRef} {now : Moment} (hs : s.state = .allocator a)
    (ha : a.IsOrderly now) (hb : (afterCalls s calls).state = .allocator b)
    (htype : stringKind? type = none)
    (hvalue : r.value.isSome = true)
    (hnames : r.display = none ∨
      ∀ entry ∈ b.entities, typeOf entry.1 = type → entry.2.isIdentified = true)
    (hkey : placeholder? a.entities type now (.entity r) = some key)
    (hlater : placeholder? b.entities type now (.entity r) = some later) :
    later = key := by
  by_contra hne
  obtain ⟨id, hid⟩ := Option.isSome_iff_exists.mp hvalue
  have hidentified : ∀ {key e}, Keyed.find? key b.entities = some e → typeOf key = type →
      e.denotes type now (.entity r) = true → ∃ display, e = generic (some id) display := by
    intro key e hfind hkeyType hdenotes
    refine eq_generic_of_denotes htype hid hdenotes (hnames.imp_right ?_)
    intro hall
    exact hall (key, e) (Keyed.mem_of_find? hfind) hkeyType
  obtain ⟨n, entity, hgave, -, hentity, hdenotes⟩ :=
    (placeholder?_changes_iff hs ha hb hkey hlater).mp hne
  obtain ⟨sought, made, hmade, hgiven, hnone⟩ := hgave.exists_sought hs ha
  obtain ⟨display, rfl⟩ := hidentified hentity (typeOf_numbered type n) hdenotes
  rw [hb] at hgiven
  obtain rfl : made = generic (some id) display :=
    Option.some.inj (hgiven.symm.trans hentity)
  obtain ⟨q, rfl, hqValue⟩ := eq_entity_of_ofValue? hmade
  -- The entity that was known at the start would have been found for the new one.
  obtain ⟨known, hmem, hknown⟩ := exists_mem_of_placeholder? hkey
  obtain ⟨hknownType, hstands⟩ := answers_iff.mp hknown
  have hfind := Keyed.find?_of_mem ha.nodup hmem
  obtain ⟨b', hb', -, hkeeps⟩ := exists_isOrderly hs ha calls
  obtain rfl : b' = b := EntityFinder.allocator.inj (hb'.symm.trans hb)
  obtain ⟨name, rfl⟩ := hidentified (hkeeps key known hfind) hknownType hstands
  apply hnone key _ hfind
  rw [answers_iff, denotes_entity_iff htype]
  refine ⟨hknownType, some id, name, rfl, ?_⟩
  rw [hqValue, sameGeneric, beq_self_eq_true]

/-- The second of two requests for a generic entity comes back with another placeholder than the
first one exactly if, in between, an entity that is the same as it gets a placeholder in front.
That does not happen to an entity with an identifier that has no name, or as long as all entities
of the type have identifiers. -/
theorem generic_placeholder_changes
    {entities : EntityMap} (hkeys : entities.keys.Pairwise (· < ·)) (explicitStrings : Bool)
    (now : Moment) (log : Array Event) (earlier between : List FindCall) {type : String}
    (htype : stringKind? type = none) {r : EntityRef}
    (hnamed : r.value.isSome = true ∨ r.display.isSome = true) (options again : FindOptions) :
    let start := afterCalls (allocating entities explicitStrings now log) earlier
    let next := (answer start ⟨type, .entity r, options⟩).2
    let later := afterCalls next between
    ∀ found, (answer start ⟨type, .entity r, options⟩).1 = .ok found →
      ∃ key placeholder, found = some [key] ∧
        (answer later ⟨type, .entity r, again⟩).1 = .ok (some [placeholder]) ∧
        (placeholder ≠ key ↔ ∃ n value display, GaveOut next between type n ∧
          numbered type n < key ∧
          Keyed.find? (numbered type n) later.state.entities = some (.generic value display) ∧
            sameGeneric r.value r.display value display = true) ∧
        (r.value.isSome = true → (r.display = none ∨
          ∀ entry ∈ later.state.entities, typeOf entry.1 = type → entry.2.isIdentified = true) →
            placeholder = key) := by
  intro start next later found hfound
  have hexplicit : ∀ a : Allocator, a.explicit? type (.entity r) = none := fun _ => rfl
  have hnumber : ∀ x, Value.entity r ≠ .number x := fun _ => Value.noConfusion
  have horderly : (Allocator.of entities explicitStrings now).IsOrderly now :=
    ⟨isAhead_of entities explicitStrings now, hkeys, rfl⟩
  obtain ⟨a, hstart, ha, -⟩ := exists_isOrderly
    (s := allocating entities explicitStrings now log) rfl horderly earlier
  -- The first request leaves the entity with its placeholder.
  obtain ⟨a₁, hnext, hfinds⟩ := answer_finds hstart ⟨type, .entity r, options⟩
  obtain ⟨a₁', hnext', ha₁, -⟩ := exists_isOrderly hstart ha [⟨type, .entity r, options⟩]
  obtain rfl : a₁' = a₁ := EntityFinder.allocator.inj (hnext'.symm.trans hnext)
  rw [hfound] at hfinds
  obtain ⟨key, hkey, hplaceholder⟩ := (hfinds.looksUp hnumber).exists_placeholder? ha.isAhead
    (hexplicit a) fun e => denotes_of_ofValue?_entity htype hnamed
  rw [ha.now_eq] at hplaceholder
  -- The second one is answered with the placeholder that it has by then.
  obtain ⟨a₂, placeholder, hlater, ha₂, hthen⟩ :=
    exists_placeholder?_afterCalls hnext ha₁ hplaceholder between
  obtain ⟨a₃, -, hlast⟩ := answer_finds hlater ⟨type, .entity r, again⟩
  have hknown : placeholder? a₂.entities type a₂.now (.entity r) = some placeholder := by
    rw [ha₂.now_eq]
    exact hthen
  have hanswer := ((hlast.looksUp hnumber).known_eq (hexplicit a₂) hknown).1
  refine ⟨key, placeholder, hkey, hanswer, ?_, ?_⟩
  · rw [placeholder?_changes_iff hnext ha₁ hlater hplaceholder hthen]
    have hentities : later.state.entities = a₂.entities := congrArg EntityFinder.entities hlater
    rw [hentities]
    constructor
    · rintro ⟨n, entity, hgave, hlt, hfind, hdenotes⟩
      obtain ⟨value, display, rfl, hsame⟩ := (denotes_entity_iff htype).mp hdenotes
      exact ⟨n, value, display, hgave, hlt, hfind, hsame⟩
    · rintro ⟨n, value, display, hgave, hlt, hfind, hsame⟩
      exact ⟨n, _, hgave, hlt, hfind, (denotes_entity_iff htype).mpr ⟨value, display, rfl, hsame⟩⟩
  · intro hvalue hnames
    rw [congrArg EntityFinder.entities hlater] at hnames
    exact placeholder?_eq_of_identified hnext ha₁ hlater htype hvalue hnames hplaceholder hthen

/-! ### Contacts -/

namespace Contacts

/-- The contact that is known has the ninth placeholder, so that the next one is put in front. -/
def entities : EntityMap :=
  [("GENERIC_ENTITY_tt:contact_9", .generic (some "ann") none)]

def now : Moment :=
  ⟨0, 0, 0⟩

def request (value display : Option String) : FindCall :=
  ⟨"GENERIC_ENTITY_tt:contact", .entity ⟨value, "tt:contact", display⟩, {}⟩

end Contacts

open Contacts

/-- A contact with an identifier and a name changes its placeholder when there is another one with
that name only. -/
theorem contact_changes :
    let start := allocating Contacts.entities false Contacts.now #[]
    let ann := Contacts.request (some "ann") (some "Ann")
    let next := (answer start ann).2
    let later := afterCalls next [Contacts.request none (some "Ann")]
    (answer start ann).1 = .ok (some ["GENERIC_ENTITY_tt:contact_9"]) ∧
      (answer later ann).1 = .ok (some ["GENERIC_ENTITY_tt:contact_10"]) := by
  decide +kernel

theorem contact_keeps :
    let start := allocating Contacts.entities false Contacts.now #[]
    let ann := Contacts.request (some "ann") none
    let next := (answer start ann).2
    let later := afterCalls next [Contacts.request none (some "Ann"),
      Contacts.request (some "bob") (some "Ann")]
    Contacts.entities.keys.Pairwise (· < ·) ∧
      stringKind? "GENERIC_ENTITY_tt:contact" = none ∧
      (answer start ann).1 = .ok (some ["GENERIC_ENTITY_tt:contact_9"]) ∧
      ∃ placeholder, (answer later ann).1 = .ok (some [placeholder]) ∧
        placeholder = "GENERIC_ENTITY_tt:contact_9" := by
  intro start ann next later
  have hkeys : Contacts.entities.keys.Pairwise (· < ·) := by decide
  have htype : stringKind? "GENERIC_ENTITY_tt:contact" = none := rfl
  have hfound : (answer start ann).1 = .ok (some ["GENERIC_ENTITY_tt:contact_9"]) := by
    decide +kernel
  obtain ⟨key, placeholder, hkey, hanswer, -, hkept⟩ :=
    generic_placeholder_changes hkeys false Contacts.now #[] []
      [Contacts.request none (some "Ann"), Contacts.request (some "bob") (some "Ann")] htype
      (.inl rfl) {} {} _ hfound
  cases hkey
  exact ⟨hkeys, htype, hfound, placeholder, hanswer, hkept rfl (.inl rfl)⟩

end EntityFinder

end SkillLang

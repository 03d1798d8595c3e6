import SkillLang.Proofs.Entities.Reuse

/-!
# Entities that are counted one by one

Quoted strings, entities that are nothing but strings, and times of day are told apart by what
they are made of.  An allocator has one placeholder for each of them: two requests get the same
placeholder exactly if they are for the same one, whatever is asked for in between.
-/

namespace SkillLang

namespace Entity

def isGeneric : Entity → Bool
  | generic _ _ => true
  | _ => false

/-- The entities of the type are nothing but strings.  Quoted strings are not entities. -/
def isStringLike (type : String) : Bool :=
  (stringKind? type).any fun kind => !kind.isEmpty

/-- What a quoted string, an entity that is nothing but a string, or a time of day is counted as
under its type. -/
def counted? (type : String) : Value → Option Entity
  | .string s => if type = "QUOTED_STRING" then some (string s) else none
  | .entity e => if isStringLike type = true then e.value.map string else none
  | .time (.absolute hour minute second) =>
    if type = "TIME" then some (time hour minute second) else none
  | _ => none

/-- What an entity is counted as under a type: under the types of strings, a generic entity with an
identifier counts as that string. -/
def countedAs (type : String) : Entity → Entity
  | generic (some s) display =>
    if isStringLike type = true then string s else generic (some s) display
  | e => e

/-- A value is counted under a type. -/
inductive Counted (type : String) : Value → Entity → Prop
  | quoted (s : String) (htype : type = "QUOTED_STRING") : Counted type (.string s) (string s)
  | stringLike (e : EntityRef) (s : String) (hvalue : e.value = some s)
      (htype : isStringLike type = true) : Counted type (.entity e) (string s)
  | time (hour minute second : Nat) (htype : type = "TIME") :
      Counted type (.time (.absolute hour minute second)) (time hour minute second)

theorem counted_of_counted?
    {type : String} {v : Value} {c : Entity} (h : counted? type v = some c) :
    Counted type v c := by
  unfold counted? at h
  split at h
  next s =>
      split at h
      next htype =>
          cases h
          exact .quoted s htype
      next => cases h
  next e =>
      split at h
      next htype =>
          obtain ⟨s, hvalue, rfl⟩ := Option.map_eq_some_iff.mp h
          exact .stringLike e s hvalue htype
      next => cases h
  next hour minute second =>
      split at h
      next htype =>
          cases h
          exact .time hour minute second htype
      next => cases h
  next => cases h

theorem isSome_stringKind?
    {type : String} (h : isStringLike type = true) :
    (stringKind? type).isSome = true := by
  rw [isStringLike, Option.any_eq_true] at h
  obtain ⟨kind, hkind, -⟩ := h
  rw [hkind]
  rfl

variable {type : String} {now : Moment} {v : Value} {c e : Entity}

theorem Counted.ofValue?_eq
    (h : Counted type v c) :
    ofValue? type now v = some c := by
  cases h with
  | quoted s htype => rfl
  | stringLike r s hvalue htype =>
      rw [ofValue?, if_pos (isSome_stringKind? htype), hvalue]
      rfl
  | time hour minute second htype => rfl

/-- A string stands for the values with that text under the types of strings. -/
theorem denotes_string_iff
    {s t : String} (htype : (stringKind? type).isSome = true) (htext : textOf? v = some s) :
    (string t).denotes type now v = true ↔ string t = string s := by
  have hdenotes : (string t).denotes type now v =
      ((stringKind? type).isSome && textOf? v == some t) := by
    cases v with
    | string _ => rfl
    | entity _ => rfl
    | _ => cases htext
  rw [hdenotes, htype, htext, Bool.true_and, beq_iff_eq, Option.some_inj, string.injEq]
  exact eq_comm

theorem countedAs_of_not_generic
    (h : isStringLike type = true → e.isGeneric = false) :
    e.countedAs type = e := by
  cases e with
  | generic value display =>
      cases value with
      | none => rfl
      | some s =>
          rw [countedAs, if_neg]
          intro hstring
          cases h hstring
  | _ => rfl

theorem isIdentified_of_not_generic
    (h : e.isGeneric = false) :
    e.isIdentified = true := by
  cases e with
  | generic _ _ => cases h
  | _ => rfl

/-- Apart from entities that have only a name, what stands for a value are the entities that are
counted as the same. -/
theorem Counted.denotes_iff
    (h : Counted type v c) (hnamed : isStringLike type = true →
      e.isIdentified = true ∨ e.denotes type now v = false) :
    e.denotes type now v = true ↔ e.countedAs type = c := by
  cases h with
  | quoted s htype =>
      subst htype
      rw [countedAs_of_not_generic (fun hstring => by cases hstring)]
      cases e with
      | string t => exact denotes_string_iff rfl rfl
      | _ => simp [denotes]
  | stringLike r s hvalue htype =>
      cases e with
      | string t => exact denotes_string_iff (isSome_stringKind? htype) hvalue
      | generic value display =>
          cases value with
          | some t =>
              have hdenotes : (generic (some t) display).denotes type now (.entity r) =
                  sameGeneric r.value r.display (some t) display := rfl
              rw [hdenotes, hvalue, sameGeneric, countedAs, if_pos htype, beq_iff_eq,
                string.injEq]
              exact eq_comm
          | none =>
              -- What has only a name counts as itself, and by hypothesis does not stand for the
              -- value either.
              rcases hnamed htype with hidentified | hdenotes
              · cases hidentified
              · have hsame : (generic none display).countedAs type = generic none display := rfl
                rw [hdenotes, hsame]
                simp
      | _ => simp [denotes, countedAs]
  | time hour minute second htype =>
      subst htype
      rw [countedAs_of_not_generic (fun hstring => by cases hstring)]
      cases e with
      | time h m s =>
          have hdenotes : (Entity.time h m s).denotes "TIME" now
              (.time (.absolute hour minute second)) =
                (hour == h && minute == m && second == s) := rfl
          rw [hdenotes, Bool.and_eq_true, Bool.and_eq_true, beq_iff_eq, beq_iff_eq, beq_iff_eq,
            Entity.time.injEq, and_assoc]
          exact ⟨fun h => ⟨h.1.symm, h.2.1.symm, h.2.2.symm⟩,
            fun h => ⟨h.1.symm, h.2.1.symm, h.2.2.symm⟩⟩
      | _ => simp [denotes, stringKind?]

/-- Generic entities are not made under the types of strings. -/
theorem isGeneric_of_ofValue?
    (htype : isStringLike type = true) (h : ofValue? type now v = some e) :
    e.isGeneric = false := by
  cases makes_of_ofValue? h with
  | generic _ hkind => exact absurd (isSome_stringKind? htype) hkind
  | _ => rfl

/-- A value fits a type, given the entities that there were at the start.  Dates do not fit the
types of strings, which would be read as dates, and quoted strings only fit the types of strings
that have no generic entities, which no text stands for. -/
def Fits (entities : EntityMap) (type : String) : Value → Prop
  | .date _ => stringKind? type = none
  | .string _ => isStringLike type = true →
      ∀ entry ∈ entities, typeOf entry.1 = type → entry.2.isGeneric = false
  | _ => True

/-- What is counted as a string stands for the entities with that identifier. -/
theorem denotes_entity_of_countedAs
    {r : EntityRef} {s : String} (htype : (stringKind? type).isSome = true)
    (hvalue : r.value = some s) (hcounted : e.countedAs type = string s) :
    e.denotes type now (.entity r) = true := by
  cases e with
  | generic value display =>
      cases value with
      | none => cases hcounted
      | some t =>
          rw [countedAs] at hcounted
          split at hcounted
          next =>
              cases hcounted
              have hdenotes : (generic (some s) display).denotes type now (.entity r) =
                  sameGeneric r.value r.display (some s) display := rfl
              rw [hdenotes, hvalue, sameGeneric, beq_self_eq_true]
          next => cases hcounted
  | string t =>
      cases hcounted
      have htext : textOf? (.entity r) = some s := hvalue
      exact (denotes_string_iff htype htext).mpr rfl
  | _ => cases hcounted

/-- An entity that is counted as something stands for all fitting values that this is made of. -/
theorem Counted.denotes_of_ofValue?
    (h : Counted type v c) {sought : Value} (hsought : ofValue? type now sought = some c)
    {entities : EntityMap} (hfits : Fits entities type sought) (hcounted : e.countedAs type = c)
    (hgeneric : isStringLike type = true → e.isGeneric = true →
      ∃ key, typeOf key = type ∧ (key, e) ∈ entities) :
    e.denotes type now sought = true := by
  have hstring : ∀ s, c = string s → (stringKind? type).isSome = true →
      e.denotes type now sought = true := by
    rintro s rfl hkind
    cases makes_of_ofValue? hsought with
    | string s =>
        have hnot : isStringLike type = true → e.isGeneric = false := by
          intro hlike
          by_contra hne
          rw [Bool.not_eq_false] at hne
          obtain ⟨key, hkey, hmem⟩ := hgeneric hlike hne
          have hnone := hfits hlike (key, e) hmem hkey
          exact absurd (hnone.symm.trans hne) Bool.false_ne_true
        rw [countedAs_of_not_generic hnot] at hcounted
        rw [hcounted]
        exact (denotes_string_iff hkind rfl).mpr rfl
    | stringLike r s _ hvalue => exact denotes_entity_of_countedAs hkind hvalue hcounted
    | date d moment hmoment =>
        rw [Fits] at hfits
        rw [hfits] at hkind
        cases hkind
  cases h with
  | quoted s htype =>
      apply hstring s rfl
      rw [htype]
      rfl
  | stringLike r s hvalue htype => exact hstring s rfl (isSome_stringKind? htype)
  | time hour minute second htype =>
      subst htype
      rw [countedAs_of_not_generic (fun hlike => by cases hlike)] at hcounted
      cases makes_of_ofValue? hsought with
      | time _ _ _ =>
          rw [hcounted]
          simp [denotes]

/-- What is counted fits. -/
theorem Counted.fits
    (h : Counted type v c) (entities : EntityMap) :
    Fits entities type v := by
  cases h with
  | quoted s htype =>
      intro hlike
      rw [htype] at hlike
      cases hlike
  | stringLike _ _ _ _ | time _ _ _ _ => trivial

/-- A value is counted under a type, and no entity with only a name stands for it. -/
structure IsTold (entities : EntityMap) (type : String) (now : Moment) (v : Value) (c : Entity) :
    Prop where
  counted : Counted type v c
  named : isStringLike type = true → ∀ entry ∈ entities, typeOf entry.1 = type →
    entry.2.isIdentified = true ∨ entry.2.denotes type now v = false

end Entity

namespace Allocator

open Entity

variable {now : Moment} {type key : String} {v : Value} {c : Entity} {a a' : Allocator}
  {entities : EntityMap}

/-- The allocator serves, and generic entities stand under a type of strings only if they did at
the start. -/
structure IsCounting (now : Moment) (entities : EntityMap) (type : String) (a : Allocator) :
    Prop where
  isServing : a.IsServing now
  mem_of_generic : isStringLike type = true → ∀ entry ∈ a.entities, typeOf entry.1 = type →
    entry.2.isGeneric = true → entry ∈ entities

theorem IsCounting.finds
    (h : a.IsCounting now entities type) {other : String} {w : Value}
    {result : Except EntityError (Option (List String))} (hfinds : a.Finds other w result a') :
    a'.IsCounting now entities type where
  isServing := (h.isServing.finds hfinds).1
  mem_of_generic := by
    intro hstring entry hentry htype hgeneric
    rcases hfinds.eq_or_sought with rfl | ⟨sought, entity, -, -, hentity, -, rfl⟩
    · exact h.mem_of_generic hstring entry hentry htype hgeneric
    · rcases Keyed.mem_of_mem_insert hentry with rfl | hold
      · rw [typeOf_numbered] at htype
        rw [htype] at hentity
        rw [isGeneric_of_ofValue? hstring hentity] at hgeneric
        cases hgeneric
      · exact h.mem_of_generic hstring entry hold htype hgeneric

/-- The entries that stand for a value are those that are counted as the same. -/
theorem IsCounting.answers_iff
    (h : a.IsCounting now entities type) (htold : IsTold entities type now v c)
    {entry : String × Entity} (hentry : entry ∈ a.entities) :
    answers type now v entry = true ↔ typeOf entry.1 = type ∧ entry.2.countedAs type = c := by
  rw [Entity.answers_iff, and_congr_right_iff]
  intro htype
  apply htold.counted.denotes_iff
  intro hstring
  by_cases hgeneric : entry.2.isGeneric = true
  · exact htold.named hstring entry (h.mem_of_generic hstring entry hentry htype hgeneric) htype
  · rw [Bool.not_eq_true] at hgeneric
    exact .inl (isIdentified_of_not_generic hgeneric)

/-- A value keeps its placeholder in every call, unless what is asked for does not fit. -/
theorem IsCounting.placeholder?_kept
    (h : a.IsCounting now entities type) (htold : IsTold entities type now v c)
    (hkey : placeholder? a.entities type now v = some key) {other : String} {w : Value}
    {result : Except EntityError (Option (List String))} (hfinds : a.Finds other w result a')
    (hfits : other = type → Fits entities type w) :
    placeholder? a'.entities type now v = some key := by
  rcases hfinds.eq_or_sought with rfl | ⟨sought, entity, hsought, hnone, hentity, hlimit, rfl⟩
  · exact hkey
  rw [h.isServing.now_eq] at hnone hentity
  have hnew := h.isServing.isAhead.not_mem_keys hlimit
  refine (placeholder?_insert_of_not hnew ?_).trans hkey
  -- A new entity for the value would stand for what is sought, and so would the known one.
  intro hanswers
  obtain ⟨htype, hdenotes⟩ := Entity.answers_iff.mp hanswers
  rw [typeOf_numbered] at htype
  subst htype
  have hgeneric : isStringLike other = true → entity.isGeneric = false :=
    fun hstring => isGeneric_of_ofValue? hstring hentity
  have hsame : entity = c := by
    rw [htold.counted.denotes_iff fun hstring =>
      .inl (isIdentified_of_not_generic (hgeneric hstring))] at hdenotes
    rw [← hdenotes, countedAs_of_not_generic hgeneric]
  subst hsame
  have hsoughtFits : Fits entities other sought := by
    rcases hsought with rfl | ⟨x, rfl⟩
    · exact hfits rfl
    · trivial
  obtain ⟨known, hmem, hknown⟩ := exists_mem_of_placeholder? hkey
  obtain ⟨hknownType, hknownSame⟩ := (h.answers_iff htold hmem).mp hknown
  have hstands : known.denotes other now sought = true := by
    apply htold.counted.denotes_of_ofValue? hentity hsoughtFits hknownSame
    intro hstring hknownGeneric
    exact ⟨key, hknownType, h.mem_of_generic hstring _ hmem hknownType hknownGeneric⟩
  exact placeholder?_eq_none_iff.mp hnone _ hmem
    (Entity.answers_iff.mpr ⟨hknownType, hstands⟩)

/-- A successful request for a value comes back with its placeholder. -/
theorem IsCounting.exists_placeholder?
    (h : a.IsCounting now entities type) (hcounted : Counted type v c)
    {found : Option (List String)} (hfinds : a.Finds type v (.ok found) a') :
    ∃ key, found = some [key] ∧ placeholder? a'.entities type now v = some key := by
  rw [← h.isServing.now_eq]
  have hlookup : a.LooksUp type v (.ok found) a' := by
    apply hfinds.looksUp
    rintro x rfl
    cases hcounted
  apply hlookup.exists_placeholder? h.isServing.isAhead (h.isServing.explicit?_eq_none _ _)
  intro e he
  have hsame : e = c := Option.some.inj (he.symm.trans hcounted.ofValue?_eq)
  have hgeneric : isStringLike type = true → e.isGeneric = false :=
    fun hstring => isGeneric_of_ofValue? hstring he
  rw [hcounted.denotes_iff fun hstring =>
    .inl (isIdentified_of_not_generic (hgeneric hstring)), countedAs_of_not_generic hgeneric]
  exact hsame

/-- Values have the same placeholder exactly if they are counted as the same. -/
theorem IsCounting.placeholder?_eq_iff
    (h : a.IsCounting now entities type) {w : Value} {d : Entity} {other : String}
    (hc : IsTold entities type now v c) (hd : IsTold entities type now w d)
    (hkey : placeholder? a.entities type now v = some key)
    (hother : placeholder? a.entities type now w = some other) :
    key = other ↔ c = d := by
  constructor
  · rintro rfl
    obtain ⟨e, hmem, hanswers⟩ := exists_mem_of_placeholder? hkey
    obtain ⟨e', hmem', hanswers'⟩ := exists_mem_of_placeholder? hother
    have hfind := Keyed.find?_of_mem h.isServing.nodup hmem
    have hfind' := Keyed.find?_of_mem h.isServing.nodup hmem'
    have hone : e = e' := Option.some.inj (hfind.symm.trans hfind')
    subst hone
    have he : e.countedAs type = c := ((h.answers_iff hc hmem).mp hanswers).2
    have he' : e.countedAs type = d := ((h.answers_iff hd hmem').mp hanswers').2
    exact he.symm.trans he'
  · rintro rfl
    have hcongr : placeholder? a.entities type now v = placeholder? a.entities type now w := by
      apply placeholder?_congr
      intro entry hentry
      rw [Bool.eq_iff_iff, h.answers_iff hc hentry, h.answers_iff hd hentry]
    rw [hkey, hother] at hcongr
    exact Option.some.inj hcongr

end Allocator

namespace EntityFinder

open Allocator Entity

/-- Two requests for values that are counted under a type come back with one placeholder each,
and with the same one exactly if the values are counted as the same.  For that, no entity with
only a name may stand for one of them at the start, and what is asked for under the type in
between must fit. -/
theorem calls_count_injectively
    {entities : EntityMap} (hkeys : entities.keys.Nodup) (now : Moment) (log : Array Event)
    {type : String} (earlier : List FindCall) {between : List FindCall}
    (hbetween : ∀ call ∈ between, call.type = type → Fits entities type call.value)
    {first second : FindCall} (hfirst : first.type = type) (hsecond : second.type = type)
    (hnamed : isStringLike type = true → ∀ entry ∈ entities, typeOf entry.1 = type →
      entry.2.isIdentified = true ∨ (entry.2.denotes type now first.value = false ∧
        entry.2.denotes type now second.value = false))
    {c d : Entity} (hc : counted? type first.value = some c)
    (hd : counted? type second.value = some d) :
    let start := afterCalls (allocating entities false now log) earlier
    let later := afterCalls (answer start first).2 between
    ∀ found again, (answer start first).1 = .ok found → (answer later second).1 = .ok again →
      ∃ key placeholder, found = some [key] ∧ again = some [placeholder] ∧
        (key = placeholder ↔ c = d) := by
  intro start later found again hfound hagain
  have htold : IsTold entities type now first.value c :=
    ⟨counted_of_counted? hc, fun hstring entry hentry htype =>
      (hnamed hstring entry hentry htype).imp_right And.left⟩
  have hother : IsTold entities type now second.value d :=
    ⟨counted_of_counted? hd, fun hstring entry hentry htype =>
      (hnamed hstring entry hentry htype).imp_right And.right⟩
  -- The first value has its placeholder after the first request, and keeps it until the second.
  have hcounting : (Allocator.of entities false now).IsCounting now entities type :=
    ⟨.of hkeys, fun _ _ hentry _ _ => hentry⟩
  obtain ⟨a, hstart, ha⟩ := afterCalls_keep (s := allocating entities false now log) earlier
    (fun _ _ _ _ _ h hfinds => h.finds hfinds) rfl hcounting
  obtain ⟨a₁, hnext, hfinds⟩ := answer_finds hstart first
  rw [hfirst, hfound] at hfinds
  have ha₁ := ha.finds hfinds
  obtain ⟨key, hkey, hplaceholder⟩ := ha.exists_placeholder? htold.counted hfinds
  obtain ⟨a₂, hlater, ha₂, hkept⟩ := afterCalls_keep
    (P := fun a => a.IsCounting now entities type ∧
      placeholder? a.entities type now first.value = some key)
    between
    (fun call hcall _ _ _ h hfinds => ⟨h.1.finds hfinds,
      h.1.placeholder?_kept htold h.2 hfinds (hbetween call hcall)⟩)
    hnext ⟨ha₁, hplaceholder⟩
  obtain ⟨a₃, -, hlast⟩ := answer_finds hlater second
  rw [hsecond, hagain] at hlast
  obtain ⟨placeholder, hsame, hfinal⟩ := ha₂.exists_placeholder? hother.counted hlast
  have hstill := ha₂.placeholder?_kept htold hkept hlast fun _ => hother.counted.fits _
  exact ⟨key, placeholder, hkey, hsame,
    (ha₂.finds hlast).placeholder?_eq_iff htold hother hstill hfinal⟩

/-! ### Tags -/

namespace Tags

/-- The next tag gets a placeholder that comes before that of the first one. -/
def entities : EntityMap :=
  [("HASHTAG_9", .generic (some "rust") (some "Rust")),
    ("QUOTED_STRING_0", .generic none (some "rust"))]

/-- An entity that has only a name stands among the tags. -/
def named : EntityMap :=
  [("HASHTAG_0", .generic none (some "rust"))]

def now : Moment :=
  ⟨0, 0, 0⟩

def request (tag : String) (display : Option String) : FindCall :=
  ⟨"HASHTAG", .entity ⟨some tag, "tt:hashtag", display⟩, {}⟩

end Tags

open Tags

/-- Two tags with the name of an entity that stands among them share its placeholder. -/
theorem named_tags_share :
    let start := allocating named false now #[]
    let first := request "rustlang" (some "Rust")
    let second := request "corrosion" (some "Rust")
    named.keys.Nodup ∧ counted? "HASHTAG" first.value = some (.string "rustlang") ∧
      counted? "HASHTAG" second.value = some (.string "corrosion") ∧
      ¬ ∀ found again, (answer start first).1 = .ok found →
        (answer (answer start first).2 second).1 = .ok again →
          (found = again ↔ Entity.string "rustlang" = .string "corrosion") := by
  intro start first second
  have hfirst : (answer start first).1 = .ok (some ["HASHTAG_0"]) := by decide +kernel
  have hsecond : (answer (answer start first).2 second).1 = .ok (some ["HASHTAG_0"]) := by
    decide +kernel
  refine ⟨by decide, rfl, rfl, ?_⟩
  intro h
  have hequal := (h _ _ hfirst hsecond).mp rfl
  exact absurd (Entity.string.inj hequal) (by decide)

theorem tags_count_injectively :
    let start := allocating Tags.entities false now #[]
    let first := request "rust" none
    let between := [request "lean" none, ⟨"QUOTED_STRING", .string "rust", {}⟩]
    let later := afterCalls (answer start first).2 between
    let second := request "lean" (some "Rust")
    Tags.entities.keys.Nodup ∧
      (∀ call ∈ between, call.type = "HASHTAG" → Fits Tags.entities "HASHTAG" call.value) ∧
      (∀ entry ∈ Tags.entities, typeOf entry.1 = "HASHTAG" → entry.2.isIdentified = true) ∧
      (answer start first).1 = .ok (some ["HASHTAG_9"]) ∧
      (answer later second).1 = .ok (some ["HASHTAG_10"]) ∧
      ∃ key placeholder, some ["HASHTAG_9"] = some [key] ∧
        some ["HASHTAG_10"] = some [placeholder] ∧
          (key = placeholder ↔ Entity.string "rust" = .string "lean") := by
  intro start first between later second
  have hkeys : Tags.entities.keys.Nodup := by decide
  have hbetween : ∀ call ∈ between, call.type = "HASHTAG" →
      Fits Tags.entities "HASHTAG" call.value := by
    intro call hcall htype
    rcases List.mem_pair.mp hcall with rfl | rfl
    · trivial
    · exact absurd htype (by decide)
  have hidentified : ∀ entry ∈ Tags.entities, typeOf entry.1 = "HASHTAG" →
      entry.2.isIdentified = true := by decide
  have hfound : (answer start first).1 = .ok (some ["HASHTAG_9"]) := by decide +kernel
  have hagain : (answer later second).1 = .ok (some ["HASHTAG_10"]) := by decide +kernel
  exact ⟨hkeys, hbetween, hidentified, hfound, hagain,
    calls_count_injectively hkeys now #[] [] hbetween rfl rfl
      (fun _ entry hentry htype => .inl (hidentified entry hentry htype)) rfl rfl
      _ _ hfound hagain⟩

end EntityFinder

end SkillLang

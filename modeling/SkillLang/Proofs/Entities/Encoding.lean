import SkillLang.Entities.Json
import SkillLang.Proofs.Json.Values

/-!
# Entities and their JSON

Nothing in the JSON of an entity names its kind.  The kinds are tried one after the other, and each
of them looks for the members that it has to have, so that an entity comes back only if no
kind that is tried earlier finds its members by chance.  Members that an entity may leave
out are always written, with null in place of a missing text.
-/

namespace SkillLang.Entity

/-! ## The kinds in their order -/

def ofNumber? (value : Json) : Option Entity :=
  (asFloat? value).map number

def ofString? (value : Json) : Option Entity :=
  value.asString?.map string

/-- A reader of the members of an object. -/
def ofObject (read : Json → Option Entity) : Json → Option Entity
  | .obj members => read (.obj members)
  | _ => none

/-- The kinds of entities with their readers, in the order in which they are tried. -/
def readers : List (String × (Json → Option Entity)) :=
  [("Number", ofNumber?), ("String", ofString?), ("Time", ofObject time?),
    ("Measure", ofObject measure?), ("Currency", ofObject currency?),
    ("Location", ofObject location?), ("Generic", ofObject generic?)]

theorem findSome?_cons_eq_or
    {α β : Type} (f : α → Option β) (a : α) (l : List α) :
    (a :: l).findSome? f = (f a).or (l.findSome? f) := by
  rw [List.findSome?_cons]
  cases f a with
  | none => rfl
  | some b => rfl

theorem ofJson?_eq_findSome?
    (value : Json) :
    ofJson? value = readers.findSome? fun reader => reader.2 value := by
  cases value with
  | null => rfl
  | bool b => rfl
  | int n => rfl
  | float x => rfl
  | str s => rfl
  | arr items => rfl
  | obj members =>
      simp only [readers, findSome?_cons_eq_or, List.findSome?_nil, Option.or_none]
      rfl

section Kinds

variable {name : String}

def IsOfKind (name : String) (found : Option Entity) : Prop :=
  ∀ e, found = some e → e.kind = name

theorem isOfKind_none :
    IsOfKind name none :=
  fun _ h => nomatch h

theorem isOfKind_pure
    {e : Entity} (h : e.kind = name) :
    IsOfKind name (pure e) := by
  rintro _ ⟨⟩
  exact h

theorem isOfKind_bind
    {α : Type} {found : Option α} {next : α → Option Entity}
    (hnext : ∀ a, IsOfKind name (next a)) :
    IsOfKind name (found >>= next) := by
  intro e h
  obtain ⟨a, -, ha⟩ := Option.bind_eq_some_iff.mp h
  exact hnext a e ha

theorem isOfKind_ofObject
    {read : Json → Option Entity} (hread : ∀ value, IsOfKind name (read value)) (value : Json) :
    IsOfKind name (ofObject read value) := by
  cases value with
  | obj members => exact hread _
  | _ => exact isOfKind_none

end Kinds

theorem isOfKind_time?
    (value : Json) :
    IsOfKind "Time" (time? value) := by
  unfold time?
  split
  · exact isOfKind_bind fun _ => isOfKind_bind fun _ => isOfKind_bind fun _ => isOfKind_pure rfl
  · exact isOfKind_none

theorem isOfKind_measure?
    (value : Json) :
    IsOfKind "Measure" (measure? value) := by
  unfold measure?
  split
  · exact isOfKind_bind fun _ => isOfKind_bind fun _ => isOfKind_pure rfl
  · exact isOfKind_none

theorem isOfKind_currency?
    (value : Json) :
    IsOfKind "Currency" (currency? value) := by
  unfold currency?
  split
  · exact isOfKind_bind fun _ => isOfKind_bind fun _ => isOfKind_pure rfl
  · exact isOfKind_none

theorem isOfKind_location?
    (value : Json) :
    IsOfKind "Location" (location? value) := by
  unfold location?
  split
  · exact isOfKind_bind fun _ => isOfKind_bind fun _ => isOfKind_bind fun _ => isOfKind_pure rfl
  · exact isOfKind_none

theorem isOfKind_generic?
    (value : Json) :
    IsOfKind "Generic" (generic? value) := by
  unfold generic?
  split
  · exact isOfKind_bind fun _ => isOfKind_bind fun _ => isOfKind_pure rfl
  · exact isOfKind_none

/-- The readers are tried until one of them takes the value, and each of them gives entities of its
kind only. -/
structure AreTried (readers : List (String × (Json → Option Entity))) : Prop where
  order : ∀ value, ofJson? value = readers.findSome? fun reader => reader.2 value
  kinds : ∀ reader ∈ readers, ∀ value, IsOfKind reader.1 (reader.2 value)

theorem areTried_readers :
    AreTried readers where
  order := ofJson?_eq_findSome?
  kinds := by
    simp only [readers, List.forall_mem_cons]
    refine ⟨?_, ?_, isOfKind_ofObject isOfKind_time?, isOfKind_ofObject isOfKind_measure?,
      isOfKind_ofObject isOfKind_currency?, isOfKind_ofObject isOfKind_location?,
      isOfKind_ofObject isOfKind_generic?, by simp⟩
    · intro value e h
      obtain ⟨x, -, rfl⟩ := Option.map_eq_some_iff.mp h
      rfl
    · intro value e h
      obtain ⟨s, -, rfl⟩ := Option.map_eq_some_iff.mp h
      rfl

/-! ## Reading what is written -/

/-- The parts of a time are numbers of 32 bits. -/
def HasWords : Entity → Prop
  | time hour minute second =>
    hour < Nat.pow 2 32 ∧ minute < Nat.pow 2 32 ∧ second < Nat.pow 2 32
  | _ => True

/-- The doubles in an entity. -/
def doubles : Entity → List Float
  | number x | measure x _ | currency x _ => [x]
  | location latitude longitude _ => [latitude, longitude]
  | _ => []

theorem asWord?_int
    {n : Nat} (h : n < Nat.pow 2 32) :
    asWord? (.int n) = some n := by
  have hrange : 0 ≤ (n : Int) ∧ (n : Int) < Nat.pow 2 32 :=
    ⟨Int.natCast_nonneg n, Int.ofNat_lt.mpr h⟩
  rw [asWord?, if_pos hrange, Int.toNat_natCast]

theorem time?_toJson
    {hour minute second : Nat} (h : (time hour minute second).HasWords) :
    time? (time hour minute second).toJson = some (time hour minute second) := by
  have hfields : (time hour minute second).toJson.fields? ["hour", "minute", "second"] =
      some [some (.int hour), some (.int minute), some (.int second)] := rfl
  have hhour : Json.required asWord? (some (.int hour)) = some hour := by
    rw [Json.required, Option.bind_some, asWord?_int h.1]
  have hminute : Json.required asWord? (some (.int minute)) = some minute := by
    rw [Json.required, Option.bind_some, asWord?_int h.2.1]
  have hsecond : Json.defaulted 0 asWord? (some (.int second)) = some second := by
    rw [Json.defaulted, asWord?_int h.2.2]
  rw [time?, hfields]
  simp only [hhour, hminute, hsecond]
  rfl

theorem optionalText?_textJson
    (text : Option String) :
    optionalText? (some (textJson text)) = some text := by
  cases text with
  | none => rfl
  | some text => rfl

theorem location?_toJson
    (latitude longitude : Float) (display : Option String) :
    location? (location latitude longitude display).toJson =
      some (location latitude longitude display) := by
  change (do
    return location latitude longitude (← optionalText? (some (textJson display))) :
      Option Entity) = _
  rw [optionalText?_textJson]
  rfl

theorem generic?_toJson
    (value display : Option String) :
    generic? (generic value display).toJson = some (generic value display) := by
  change (do
    return generic (← optionalText? (some (textJson value)))
      (← optionalText? (some (textJson display))) : Option Entity) = _
  rw [optionalText?_textJson, optionalText?_textJson]
  rfl

/-- Of all readers, that of the kind of an entity is the first to take its JSON. -/
theorem exists_readers_toJson
    {e : Entity} (h : e.HasWords) :
    ∃ earlier read later, readers = earlier ++ (e.kind, read) :: later ∧
      (∀ reader ∈ earlier, reader.2 e.toJson = none) ∧ read e.toJson = some e := by
  cases e with
  | number x => exact ⟨[], _, readers.drop 1, rfl, by simp, rfl⟩
  | string s =>
      refine ⟨readers.take 1, _, readers.drop 2, rfl, ?_, rfl⟩
      simp only [readers, List.take_succ_cons, List.forall_mem_cons]
      exact ⟨rfl, by simp⟩
  | time hour minute second =>
      have hobject : ofObject time? (time hour minute second).toJson =
          time? (time hour minute second).toJson := by
        rw [toJson, ofObject]
      refine ⟨readers.take 2, _, readers.drop 3, rfl, ?_, hobject.trans (time?_toJson h)⟩
      simp only [readers, List.take_succ_cons, List.forall_mem_cons]
      exact ⟨rfl, rfl, by simp⟩
  | measure x unit =>
      refine ⟨readers.take 3, _, readers.drop 4, rfl, ?_, rfl⟩
      simp only [readers, List.take_succ_cons, List.forall_mem_cons]
      exact ⟨rfl, rfl, rfl, by simp⟩
  | currency x code =>
      refine ⟨readers.take 4, _, readers.drop 5, rfl, ?_, rfl⟩
      simp only [readers, List.take_succ_cons, List.forall_mem_cons]
      exact ⟨rfl, rfl, rfl, rfl, by simp⟩
  | location latitude longitude display =>
      refine ⟨readers.take 5, _, readers.drop 6, rfl, ?_,
        location?_toJson latitude longitude display⟩
      simp only [readers, List.take_succ_cons, List.forall_mem_cons]
      exact ⟨rfl, rfl, rfl, rfl, rfl, by simp⟩
  | generic value display =>
      refine ⟨readers.take 6, _, readers.drop 7, rfl, ?_, generic?_toJson value display⟩
      simp only [readers, List.take_succ_cons, List.forall_mem_cons]
      -- The value of a generic entity is no number, which others ask for under the same name.
      refine ⟨rfl, rfl, rfl, ?numberOfUnit, ?numberOfCode, rfl, by simp⟩
      case numberOfUnit => cases value <;> rfl
      case numberOfCode => cases value <;> rfl

theorem isWritable_textJson
    (depth : Nat) (text : Option String) :
    Json.IsWritable depth (textJson text) := by
  cases text with
  | none => exact .null
  | some text => exact .str text

theorem isWritable_word
    (depth : Nat) {n : Nat} (h : n < Nat.pow 2 32) :
    Json.IsWritable depth (.int n) := by
  have hlt : Nat.pow 2 32 < Nat.pow 2 64 := by decide
  exact .int (by omega) (by omega)

/-- No entity has more than one level of objects. -/
theorem isWritable_toJson
    {e : Entity} (hwords : e.HasWords)
    (hdoubles : ∀ x ∈ e.doubles, Decimal.isFinite x = true ∧ Json.ReadsBack x) (depth : Nat) :
    Json.IsWritable (depth + 1) e.toJson := by
  have hdouble (depth : Nat) {x : Float} (hx : x ∈ e.doubles) :
      Json.IsWritable depth (.float x) :=
    .float (hdoubles x hx).1 (hdoubles x hx).2
  cases e with
  | number x => exact hdouble _ (by simp [doubles])
  | string s => exact .str s
  | time hour minute second =>
      apply Json.IsWritable.obj
      simp only [List.forall_mem_cons]
      exact ⟨isWritable_word depth hwords.1, isWritable_word depth hwords.2.1,
        isWritable_word depth hwords.2.2, by simp⟩
  | measure x unit =>
      apply Json.IsWritable.obj
      simp only [List.forall_mem_cons]
      exact ⟨hdouble depth (by simp [doubles]), .str unit, by simp⟩
  | currency x code =>
      apply Json.IsWritable.obj
      simp only [List.forall_mem_cons]
      exact ⟨hdouble depth (by simp [doubles]), .str code, by simp⟩
  | location latitude longitude display =>
      apply Json.IsWritable.obj
      simp only [List.forall_mem_cons]
      exact ⟨hdouble depth (by simp [doubles]), hdouble depth (by simp [doubles]),
        isWritable_textJson depth display, by simp⟩
  | generic value display =>
      apply Json.IsWritable.obj
      simp only [List.forall_mem_cons]
      exact ⟨isWritable_textJson depth value, isWritable_textJson depth display, by simp⟩

/-- An entity comes back from its JSON.  The readers of the kinds before its own do not take the
value, and a reader of texts gives the entity from the text of the value, if it gives the
doubles from theirs. -/
theorem ofJson?_toJson
    {e : Entity} (hwords : e.HasWords) :
    AreTried readers ∧
      (∃ earlier read later, readers = earlier ++ (e.kind, read) :: later ∧
        (∀ reader ∈ earlier, reader.2 e.toJson = none) ∧ read e.toJson = some e) ∧
      ofJson? e.toJson = some e ∧
      ((∀ x ∈ e.doubles, Decimal.isFinite x = true ∧ Json.ReadsBack x) →
        ∀ depth, (Json.parse (depth + 1) e.toJson.write).bind ofJson? = some e) := by
  have hfirst := exists_readers_toJson hwords
  have hread : ofJson? e.toJson = some e := by
    obtain ⟨earlier, read, later, hreaders, hearlier, hread⟩ := hfirst
    rw [ofJson?_eq_findSome?, List.findSome?_eq_some_iff]
    exact ⟨earlier, (e.kind, read), later, hreaders, hread, hearlier⟩
  refine ⟨areTried_readers, hfirst, hread, fun hdoubles depth => ?_⟩
  rw [Json.parse_write (isWritable_toJson hwords hdoubles depth), Option.bind_some, hread]

theorem readsBack_of_double
    {x : Float} {n : Json.Numeral}
    (hread : Json.readNumeral (Decimal.json.write x).toList = some (n, []))
    (hfraction : n.fraction.isSome = true) (hdouble : n.double = some x) :
    Json.ReadsBack x := by
  intro m rest hm
  obtain ⟨rfl, -⟩ := Prod.mk.inj (Option.some.inj (hread.symm.trans hm))
  have hnone : n.fraction.isNone = false := by
    rw [← Option.not_isSome, hfraction]
    rfl
  rw [Json.Numeral.value, hnone, hdouble]
  simp

/-- The last second of a day, and a place without a name whose longitude is below zero. -/
theorem time_and_place_ofJson?_toJson :
    ofJson? (time 23 59 59).toJson = some (time 23 59 59) ∧
      (Json.parse 1 (location 37.5 (-122.25) none).toJson.write).bind ofJson? =
        some (location 37.5 (-122.25) none) := by
  have hlatitude : Decimal.isFinite 37.5 = true ∧ Json.ReadsBack 37.5 := by
    have hread : Json.readNumeral (Decimal.json.write 37.5).toList =
        some (⟨false, ['3', '7'], some ['5'], none⟩, []) := by
      have hwrite : (Decimal.json.write 37.5).toList = ['3', '7', '.', '5'] := by decide +kernel
      rw [hwrite]
      rfl
    exact ⟨by decide +kernel, readsBack_of_double hread rfl (by decide +kernel)⟩
  have hlongitude : Decimal.isFinite (-122.25) = true ∧ Json.ReadsBack (-122.25) := by
    have hread : Json.readNumeral (Decimal.json.write (-122.25)).toList =
        some (⟨true, ['1', '2', '2'], some ['2', '5'], none⟩, []) := by
      have hwrite : (Decimal.json.write (-122.25)).toList =
          ['-', '1', '2', '2', '.', '2', '5'] := by decide +kernel
      rw [hwrite]
      rfl
    exact ⟨by decide +kernel, readsBack_of_double hread rfl (by decide +kernel)⟩
  have htime := ofJson?_toJson
    (show HasWords (time 23 59 59) from ⟨by decide, by decide, by decide⟩)
  have hplace := ofJson?_toJson (show HasWords (location 37.5 (-122.25) none) from trivial)
  refine ⟨htime.2.2.1, hplace.2.2.2 ?_ 0⟩
  simp only [doubles, List.forall_mem_cons]
  exact ⟨hlatitude, hlongitude, by simp⟩

end SkillLang.Entity

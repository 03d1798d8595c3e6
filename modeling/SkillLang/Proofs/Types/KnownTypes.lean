import SkillLang.Proofs.Types.ClosedTypes

/-!
# Known types

A type is known if nothing in it is left open: no type variable, no type that stands for
any other, no enum of any entries and no measure of any quantity.  Between known types
strict assignability neither binds anything nor looks at what is bound.  It is then a
relation between types, which is given by rules here: the rules and the function agree,
and the relation is a preorder.
-/

namespace SkillLang

namespace Ty

open MeasureUnit (sameQuantity sameQuantity_iff)

mutual

/-- Nothing in the type is left open. -/
def isKnown : Ty → Bool
  | any | var _ => false
  | measure unit => !unit.isEmpty
  | enum entries => entries.isSome
  | array elem => elem.isKnown
  | compound fields => areKnown fields
  | boolean | string | number | currency | entity _ | date | time | location | recurrentTime
  | argMap | object | unknown _ => true

def areKnown : List (String × Ty) → Bool
  | [] => true
  | (_, type) :: fields => type.isKnown && areKnown fields

end

theorem areKnown_iff
    (fields : List (String × Ty)) :
    areKnown fields = true ↔ ∀ field ∈ fields, field.2.isKnown = true := by
  induction fields with
  | nil => simp [areKnown]
  | cons field fields ih => simp [areKnown, ih]

theorem isKnown_of_find?
    {fields : List (String × Ty)} {name : String} {type : Ty}
    (h : (compound fields).isKnown = true) (hfind : Keyed.find? name fields = some type) :
    type.isKnown = true :=
  (areKnown_iff fields).mp h _ (Keyed.mem_of_find? hfind)

/-! ## The relation -/

mutual

/-- A value of one known type may be passed where another one is expected. -/
inductive IsBelow : Ty → Ty → Prop
  | refl (type : Ty) : IsBelow type type
  | measure {unit target : String}
      (hsame : sameQuantity unit target = true) :
      IsBelow (.measure unit) (.measure target)
  | enum {entries allowed : List String}
      (hallowed : ∀ entry ∈ entries, entry ∈ allowed) :
      IsBelow (.enum (some entries)) (.enum (some allowed))
  | anyEntity (kind : String) : IsBelow (.entity kind) (.entity "*")
  | array {elem target : Ty}
      (helem : IsBelow elem target) :
      IsBelow (.array elem) (.array target)
  | compound {fields expected : List (String × Ty)}
      (hfields : HaveBelow fields expected) :
      IsBelow (.compound fields) (.compound expected)
  | object (fields : List (String × Ty)) : IsBelow (.compound fields) .object

/-- Every expected field is there with a type that may be passed for it. -/
inductive HaveBelow : List (String × Ty) → List (String × Ty) → Prop
  | nil {fields : List (String × Ty)} : HaveBelow fields []
  | cons {fields rest : List (String × Ty)} {name : String} {type target : Ty}
      (hfind : Keyed.find? name fields = some type)
      (hfirst : IsBelow type target)
      (hrest : HaveBelow fields rest) :
      HaveBelow fields ((name, target) :: rest)

end

theorem HaveBelow.find?
    {fields expected : List (String × Ty)} (h : HaveBelow fields expected) {name : String}
    {target : Ty} (hfind : Keyed.find? name expected = some target) :
    ∃ type, Keyed.find? name fields = some type ∧ IsBelow type target := by
  induction expected with
  | nil => cases hfind
  | cons field rest ih =>
      cases h with
      | @cons _ _ other type _ hfirst hbelow hrest =>
          rw [Keyed.find?] at hfind
          by_cases heq : other = name
          · rw [if_pos heq] at hfind
            cases hfind
            exact ⟨type, heq ▸ hfirst, hbelow⟩
          · rw [if_neg heq] at hfind
            exact ih hrest hfind

mutual

-- The recursion is on the upper derivation; the lower one ends at a type of the same form.
theorem IsBelow.trans
    {first second third : Ty} :
    IsBelow second third → IsBelow first second → IsBelow first third
  | .refl _, hfirst => hfirst
  | .measure hsame, hfirst => by
      cases hfirst with
      | refl => exact .measure hsame
      | measure hother =>
          rw [sameQuantity_iff] at hsame hother
          exact .measure ((sameQuantity_iff _ _).mpr (hother.trans hsame))
  | .enum hallowed, hfirst => by
      cases hfirst with
      | refl => exact .enum hallowed
      | enum hother => exact .enum fun entry hentry => hallowed entry (hother entry hentry)
  | .anyEntity _, hfirst => by
      cases hfirst with
      | refl | anyEntity => exact .anyEntity _
  | .array helem, hfirst => by
      cases hfirst with
      | refl => exact .array helem
      | array hother => exact .array (helem.trans hother)
  | .compound hfields, hfirst => by
      cases hfirst with
      | refl => exact .compound hfields
      | compound hother => exact .compound (hfields.trans hother)
  | .object _, hfirst => by
      cases hfirst with
      | refl | compound => exact .object _

theorem HaveBelow.trans
    {first second third : List (String × Ty)} :
    HaveBelow second third → HaveBelow first second → HaveBelow first third
  | .nil, _ => .nil
  | .cons hfind hbelow hrest, hfirst => by
      obtain ⟨type, htype, hother⟩ := hfirst.find? hfind
      exact .cons htype (hbelow.trans hother) (hrest.trans hfirst)

end

/-! ## The function -/

variable {follow : Ty → Ty → Bindings → Bool × Bindings}

theorem varName?_of_isKnown
    {type : Ty} (h : type.isKnown = true) :
    type.varName? = none := by
  cases type with
  | var _ => cases h
  | _ => rfl

/-- Known types either agree outright or are compared part by part. -/
theorem assignWith_of_isKnown
    {type target : Ty} (htype : type.isKnown = true) (htarget : target.isKnown = true)
    (b : Bindings) :
    assignWith false follow type target b =
      if agreesOutright type target then (true, b)
      else assignParts false follow type target b := by
  have hany {type : Ty} (h : type.isKnown = true) : type.isAny = false := by
    cases type with
    | any => cases h
    | _ => rfl
  rw [assignWith_of_varName? (varName?_of_isKnown htype) (varName?_of_isKnown htarget),
    hany htype, hany htarget, Bool.or_false, Bool.or_false]

theorem assignWith_of_parts
    {type target : Ty} (htype : type.isKnown = true) (htarget : target.isKnown = true)
    {b : Bindings} (hparts : assignParts false follow type target b = (true, b)) :
    assignWith false follow type target b = (true, b) := by
  rw [assignWith_of_isKnown htype htarget, hparts, ite_self]

mutual

/-- The function accepts what the rules allow. -/
theorem IsBelow.assignWith_eq
    {type target : Ty} (htype : type.isKnown = true) (htarget : target.isKnown = true)
    (b : Bindings) :
    IsBelow type target → assignWith false follow type target b = (true, b)
  | .refl _ => assignWith_self (varName?_of_isKnown htype) b
  | .measure hsame => by
      refine assignWith_of_parts htype htarget ?_
      rw [isKnown, Bool.not_eq_true'] at htype htarget
      simp only [assignParts, meetMeasures, htype, htarget, hsame]
  | .enum hallowed => by
      refine assignWith_of_parts htype htarget (Prod.ext ?_ rfl)
      simp only [assignParts, List.all_eq_true, List.contains_iff_mem]
      exact hallowed
  | .anyEntity _ => assignWith_of_parts htype htarget rfl
  | @IsBelow.array elem target helem => by
      have helemKnown : elem.isKnown = true := htype
      have htargetKnown : target.isKnown = true := htarget
      exact assignWith_of_parts htype htarget
        (helem.assignWith_eq helemKnown htargetKnown b)
  | .compound hfields =>
      assignWith_of_parts htype htarget (hfields.assignFieldsWith_eq htype htarget b)
  | .object _ => assignWith_of_parts htype htarget rfl

theorem HaveBelow.assignFieldsWith_eq
    {fields expected : List (String × Ty)} (hfields : (compound fields).isKnown = true)
    (hexpected : (compound expected).isKnown = true) (b : Bindings) :
    HaveBelow fields expected → assignFieldsWith false follow fields expected b = (true, b)
  | .nil => rfl
  | .cons hfind hfirst hrest => by
      rw [isKnown, areKnown, Bool.and_eq_true] at hexpected
      have htype := isKnown_of_find? hfields hfind
      rw [assignFieldsWith, hfind]
      simp only [hfirst.assignWith_eq htype hexpected.1 b]
      exact hrest.assignFieldsWith_eq hfields hexpected.2 b

end

/-- The bindings are left alone, and only what the rules allow is accepted. -/
def IsSettled (type target : Ty) (b : Bindings) (result : Bool × Bindings) : Prop :=
  result.2 = b ∧ (result.1 = true → IsBelow type target)

theorem isSettled_of_parts
    {type target : Ty} (htype : type.isKnown = true) (htarget : target.isKnown = true)
    {b : Bindings} (hparts : IsSettled type target b (assignParts false follow type target b)) :
    IsSettled type target b (assignWith false follow type target b) := by
  rw [assignWith_of_isKnown htype htarget]
  by_cases hagree : agreesOutright type target = true
  · rw [if_pos hagree, eq_of_agreesOutright hagree]
    exact ⟨rfl, fun _ => .refl target⟩
  · rw [if_neg hagree]
    exact hparts

theorem isSettled_refused
    (type target : Ty) (b : Bindings) :
    IsSettled type target b (false, b) :=
  ⟨rfl, fun h => nomatch h⟩

mutual

theorem isSettled_assignWith
    (follow : Ty → Ty → Bindings → Bool × Bindings) (target type : Ty)
    (htype : type.isKnown = true) (htarget : target.isKnown = true) (b : Bindings) :
    IsSettled type target b (assignWith false follow type target b) := by
  refine isSettled_of_parts htype htarget ?_
  -- The cases follow the target, which decides what is asked of the type. As neither is a
  -- variable, `follow` is never called and nothing is bound.
  cases target with
  | measure target =>
      cases type with
      | measure unit =>
          rw [isKnown, Bool.not_eq_true'] at htype htarget
          simp only [assignParts, meetMeasures, htype, htarget]
          exact ⟨rfl, .measure⟩
      | _ => exact isSettled_refused _ _ b
  | enum target =>
      cases type with
      | enum entries =>
          cases target with
          | none => cases htarget
          | some allowed =>
              cases entries with
              | none => cases htype
              | some entries =>
                  refine ⟨rfl, fun h => .enum ?_⟩
                  simpa only [assignParts, List.all_eq_true, List.contains_iff_mem] using h
      | _ => exact isSettled_refused _ _ b
  | entity target =>
      cases type with
      | entity kind =>
          refine ⟨rfl, fun h => ?_⟩
          simp only [assignParts, Bool.or_eq_true, beq_iff_eq] at h
          rcases h with rfl | rfl
          · exact .anyEntity kind
          · exact .refl _
      | _ => exact isSettled_refused _ _ b
  | string => cases type <;> exact isSettled_refused _ _ b
  | array target =>
      cases type with
      | array elem =>
          have helem := isSettled_assignWith follow target elem htype htarget b
          exact ⟨helem.1, fun h => .array (helem.2 h)⟩
      | _ => exact isSettled_refused _ _ b
  | compound expected =>
      cases type with
      | compound fields =>
          have hfields := isSettled_assignFieldsWith follow expected fields htype htarget b
          exact ⟨hfields.1, fun h => .compound (hfields.2 h)⟩
      | _ => exact isSettled_refused _ _ b
  | object =>
      cases type with
      | compound fields => exact ⟨rfl, fun _ => .object fields⟩
      | _ => exact isSettled_refused _ _ b
  | _ => cases type <;> exact isSettled_refused _ _ b
termination_by structural target

theorem isSettled_assignFieldsWith
    (follow : Ty → Ty → Bindings → Bool × Bindings) (expected fields : List (String × Ty))
    (hfields : (compound fields).isKnown = true)
    (hexpected : (compound expected).isKnown = true) (b : Bindings) :
    (assignFieldsWith false follow fields expected b).2 = b ∧
      ((assignFieldsWith false follow fields expected b).1 = true →
        HaveBelow fields expected) := by
  cases expected with
  | nil => exact ⟨rfl, fun _ => .nil⟩
  | cons field rest =>
      obtain ⟨name, target⟩ := field
      rw [isKnown, areKnown, Bool.and_eq_true] at hexpected
      rw [assignFieldsWith]
      cases hfind : Keyed.find? name fields with
      | none => exact ⟨rfl, fun h => nomatch h⟩
      | some type =>
          dsimp only
          have hfirst := isSettled_assignWith follow target type
            (isKnown_of_find? hfields hfind) hexpected.1 b
          rcases hassign : assignWith false follow type target b with ⟨fits, next⟩
          rw [hassign] at hfirst
          obtain rfl : next = b := hfirst.1
          cases fits with
          | false => exact ⟨rfl, fun h => nomatch h⟩
          | true =>
              have hrest := isSettled_assignFieldsWith follow rest fields hfields hexpected.2 next
              exact ⟨hrest.1, fun h => .cons hfind (hfirst.2 rfl) (hrest.2 h)⟩
termination_by structural expected

end

/-! ## Both together -/

/-- Between known types neither bindings nor what follows variables matter. -/
theorem assignWith_congr_of_isKnown
    {type target : Ty} (htype : type.isKnown = true) (htarget : target.isKnown = true)
    (follow other : Ty → Ty → Bindings → Bool × Bindings) (b c : Bindings) :
    assignWith false follow type target b = ((assignWith false other type target c).1, b) := by
  obtain ⟨hkeeps, hbelow⟩ := isSettled_assignWith follow target type htype htarget b
  obtain ⟨-, hother⟩ := isSettled_assignWith other target type htype htarget c
  refine Prod.ext (Bool.eq_iff_iff.mpr ⟨fun h => ?_, fun h => ?_⟩) hkeeps
  · rw [(hbelow h).assignWith_eq htype htarget]
  · rw [(hother h).assignWith_eq htype htarget]

theorem assign_of_isKnown
    {type target : Ty} (htype : type.isKnown = true) (htarget : target.isKnown = true)
    (b : Bindings) :
    type.assign false target b = (type.isAssignable false target, b) := by
  obtain ⟨follow, hassign⟩ := exists_assign_eq false type target b
  obtain ⟨other, hother⟩ := exists_assign_eq false type target .empty
  rw [isAssignable, hassign, hother]
  exact assignWith_congr_of_isKnown htype htarget follow other b .empty

theorem isAssignable_iff_isBelow
    {type target : Ty} (htype : type.isKnown = true) (htarget : target.isKnown = true) :
    type.isAssignable false target = true ↔ type.IsBelow target := by
  obtain ⟨follow, hassign⟩ := exists_assign_eq false type target .empty
  rw [isAssignable, hassign]
  constructor
  · exact (isSettled_assignWith follow target type htype htarget .empty).2
  · intro hbelow
    rw [hbelow.assignWith_eq htype htarget]

/-- Between known types strict assignability leaves all bindings alone and depends on none of them,
every type is assignable to itself, and what is assignable to a type is assignable to everything
that the type is assignable to. -/
theorem assign_preorder
    {first second third : Ty} (hfirst : first.isKnown = true) (hsecond : second.isKnown = true)
    (hthird : third.isKnown = true) :
    (∀ b, first.assign false second b = (first.isAssignable false second, b)) ∧
      first.isAssignable false first = true ∧
      (first.isAssignable false second = true → second.isAssignable false third = true →
        first.isAssignable false third = true) := by
  refine ⟨assign_of_isKnown hfirst hsecond, ?_, ?_⟩
  · exact (isAssignable_iff_isBelow hfirst hfirst).mpr (.refl first)
  · intro hlower hupper
    rw [isAssignable_iff_isBelow hfirst hsecond] at hlower
    rw [isAssignable_iff_isBelow hsecond hthird] at hupper
    exact (isAssignable_iff_isBelow hfirst hthird).mpr (hupper.trans hlower)

/-! ## An example -/

namespace Heater

/-- What a heater that is on tells about itself. -/
def running : Ty :=
  .compound [("contact", .entity "tt:contact"), ("mode", .enum (some ["on"])),
    ("readings", .array (.measure "F"))]

/-- What every heater tells about itself. -/
def status : Ty :=
  .compound [("contact", .entity "*"), ("mode", .enum (some ["on", "off"])),
    ("readings", .array (.measure "C"))]

/-- What everything tells that reads temperatures. -/
def readings : Ty :=
  .compound [("readings", .array (.measure "K"))]

end Heater

theorem heater_preorder :
    Heater.running.isAssignable false Heater.status = true ∧
      Heater.status.isAssignable false Heater.readings = true ∧
      Heater.running.assign false Heater.status ⟨[("a", .string)], some "kg"⟩ =
        (true, ⟨[("a", .string)], some "kg"⟩) ∧
      Heater.running.isAssignable false Heater.running = true ∧
      Heater.running.isAssignable false Heater.readings = true := by
  have hlower : Heater.running.isAssignable false Heater.status = true := rfl
  have hupper : Heater.status.isAssignable false Heater.readings = true := rfl
  obtain ⟨hassign, hself, htrans⟩ :=
    @assign_preorder Heater.running Heater.status Heater.readings rfl rfl rfl
  exact ⟨hlower, hupper, hlower ▸ hassign _, hself, htrans hlower hupper⟩

end Ty

end SkillLang

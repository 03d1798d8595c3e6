import SkillLang.Proofs.Types.Leniency

/-!
# Bindings on the way

When types are passed to others one after the other, bindings only grow: what a variable
or the open unit is bound to at one time stays so to the end.  Types without variables
are all that is ever bound if no other types are passed, so that in the end each variable
stands for one type, in which only the open unit is left to be replaced.
-/

namespace SkillLang

/-! ## Types of arguments -/

namespace Ty

mutual

/-- No type variable occurs in the type. -/
def isClosed : Ty → Bool
  | var _ => false
  | array elem => elem.isClosed
  | compound fields => areClosed fields
  | _ => true

def areClosed : List (String × Ty) → Bool
  | [] => true
  | (_, type) :: fields => type.isClosed && areClosed fields

end

mutual

/-- No compound in the type has two fields of one name. -/
def hasUniqueFields : Ty → Bool
  | array elem => elem.hasUniqueFields
  | compound fields => decide (Keyed.keys fields).Nodup && haveUniqueFields fields
  | _ => true

def haveUniqueFields : List (String × Ty) → Bool
  | [] => true
  | (_, type) :: fields => type.hasUniqueFields && haveUniqueFields fields

end

theorem areClosed_iff
    (fields : List (String × Ty)) :
    areClosed fields = true ↔ ∀ field ∈ fields, field.2.isClosed = true := by
  induction fields with
  | nil => simp [areClosed]
  | cons field fields ih => simp [areClosed, ih]

theorem haveUniqueFields_iff
    (fields : List (String × Ty)) :
    haveUniqueFields fields = true ↔ ∀ field ∈ fields, field.2.hasUniqueFields = true := by
  induction fields with
  | nil => simp [haveUniqueFields]
  | cons field fields ih => simp [haveUniqueFields, ih]

theorem isClosed_of_find?
    {fields : List (String × Ty)} {name : String} {type : Ty}
    (h : (compound fields).isClosed = true) (hfind : Keyed.find? name fields = some type) :
    type.isClosed = true :=
  (areClosed_iff fields).mp h _ (Keyed.mem_of_find? hfind)

theorem hasUniqueFields_of_find?
    {fields : List (String × Ty)} {name : String} {type : Ty}
    (h : (compound fields).hasUniqueFields = true)
    (hfind : Keyed.find? name fields = some type) :
    type.hasUniqueFields = true := by
  rw [hasUniqueFields, Bool.and_eq_true] at h
  exact (haveUniqueFields_iff fields).mp h.2 _ (Keyed.mem_of_find? hfind)

theorem eq_of_agreesOutright
    {type target : Ty} (h : agreesOutright type target = true) :
    type = target := by
  cases type with
  | var _ | measure _ => cases h
  | _ => exact eq_of_beq h

theorem eq_any_of_isAny
    {type : Ty} (h : type.isAny = true) :
    type = any := by
  cases type with
  | any => rfl
  | _ => cases h

theorem varName?_of_isClosed
    {type : Ty} (h : type.isClosed = true) :
    type.varName? = none := by
  cases type with
  | var _ => cases h
  | _ => rfl

end Ty

/-! ## Growing bindings -/

namespace Bindings

/-- What is bound at one time is bound to the same at another. -/
structure IsWithin (b final : Bindings) : Prop where
  unit : ∀ unit, b.unit = some unit → final.unit = some unit
  vars : ∀ name type, Keyed.find? name b.vars = some type → Keyed.find? name final.vars = some type

/-- Variables are bound to types without variables. -/
def IsClosed (b : Bindings) : Prop :=
  ∀ name type, Keyed.find? name b.vars = some type → type.isClosed = true

/-- What bindings turn into when a type without variables is passed. -/
structure Develops (b next : Bindings) : Prop where
  isWithin : b.IsWithin next
  isClosed : b.IsClosed → next.IsClosed

theorem IsWithin.refl (b : Bindings) :
    b.IsWithin b :=
  ⟨fun _ h => h, fun _ _ h => h⟩

theorem IsWithin.trans
    {b next final : Bindings} (h : b.IsWithin next) (hnext : next.IsWithin final) :
    b.IsWithin final :=
  ⟨fun unit hunit => hnext.unit unit (h.unit unit hunit),
    fun name type htype => hnext.vars name type (h.vars name type htype)⟩

theorem Develops.refl (b : Bindings) :
    b.Develops b :=
  ⟨.refl b, id⟩

theorem Develops.trans
    {b next final : Bindings} (h : b.Develops next) (hnext : next.Develops final) :
    b.Develops final :=
  ⟨h.isWithin.trans hnext.isWithin, fun hclosed => hnext.isClosed (h.isClosed hclosed)⟩

theorem isClosed_empty :
    Bindings.empty.IsClosed := by
  intro name type h
  cases h

theorem develops_bind
    {b : Bindings} {name : String} (hfree : Keyed.find? name b.vars = none) {type : Ty}
    (htype : type.isClosed = true) :
    b.Develops (b.bind name type) := by
  have hother {other : String} (hne : other ≠ name) :
      Keyed.find? other (b.bind name type).vars = Keyed.find? other b.vars :=
    Keyed.find?_insert_of_ne hne type b.vars
  have hself : Keyed.find? name (b.bind name type).vars = some type :=
    Keyed.find?_insert_self name type b.vars
  constructor
  · refine ⟨fun _ hunit => hunit, ?_⟩
    intro other bound hbound
    by_cases heq : other = name
    · subst heq
      rw [hfree] at hbound
      cases hbound
    · rw [hother heq]
      exact hbound
  · intro hclosed other bound hbound
    by_cases heq : other = name
    · subst heq
      rw [hself] at hbound
      cases hbound
      exact htype
    · rw [hother heq] at hbound
      exact hclosed other bound hbound

theorem develops_meetUnit
    (b : Bindings) (unit : String) :
    b.Develops (b.meetUnit unit).2 := by
  unfold meetUnit
  cases hunit : b.unit with
  | some bound => exact .refl b
  | none =>
      refine ⟨⟨?_, fun _ _ h => h⟩, fun hclosed => hclosed⟩
      intro bound hbound
      rw [hunit] at hbound
      cases hbound

end Bindings

namespace Ty

/-- To pass a type without variables develops the bindings. -/
def Develops (pass : Ty → Ty → Bindings → Bool × Bindings) : Prop :=
  ∀ (type target : Ty) (b : Bindings), type.isClosed = true → b.Develops (pass type target b).2

variable {lenient : Bool} {follow : Ty → Ty → Bindings → Bool × Bindings}

theorem develops_meetMeasures
    (unit target : String) (b : Bindings) :
    b.Develops (meetMeasures unit target b).2 := by
  unfold meetMeasures
  split
  · exact .refl b
  · exact .refl b
  · exact b.develops_meetUnit unit
  · exact b.develops_meetUnit target

theorem Develops.of_parts
    (hfollow : Develops follow) {type target : Ty} {b : Bindings}
    (htype : type.isClosed = true)
    (hparts : b.Develops (assignParts lenient follow type target b).2) :
    b.Develops (assignWith lenient follow type target b).2 := by
  rw [assignWith_eq]
  by_cases hsettled : (agreesOutright type target || target.isAny || type.isAny) = true
  · rw [if_pos hsettled]
    exact .refl b
  · rw [if_neg hsettled, varName?_of_isClosed htype]
    cases target.varName? with
    | none => exact hparts
    | some name =>
        dsimp only
        unfold meetVar
        cases hbound : Keyed.find? name b.vars with
        | none => exact Bindings.develops_bind hbound htype
        | some bound => exact hfollow type bound b htype

mutual

theorem Develops.assignWith
    (hfollow : Develops follow) (target type : Ty) (b : Bindings)
    (htype : type.isClosed = true) :
    b.Develops (assignWith lenient follow type target b).2 := by
  refine hfollow.of_parts htype ?_
  cases target with
  | array target =>
      cases type with
      | array elem => exact hfollow.assignWith target elem b htype
      | _ => exact .refl b
  | compound target =>
      cases type with
      | compound fields => exact hfollow.assignFieldsWith target fields b htype
      | _ => exact .refl b
  | measure target =>
      cases type with
      | measure unit => exact develops_meetMeasures unit target b
      | _ => exact .refl b
  | enum target =>
      cases type with
      | enum entries => cases entries <;> cases target <;> exact .refl b
      | _ => exact .refl b
  | _ => cases type <;> exact .refl b
termination_by structural target

theorem Develops.assignFieldsWith
    (hfollow : Develops follow) (expected fields : List (String × Ty)) (b : Bindings)
    (hfields : (compound fields).isClosed = true) :
    b.Develops (assignFieldsWith lenient follow fields expected b).2 := by
  cases expected with
  | nil => exact .refl b
  | cons field rest =>
      obtain ⟨name, target⟩ := field
      rw [Ty.assignFieldsWith]
      cases hfind : Keyed.find? name fields with
      | none => exact .refl b
      | some type =>
          have hfirst :=
            hfollow.assignWith target type b (isClosed_of_find? hfields hfind)
          dsimp only
          rcases hassign : Ty.assignWith lenient follow type target b with ⟨fits, next⟩
          rw [hassign] at hfirst
          cases fits with
          | false => exact hfirst
          | true => exact hfirst.trans (hfollow.assignFieldsWith rest fields next hfields)
termination_by structural expected

end

theorem develops_assignWithin
    (lenient : Bool) (hops : Nat) :
    Develops (assignWithin lenient hops) := by
  induction hops with
  | zero =>
      have hnever : Develops fun _ _ b => (false, b) := fun _ _ b _ => .refl b
      exact fun type target => hnever.assignWith target type
  | succ hops ih => exact fun type target => ih.assignWith target type

theorem develops_assign
    (lenient : Bool) :
    Develops (assign lenient) :=
  fun type target b => develops_assignWithin lenient (hopsFor type target b) type target b

/-! ## Settled types -/

theorem substituteFields_eq_map
    (lookup : String → Option Ty) (unit : Option String) (fields : List (String × Ty)) :
    substituteFields lookup unit fields =
      fields.map fun field => (field.1, substitute lookup unit field.2) := by
  induction fields with
  | nil => rfl
  | cons field fields ih => rw [substituteFields, ih, List.map_cons]

mutual

/-- Only the open unit is replaced in a type without variables. -/
theorem substitute_of_isClosed
    (lookup other : String → Option Ty) (unit : Option String) :
    (type : Ty) → type.isClosed = true →
      substitute lookup unit type = substitute other unit type
  | .array elem, h => congrArg array (substitute_of_isClosed lookup other unit elem h)
  | .compound fields, h =>
      congrArg compound (substituteFields_of_areClosed lookup other unit fields h)
  | .any, _ | .boolean, _ | .string, _ | .number, _ | .currency, _ | .measure _, _
  | .enum _, _ | .entity _, _ | .date, _ | .time, _ | .location, _ | .recurrentTime, _
  | .argMap, _ | .object, _ | .unknown _, _ => rfl

theorem substituteFields_of_areClosed
    (lookup other : String → Option Ty) (unit : Option String) :
    (fields : List (String × Ty)) → areClosed fields = true →
      substituteFields lookup unit fields = substituteFields other unit fields
  | [], _ => rfl
  | (name, type) :: fields, h => by
      rw [areClosed, Bool.and_eq_true] at h
      rw [substituteFields, substituteFields, substitute_of_isClosed lookup other unit type h.1,
        substituteFields_of_areClosed lookup other unit fields h.2]

end

/-- A type without variables in which the open unit is replaced. -/
def inUnit (unit : Option String) (type : Ty) : Ty :=
  substitute (fun _ => none) unit type

end Ty

/-- What a variable stands for in the end: the type that it is bound to, in which the open unit is
replaced as well. -/
def Bindings.settled (b : Bindings) (name : String) : Option Ty :=
  (Keyed.find? name b.vars).map (Ty.inUnit b.unit)

namespace Ty

/-- A type with each variable replaced by what it stands for, and the open unit by the unit that it
is bound to, at every depth. -/
def settle (b : Bindings) (type : Ty) : Ty :=
  substitute b.settled b.unit type

theorem settle_of_isClosed
    (b : Bindings) {type : Ty} (h : type.isClosed = true) :
    type.settle b = type.inUnit b.unit :=
  substitute_of_isClosed _ _ _ type h

/-- Bindings to types without variables are followed once. -/
theorem resolve_eq_settle
    {b : Bindings} (hclosed : b.IsClosed) (type : Ty) :
    resolve b type = type.settle b := by
  have hwithin (hops : Nat) (bound : Ty) (hbound : bound.isClosed = true) :
      resolveWithin b hops bound = bound.inUnit b.unit := by
    cases hops with
    | zero => rfl
    | succ hops => exact substitute_of_isClosed _ _ _ bound hbound
  have hlookup (hops : Nat) :
      (fun name => (Keyed.find? name b.vars).map (resolveWithin b hops)) = b.settled := by
    funext name
    unfold Bindings.settled
    cases hbound : Keyed.find? name b.vars with
    | none => rfl
    | some bound => exact congrArg some (hwithin hops bound (hclosed name bound hbound))
  unfold resolve settle
  cases hvars : b.vars with
  | nil =>
      have hnone : b.settled = fun _ => none := by
        funext name
        rw [Bindings.settled, hvars, Keyed.find?_nil]
        rfl
      rw [hnone]
      rfl
  | cons entry rest =>
      rw [List.length_cons, resolveWithin, hlookup rest.length]

end Ty

end SkillLang

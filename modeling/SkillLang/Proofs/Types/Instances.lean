import Mathlib.Data.List.Forall2
import SkillLang.Proofs.Insertion
import SkillLang.Proofs.Types.Bindings

/-!
# Instances of overloads

Arguments are passed to the parameters of an overload one after the other, and what a type
variable or the open unit is bound to on the way depends on all that came before.  At the
end the bindings are put into the parameters.  Every argument fits what its parameter has
then become, on its own and without any bindings: a later binding only tells more about
what an earlier argument was accepted for.
-/

namespace SkillLang

/-! ## Fitting types -/

namespace MeasureUnit

theorem sameQuantity_iff
    (a b : String) :
    sameQuantity a b = true ↔ baseOf a = baseOf b :=
  beq_iff_eq

end MeasureUnit

namespace Bindings

open MeasureUnit (sameQuantity sameQuantity_iff)

/-- The open unit is free or bound to a unit of the same quantity as a given one. -/
def Suits (b : Bindings) (unit : Option String) : Prop :=
  ∀ bound, b.unit = some bound → ∃ final, unit = some final ∧ sameQuantity bound final = true

theorem suits_empty (unit : Option String) :
    Bindings.empty.Suits unit := by
  intro bound h
  cases h

/-- A unit of the quantity that the open unit has in the end is met in any case. -/
theorem Suits.meetUnit
    {b : Bindings} {final unit : String} (h : b.Suits (some final))
    (hunit : sameQuantity unit final = true) :
    ∃ next, b.meetUnit unit = (true, next) ∧ next.Suits (some final) := by
  unfold Bindings.meetUnit
  cases hbound : b.unit with
  | none =>
      refine ⟨_, rfl, ?_⟩
      intro bound heq
      cases heq
      exact ⟨final, rfl, hunit⟩
  | some bound =>
      obtain ⟨_, ⟨⟩, hsame⟩ := h bound hbound
      rw [sameQuantity_iff] at hsame hunit
      have hagree : sameQuantity bound unit = true :=
        (sameQuantity_iff bound unit).mpr (hsame.trans hunit.symm)
      exact ⟨b, by simp only [hagree], h⟩

/-- A unit that has been met is of the quantity that the open unit has in the end. -/
theorem exists_unit_of_meetUnit
    {b next final : Bindings} {unit : String} (h : b.meetUnit unit = (true, next))
    (hfinal : next.IsWithin final) :
    ∃ bound, final.unit = some bound ∧ sameQuantity unit bound = true := by
  unfold Bindings.meetUnit at h
  cases hbound : b.unit with
  | none =>
      rw [hbound] at h
      cases h
      exact ⟨unit, hfinal.unit unit rfl, (sameQuantity_iff unit unit).mpr rfl⟩
  | some bound =>
      rw [hbound, Prod.mk.injEq] at h
      obtain ⟨hsame, rfl⟩ := h
      rw [sameQuantity_iff] at hsame
      exact ⟨bound, hfinal.unit bound hbound, (sameQuantity_iff unit bound).mpr hsame.symm⟩

end Bindings

namespace Ty

open MeasureUnit (sameQuantity)

variable {lenient : Bool} {follow : Ty → Ty → Bindings → Bool × Bindings}

/-- A type is assignable without anything that follows variables, whatever unit of the quantity
of `unit` the open unit is bound to. -/
def Fits (lenient : Bool) (unit : Option String) (type target : Ty) : Prop :=
  ∀ (follow : Ty → Ty → Bindings → Bool × Bindings) (b : Bindings), b.Suits unit →
    ∃ next, assignWith lenient follow type target b = (true, next) ∧ next.Suits unit

variable {unit : Option String}

theorem Fits.isAssignable
    {type target : Ty} (h : Fits lenient unit type target) :
    type.isAssignable lenient target = true := by
  unfold Ty.isAssignable assign
  cases hopsFor type target .empty with
  | zero =>
      obtain ⟨next, hassign, -⟩ := h (fun _ _ b => (false, b)) .empty (Bindings.suits_empty unit)
      rw [assignWithin, hassign]
  | succ hops =>
      obtain ⟨next, hassign, -⟩ := h (assignWithin lenient hops) .empty (Bindings.suits_empty unit)
      rw [assignWithin, hassign]

theorem fits_of_settled
    {type target : Ty}
    (h : (agreesOutright type target || target.isAny || type.isAny) = true) :
    Fits lenient unit type target := by
  intro follow b hb
  exact ⟨b, by rw [assignWith_eq, if_pos h], hb⟩

theorem fits_of_parts
    {type target : Ty} (htype : type.varName? = none) (htarget : target.varName? = none)
    (hparts : ∀ (follow : Ty → Ty → Bindings → Bool × Bindings) (b : Bindings), b.Suits unit →
      ∃ next, assignParts lenient follow type target b = (true, next) ∧ next.Suits unit) :
    Fits lenient unit type target := by
  intro follow b hb
  rw [assignWith_eq]
  by_cases hsettled : (agreesOutright type target || target.isAny || type.isAny) = true
  · rw [if_pos hsettled]
    exact ⟨b, rfl, hb⟩
  · rw [if_neg hsettled, htype, htarget]
    exact hparts follow b hb

theorem Fits.array
    {elem target : Ty} (h : Fits lenient unit elem target) :
    Fits lenient unit (.array elem) (.array target) :=
  fits_of_parts rfl rfl h

theorem fits_compound
    {fields expected : List (String × Ty)}
    (h : ∀ field ∈ expected, ∃ type, Keyed.find? field.1 fields = some type ∧
      Fits lenient unit type field.2) :
    Fits lenient unit (.compound fields) (.compound expected) := by
  refine fits_of_parts rfl rfl ?_
  intro follow b hb
  rw [assignParts]
  induction expected generalizing b with
  | nil => exact ⟨b, rfl, hb⟩
  | cons field expected ih =>
      obtain ⟨hfirst, hrest⟩ := List.forall_mem_cons.mp h
      obtain ⟨type, hfind, hfits⟩ := hfirst
      obtain ⟨middle, hassign, hmiddle⟩ := hfits follow b hb
      obtain ⟨next, hnext, hsuits⟩ := ih hrest middle hmiddle
      exact ⟨next, by rw [assignFieldsWith, hfind]; simp only [hassign, hnext], hsuits⟩

/-- The open unit fits the unit that it is bound to in the end. -/
theorem fits_openMeasure
    (lenient : Bool) (unit : Option String) :
    Fits lenient unit (.measure "") (.measure (unit.getD "")) := by
  refine fits_of_parts rfl rfl ?_
  intro follow b hb
  cases unit with
  | none => exact ⟨b, rfl, hb⟩
  | some final =>
      simp only [assignParts, meetMeasures, Option.getD_some]
      cases final.isEmpty with
      | true => exact ⟨b, rfl, hb⟩
      | false => exact hb.meetUnit ((MeasureUnit.sameQuantity_iff final final).mpr rfl)

/-- A unit fits another one of its quantity, which may be the one that the open unit has got. -/
theorem fits_sameQuantity
    {source target : String} (hsource : source.isEmpty = false)
    (hsame : sameQuantity source target = true)
    (hopen : target.isEmpty = true → unit = some target) :
    Fits lenient unit (.measure source) (.measure target) := by
  refine fits_of_parts rfl rfl ?_
  intro follow b hb
  simp only [assignParts, meetMeasures, hsource]
  cases htarget : target.isEmpty with
  | false => exact ⟨b, by simp only [hsame], hb⟩
  | true =>
      rw [hopen htarget] at hb ⊢
      exact hb.meetUnit hsame

/-- The open unit fits every unit of the quantity that it has in the end. -/
theorem fits_openUnit
    {target bound : String} (htarget : target.isEmpty = false)
    (hsame : sameQuantity target bound = true) :
    Fits lenient (some bound) (.measure "") (.measure target) := by
  refine fits_of_parts rfl rfl ?_
  intro follow b hb
  simp only [assignParts, meetMeasures, htarget]
  exact hb.meetUnit hsame

theorem fits_of_meetMeasures
    {source target : String} {b next final : Bindings}
    (hmeet : meetMeasures source target b = (true, next)) (hfinal : next.IsWithin final) :
    Fits lenient final.unit (.measure source) (settle final (.measure target)) := by
  unfold meetMeasures at hmeet
  rw [settle, substitute]
  cases hsource : source.isEmpty with
  | true =>
      obtain rfl : source = "" := String.isEmpty_iff.mp hsource
      cases htarget : target.isEmpty with
      | true =>
          obtain rfl : target = "" := String.isEmpty_iff.mp htarget
          exact fits_openMeasure lenient final.unit
      | false =>
          rw [hsource, htarget] at hmeet
          obtain ⟨bound, hbound, hsame⟩ := Bindings.exists_unit_of_meetUnit hmeet hfinal
          rw [hbound, if_neg Bool.false_ne_true]
          exact fits_openUnit htarget hsame
  | false =>
      cases htarget : target.isEmpty with
      | true =>
          rw [hsource, htarget] at hmeet
          obtain ⟨bound, hbound, hsame⟩ := Bindings.exists_unit_of_meetUnit hmeet hfinal
          rw [hbound, if_pos rfl, Option.getD_some]
          exact fits_sameQuantity hsource hsame fun _ => rfl
      | false =>
          rw [hsource, htarget, Prod.mk.injEq] at hmeet
          rw [if_neg Bool.false_ne_true]
          refine fits_sameQuantity hsource hmeet.1 ?_
          intro hopen
          rw [htarget] at hopen
          cases hopen

/-- Neither a variable nor a measure, and without types inside. -/
def isPlain : Ty → Bool
  | var _ | measure _ | array _ | compound _ => false
  | _ => true

/-- What a plain type accepts depends on the bindings in no way. -/
theorem assignParts_of_isPlain
    {type target : Ty} (hplain : target.isPlain = true) {b next : Bindings}
    (hparts : assignParts lenient follow type target b = (true, next))
    (other : Ty → Ty → Bindings → Bool × Bindings) (c : Bindings) :
    assignParts lenient other type target c = (true, c) := by
  have hfirst : (assignParts lenient follow type target b).1 = true := by rw [hparts]
  cases target with
  | var _ | measure _ | array _ | compound _ => cases hplain
  | enum target =>
      cases type with
      | enum entries =>
          cases entries <;> cases target <;> first | rfl | exact Prod.ext hfirst rfl
      | _ => cases hfirst
  | entity target =>
      cases type with
      | entity _ | string => exact Prod.ext hfirst rfl
      | _ => cases hfirst
  | string =>
      cases type with
      | entity _ => exact Prod.ext hfirst rfl
      | _ => cases hfirst
  | object =>
      cases type with
      | compound _ => rfl
      | _ => cases hfirst
  | _ => cases type <;> cases hfirst

theorem fits_of_isPlain
    {type target : Ty} (hplain : target.isPlain = true) (htype : type.varName? = none)
    {b next final : Bindings} (hparts : assignParts lenient follow type target b = (true, next)) :
    Fits lenient unit type (target.settle final) := by
  have hsettle : target.settle final = target := by
    cases target with
    | var _ | measure _ | array _ | compound _ => cases hplain
    | _ => rfl
  have htarget : target.varName? = none := by
    cases target with
    | var _ => cases hplain
    | _ => rfl
  rw [hsettle]
  refine fits_of_parts htype htarget ?_
  intro other c hc
  exact ⟨c, assignParts_of_isPlain hplain hparts other c, hc⟩

mutual

/-- A type without variables fits itself, whatever the open unit is replaced by. -/
theorem fits_inUnit
    (lenient : Bool) (unit : Option String) :
    (type : Ty) → type.isClosed = true → type.hasUniqueFields = true →
      Fits lenient unit type (type.inUnit unit)
  | .array elem, hclosed, hunique => (fits_inUnit lenient unit elem hclosed hunique).array
  | .compound fields, hclosed, hunique => by
      rw [hasUniqueFields, Bool.and_eq_true, decide_eq_true_eq] at hunique
      have hfields := fits_fieldsInUnit lenient unit fields hclosed hunique.2
      rw [inUnit, substitute, substituteFields_eq_map]
      refine fits_compound ?_
      rw [List.forall_mem_map]
      intro field hfield
      exact ⟨field.2, Keyed.find?_of_mem hunique.1 hfield, hfields field hfield⟩
  | .measure source, _, _ => by
      rw [inUnit, substitute]
      cases hsource : source.isEmpty with
      | true =>
          obtain rfl : source = "" := String.isEmpty_iff.mp hsource
          exact fits_openMeasure lenient unit
      | false =>
          rw [if_neg Bool.false_ne_true]
          refine fits_sameQuantity hsource ((MeasureUnit.sameQuantity_iff source source).mpr rfl) ?_
          intro hopen
          rw [hsource] at hopen
          cases hopen
  | .any, _, _ | .boolean, _, _ | .string, _, _ | .number, _, _ | .currency, _, _
  | .enum _, _, _ | .entity _, _, _ | .date, _, _ | .time, _, _ | .location, _, _
  | .recurrentTime, _, _ | .argMap, _, _ | .object, _, _ | .unknown _, _, _ =>
      fits_of_settled (by simp [inUnit, substitute, agreesOutright])

theorem fits_fieldsInUnit
    (lenient : Bool) (unit : Option String) :
    (fields : List (String × Ty)) → areClosed fields = true → haveUniqueFields fields = true →
      ∀ field ∈ fields, Fits lenient unit field.2 (field.2.inUnit unit)
  | [], _, _ => List.forall_mem_nil _
  | (_, type) :: fields, hclosed, hunique => by
      rw [areClosed, Bool.and_eq_true] at hclosed
      rw [haveUniqueFields, Bool.and_eq_true] at hunique
      exact List.forall_mem_cons.mpr
        ⟨fits_inUnit lenient unit type hclosed.1 hunique.1,
          fits_fieldsInUnit lenient unit fields hclosed.2 hunique.2⟩

end

/-! ## What is accepted fits in the end -/

/-- A type that is passed fits what its target has become when the bindings are complete. -/
def Settles (lenient : Bool) (pass : Ty → Ty → Bindings → Bool × Bindings) : Prop :=
  ∀ (type target : Ty) (b next final : Bindings), type.isClosed = true →
    type.hasUniqueFields = true → b.IsClosed → pass type target b = (true, next) →
      next.IsWithin final → Fits lenient final.unit type (target.settle final)

/-- A variable is either free, and then bound to the type, or the type is passed to what it is
bound to. -/
theorem Settles.meetVar
    (h : Settles lenient follow) {type : Ty} {name : String} {b next final : Bindings}
    (hclosed : type.isClosed = true) (hunique : type.hasUniqueFields = true)
    (hb : b.IsClosed) (hmeet : meetVar follow type name b = (true, next))
    (hdevelops : b.Develops next) (hfinal : next.IsWithin final) :
    Fits lenient final.unit type (settle final (.var name)) := by
  unfold Ty.meetVar at hmeet
  rw [settle, substitute, Bindings.settled]
  cases hbound : Keyed.find? name b.vars with
  | none =>
      rw [hbound] at hmeet
      cases hmeet
      have hlast := hfinal.vars name type (Keyed.find?_insert_self name type b.vars)
      rw [hlast]
      exact fits_inUnit lenient final.unit type hclosed hunique
  | some bound =>
      rw [hbound] at hmeet
      have hlast := hfinal.vars name bound (hdevelops.isWithin.vars name bound hbound)
      have hfits := h type bound b next final hclosed hunique hb hmeet hfinal
      rw [settle_of_isClosed final (hb name bound hbound)] at hfits
      rw [hlast]
      exact hfits

theorem Settles.of_parts
    (h : Settles lenient follow) (hfollow : Develops follow) {type target : Ty}
    {b next final : Bindings} (hclosed : type.isClosed = true)
    (hunique : type.hasUniqueFields = true) (hb : b.IsClosed)
    (hparts : assignParts lenient follow type target b = (true, next) →
      Fits lenient final.unit type (target.settle final))
    (hassign : assignWith lenient follow type target b = (true, next))
    (hfinal : next.IsWithin final) :
    Fits lenient final.unit type (target.settle final) := by
  have hdevelops : b.Develops (assignWith lenient follow type target b).2 :=
    hfollow.assignWith target type b hclosed
  rw [hassign] at hdevelops
  rw [assignWith_eq] at hassign
  by_cases hsettled : (agreesOutright type target || target.isAny || type.isAny) = true
  · simp only [Bool.or_eq_true] at hsettled
    rcases hsettled with (hsame | hany) | hany
    · -- What the two agree in may still hold the open unit, which is bound later.
      rw [← eq_of_agreesOutright hsame, settle_of_isClosed final hclosed]
      exact fits_inUnit lenient final.unit type hclosed hunique
    · rw [eq_any_of_isAny hany]
      exact fits_of_settled (by simp [settle, substitute, isAny])
    · exact fits_of_settled (by simp [hany])
  · rw [if_neg hsettled, varName?_of_isClosed hclosed] at hassign
    cases htarget : target.varName? with
    | none =>
        rw [htarget] at hassign
        exact hparts hassign
    | some name =>
        rw [htarget] at hassign
        cases target with
        | var _ =>
            cases htarget
            exact h.meetVar hclosed hunique hb hassign hdevelops hfinal
        | _ => cases htarget

mutual

theorem Settles.assignWith
    (h : Settles lenient follow) (hfollow : Develops follow) (target type : Ty)
    (b next final : Bindings) (hclosed : type.isClosed = true)
    (hunique : type.hasUniqueFields = true) (hb : b.IsClosed)
    (hassign : assignWith lenient follow type target b = (true, next))
    (hfinal : next.IsWithin final) :
    Fits lenient final.unit type (target.settle final) := by
  refine h.of_parts hfollow hclosed hunique hb ?_ hassign hfinal
  intro hparts
  cases target with
  | array target =>
      cases type with
      | array elem =>
          exact (h.assignWith hfollow target elem b next final hclosed hunique hb hparts
            hfinal).array
      | _ => cases hparts
  | compound target =>
      cases type with
      | compound fields =>
          have hfields := h.assignFieldsWith hfollow target fields b next final hclosed hunique
            hb hparts hfinal
          rw [settle, substitute, substituteFields_eq_map]
          exact fits_compound (List.forall_mem_map.mpr hfields)
      | _ => cases hparts
  | measure target =>
      cases type with
      | measure source => exact fits_of_meetMeasures hparts hfinal
      | _ => cases hparts
  | var name => cases type <;> cases hparts
  | _ => exact fits_of_isPlain rfl (varName?_of_isClosed hclosed) hparts
termination_by structural target

theorem Settles.assignFieldsWith
    (h : Settles lenient follow) (hfollow : Develops follow)
    (expected fields : List (String × Ty)) (b next final : Bindings)
    (hclosed : (compound fields).isClosed = true)
    (hunique : (compound fields).hasUniqueFields = true) (hb : b.IsClosed)
    (hassign : assignFieldsWith lenient follow fields expected b = (true, next))
    (hfinal : next.IsWithin final) :
    ∀ field ∈ expected, ∃ type, Keyed.find? field.1 fields = some type ∧
      Fits lenient final.unit type (field.2.settle final) := by
  cases expected with
  | nil => exact List.forall_mem_nil _
  | cons field rest =>
      obtain ⟨name, target⟩ := field
      rw [Ty.assignFieldsWith] at hassign
      cases hfind : Keyed.find? name fields with
      | none => simp [hfind] at hassign
      | some type =>
          rw [hfind] at hassign
          have htype := isClosed_of_find? hclosed hfind
          rcases hfirst : Ty.assignWith lenient follow type target b with ⟨fits, middle⟩
          cases fits with
          | false => simp [hfirst] at hassign
          | true =>
              simp only [hfirst] at hassign
              have hmiddle : b.Develops (Ty.assignWith lenient follow type target b).2 :=
                hfollow.assignWith target type b htype
              have hnext : middle.Develops
                  (Ty.assignFieldsWith lenient follow fields rest middle).2 :=
                hfollow.assignFieldsWith rest fields middle hclosed
              rw [hfirst] at hmiddle
              rw [hassign] at hnext
              have hfits := h.assignWith hfollow target type b middle final htype
                (hasUniqueFields_of_find? hunique hfind) hb hfirst (hnext.isWithin.trans hfinal)
              exact List.forall_mem_cons.mpr ⟨⟨type, hfind, hfits⟩,
                h.assignFieldsWith hfollow rest fields middle next final hclosed hunique
                  (hmiddle.isClosed hb) hassign hfinal⟩
termination_by structural expected

end

theorem settles_assignWithin
    (lenient : Bool) (hops : Nat) :
    Settles lenient (assignWithin lenient hops) := by
  induction hops with
  | zero =>
      have hnever : Settles lenient fun _ _ b => (false, b) := by
        intro type target b next final _ _ _ hassign
        cases hassign
      exact fun type target => hnever.assignWith (fun _ _ b _ => .refl b) target type
  | succ hops ih =>
      exact fun type target => ih.assignWith (develops_assignWithin lenient hops) target type

theorem settles_assign
    (lenient : Bool) :
    Settles lenient (assign lenient) :=
  fun type target b => settles_assignWithin lenient (hopsFor type target b) type target b

end Ty

/-! ## Overloads -/

namespace Overload

/-- An overload in the types that its variables stand for. -/
def settle (b : Bindings) (o : Overload) : Overload :=
  ⟨o.params.map (Ty.settle b), o.result.settle b⟩

end Overload

namespace OperatorTable

/-- Arguments are passed from left to right, each with the bindings that the ones before it left
behind, and there is one for each parameter. -/
inductive Passes (lenient : Bool) : (args params : List Ty) → Bindings → Bindings → Prop
  | nil (b : Bindings) : Passes lenient [] [] b b
  | cons {arg param : Ty} {args params : List Ty} {b next final : Bindings}
      (hfirst : arg.assign lenient param b = (true, next))
      (hrest : Passes lenient args params next final) :
      Passes lenient (arg :: args) (param :: params) b final

variable {lenient : Bool} {args params : List Ty}

theorem passes_iff
    {b final : Bindings} :
    Passes lenient args params b final ↔
      params.length = args.length ∧ acceptAll lenient args params b = (true, final) := by
  constructor
  · intro h
    induction h with
    | nil b => exact ⟨rfl, rfl⟩
    | cons hfirst _ ih =>
        refine ⟨congrArg (· + 1) ih.1, ?_⟩
        rw [acceptAll, hfirst]
        exact ih.2
  · rintro ⟨hlength, haccept⟩
    induction args generalizing params b with
    | nil =>
        obtain rfl := List.length_eq_zero_iff.mp hlength
        cases haccept
        exact .nil _
    | cons arg args ih =>
        cases params with
        | nil => cases hlength
        | cons param params =>
            rw [acceptAll] at haccept
            rcases hfirst : arg.assign lenient param b with ⟨fits, next⟩
            cases fits with
            | false => simp [hfirst] at haccept
            | true =>
                simp only [hfirst] at haccept
                exact .cons hfirst (ih (Nat.succ.inj hlength) haccept)

theorem Passes.develops
    {b final : Bindings} (h : Passes lenient args params b final)
    (hclosed : ∀ arg ∈ args, arg.isClosed = true) :
    b.Develops final := by
  induction h with
  | nil b => exact .refl b
  | @cons arg param args params b next final hfirst _ ih =>
      obtain ⟨harg, hargs⟩ := List.forall_mem_cons.mp hclosed
      have hnext := Ty.develops_assign lenient arg param b harg
      rw [hfirst] at hnext
      exact hnext.trans (ih hargs)

/-- Each argument fits what its parameter is when all arguments have been passed. -/
theorem Passes.fits
    {b final : Bindings} (h : Passes lenient args params b final) (hb : b.IsClosed)
    (hargs : ∀ arg ∈ args, arg.isClosed = true ∧ arg.hasUniqueFields = true) :
    List.Forall₂ (fun arg param => Ty.Fits lenient final.unit arg param) args
      (params.map (Ty.settle final)) := by
  induction h with
  | nil b => exact .nil
  | @cons arg param args params b next final hfirst hrest ih =>
      obtain ⟨⟨hclosed, hunique⟩, hargs⟩ := List.forall_mem_cons.mp hargs
      have hnext := Ty.develops_assign lenient arg param b hclosed
      rw [hfirst] at hnext
      have hlater := hrest.develops fun arg harg => (hargs arg harg).1
      have hfits := Ty.settles_assign lenient arg param b next final hclosed hunique hb hfirst
        hlater.isWithin
      exact .cons hfits (ih (hnext.isClosed hb) hargs)

theorem instantiate?_eq_some
    {o chosen : Overload} (hclosed : ∀ arg ∈ args, arg.isClosed = true)
    (hlength : o.params.length = args.length) (h : instantiate? lenient args o = some chosen) :
    ∃ b, Passes lenient args o.params .empty b ∧ chosen = o.settle b := by
  unfold instantiate? at h
  rcases haccept : acceptAll lenient args o.params .empty with ⟨accepted, b⟩
  cases accepted with
  | false => simp [haccept] at h
  | true =>
      have hpasses : Passes lenient args o.params .empty b := passes_iff.mpr ⟨hlength, haccept⟩
      have hb : b.IsClosed := (hpasses.develops hclosed).isClosed Bindings.isClosed_empty
      refine ⟨b, hpasses, ?_⟩
      simp only [haccept, Option.some.injEq] at h
      rw [← h, Overload.settle, Ty.resolve_eq_settle hb, funext (Ty.resolve_eq_settle hb)]

theorem not_passes_of_instantiate?_eq_none
    {o : Overload} (h : instantiate? lenient args o = none) (b : Bindings) :
    ¬Passes lenient args o.params .empty b := by
  intro hpasses
  rw [instantiate?, (passes_iff.mp hpasses).2] at h
  cases h

/-- Among the overloads that are tried, the first one is chosen whose parameters take the
arguments. -/
theorem resolve?_eq_some
    {table : OperatorTable} {op : String} {chosen : Overload}
    (h : table.resolve? op args lenient = some chosen) :
    ∃ overloads before o after, table.lookup op = some overloads ∧
      overloads.take Limits.maxOverloadsTried = before ++ o :: after ∧
      (∀ earlier ∈ before, ∀ b, ¬Passes lenient args earlier.params .empty b) ∧
      o.params.length = args.length ∧ instantiate? lenient args o = some chosen := by
  unfold resolve? at h
  cases hlookup : table.lookup op with
  | none => simp [hlookup] at h
  | some overloads =>
      simp only [hlookup] at h
      obtain ⟨refused, o, _, hfilter, hchosen, hrefused⟩ := List.findSome?_eq_some_iff.mp h
      obtain ⟨before, rest, htried, hbefore, hrest⟩ := List.filter_eq_append_iff.mp hfilter
      obtain ⟨skipped, after, rfl, hskipped, hlength, -⟩ := List.filter_eq_cons_iff.mp hrest
      refine ⟨overloads, before ++ skipped, o, after, rfl, by simp [htried], ?_,
        eq_of_beq hlength, hchosen⟩
      intro earlier hearlier b hpasses
      have harity : (earlier.params.length == args.length) = true :=
        beq_iff_eq.mpr (passes_iff.mp hpasses).1
      rw [List.mem_append] at hearlier
      rcases hearlier with hearlier | hearlier
      · have hmem : earlier ∈ refused := hbefore ▸ List.mem_filter.mpr ⟨hearlier, harity⟩
        exact not_passes_of_instantiate?_eq_none (hrefused earlier hmem) b hpasses
      · exact hskipped earlier hearlier harity

/-- The overload that is chosen for arguments without type variables is an instance of the first one
that takes them, and each of them is assignable to its parameter in that instance. -/
theorem resolve?_isAssignable
    {table : OperatorTable} {op : String} {lenient : Bool} {args : List Ty} {chosen : Overload}
    (hargs : ∀ arg ∈ args, arg.isClosed = true ∧ arg.hasUniqueFields = true)
    (h : table.resolve? op args lenient = some chosen) :
    (∃ overloads before o after b, table.lookup op = some overloads ∧
      overloads.take Limits.maxOverloadsTried = before ++ o :: after ∧
      (∀ earlier ∈ before, ∀ c, ¬Passes lenient args earlier.params .empty c) ∧
      Passes lenient args o.params .empty b ∧ chosen = o.settle b) ∧
      chosen.params.length = args.length ∧
      List.Forall₂ (fun arg param => arg.isAssignable lenient param = true) args chosen.params := by
  obtain ⟨overloads, before, o, after, hlookup, htried, hbefore, hlength, hchosen⟩ :=
    resolve?_eq_some h
  obtain ⟨b, hpasses, rfl⟩ :=
    instantiate?_eq_some (fun arg harg => (hargs arg harg).1) hlength hchosen
  have hfits := hpasses.fits Bindings.isClosed_empty hargs
  refine ⟨⟨overloads, before, o, after, b, hlookup, htried, hbefore, hpasses, rfl⟩, ?_, ?_⟩
  · exact (List.length_map _).trans hlength
  · exact hfits.imp fun _ _ h => h.isAssignable

-- The element is bound to the open unit, and the open unit to degrees only after that.
theorem contains_openMeasure_isAssignable :
    (filters.resolve? "contains" [.array (.measure ""), .measure "C"] false).map Overload.params =
        some [.array (.measure "C"), .measure "C"] ∧
      (Ty.array (.measure "")).isAssignable false (.array (.measure "C")) = true ∧
      (Ty.measure "C").isAssignable false (.measure "C") = true := by
  have hchosen : filters.resolve? "contains" [.array (.measure ""), .measure "C"] false =
      some ⟨[.array (.measure "C"), .measure "C"], .boolean⟩ :=
    rfl
  obtain ⟨-, -, hassignable⟩ := resolve?_isAssignable (by decide) hchosen
  obtain ⟨harray, hassignable⟩ := List.forall₂_cons.mp hassignable
  exact ⟨rfl, harray, (List.forall₂_cons.mp hassignable).1⟩

end OperatorTable

end SkillLang

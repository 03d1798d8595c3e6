import SkillLang.Proofs.Types.Instances

/-!
# Closed types

Between types in which no variable occurs, assignability never follows a binding.  A
closed type can always be passed for itself, and arrays of closed types are compared like
their elements.
-/

namespace SkillLang.Ty

variable {lenient : Bool} {follow other : Ty → Ty → Bindings → Bool × Bindings}

/-- Assignability is one step, with something that follows variables. -/
theorem exists_assign_eq
    (lenient : Bool) (type target : Ty) (b : Bindings) :
    ∃ follow, assign lenient type target b = assignWith lenient follow type target b := by
  unfold assign
  cases hopsFor type target b with
  | zero => exact ⟨_, rfl⟩
  | succ hops => exact ⟨_, rfl⟩

/-- Where no variable is met, types agree outright, one of them stands for any type, or they are
compared part by part. -/
theorem assignWith_of_varName?
    {type target : Ty} (htype : type.varName? = none) (htarget : target.varName? = none)
    (b : Bindings) :
    assignWith lenient follow type target b =
      if agreesOutright type target || target.isAny || type.isAny then (true, b)
      else assignParts lenient follow type target b := by
  rw [assignWith_eq, htype, htarget]

theorem assignWith_self
    {type : Ty} (h : type.varName? = none) (b : Bindings) :
    assignWith lenient follow type type b = (true, b) := by
  have hagree (hself : agreesOutright type type = true) :
      assignWith lenient follow type type b = (true, b) := by
    rw [assignWith_of_varName? h h, hself]
    rfl
  cases type with
  | measure unit =>
      have hsame : MeasureUnit.sameQuantity unit unit = true :=
        (MeasureUnit.sameQuantity_iff unit unit).mpr rfl
      rw [assignWith_of_varName? rfl rfl]
      simp only [assignParts, meetMeasures]
      cases unit.isEmpty <;> simp [hsame]
  | var _ => cases h
  | _ => exact hagree (beq_self _)

theorem assignWith_congr_of_closedParts
    {type target : Ty} (htype : type.isClosed = true) (htarget : target.isClosed = true)
    {b : Bindings}
    (hparts : assignParts lenient follow type target b = assignParts lenient other type target b) :
    assignWith lenient follow type target b = assignWith lenient other type target b := by
  have htypeName := varName?_of_isClosed htype
  have htargetName := varName?_of_isClosed htarget
  rw [assignWith_of_varName? htypeName htargetName, assignWith_of_varName? htypeName htargetName,
    hparts]

mutual

/-- It does not matter what follows variables. -/
theorem assignWith_congr_of_isClosed
    (lenient : Bool) (follow other : Ty → Ty → Bindings → Bool × Bindings) :
    (target type : Ty) → (b : Bindings) → type.isClosed = true → target.isClosed = true →
      assignWith lenient follow type target b = assignWith lenient other type target b
  | .array target, type, b, htype, htarget => by
      refine assignWith_congr_of_closedParts htype htarget ?_
      cases type with
      | array elem =>
          exact assignWith_congr_of_isClosed lenient follow other target elem b htype htarget
      | _ => rfl
  | .compound expected, type, b, htype, htarget => by
      refine assignWith_congr_of_closedParts htype htarget ?_
      cases type with
      | compound fields =>
          exact assignFieldsWith_congr_of_isClosed lenient follow other expected fields b htype
            htarget
      | _ => rfl
  | .var _, _, _, _, htarget => by cases htarget
  | .any, type, b, htype, htarget | .boolean, type, b, htype, htarget
  | .string, type, b, htype, htarget | .number, type, b, htype, htarget
  | .currency, type, b, htype, htarget | .measure _, type, b, htype, htarget
  | .enum _, type, b, htype, htarget | .entity _, type, b, htype, htarget
  | .date, type, b, htype, htarget | .time, type, b, htype, htarget
  | .location, type, b, htype, htarget | .recurrentTime, type, b, htype, htarget
  | .argMap, type, b, htype, htarget | .object, type, b, htype, htarget
  | .unknown _, type, b, htype, htarget => by
      refine assignWith_congr_of_closedParts htype htarget ?_
      cases type <;> rfl

theorem assignFieldsWith_congr_of_isClosed
    (lenient : Bool) (follow other : Ty → Ty → Bindings → Bool × Bindings) :
    (expected fields : List (String × Ty)) → (b : Bindings) →
      (compound fields).isClosed = true → (compound expected).isClosed = true →
      assignFieldsWith lenient follow fields expected b =
        assignFieldsWith lenient other fields expected b
  | [], _, _, _, _ => rfl
  | (name, target) :: rest, fields, b, hfields, hexpected => by
      rw [isClosed, areClosed, Bool.and_eq_true] at hexpected
      rw [assignFieldsWith, assignFieldsWith]
      cases hfind : Keyed.find? name fields with
      | none => rfl
      | some type =>
          have htype := isClosed_of_find? hfields hfind
          dsimp only
          rw [assignWith_congr_of_isClosed lenient follow other target type b htype hexpected.1]
          rcases assignWith lenient other type target b with ⟨fits, next⟩
          cases fits with
          | false => rfl
          | true =>
              exact assignFieldsWith_congr_of_isClosed lenient follow other rest fields next hfields
                hexpected.2

end

/-- Arrays are assignable just as their elements are. -/
theorem isAssignable_array
    (lenient : Bool) {type target : Ty} (htype : type.isClosed = true)
    (htarget : target.isClosed = true) :
    (array type).isAssignable lenient (.array target) = type.isAssignable lenient target := by
  obtain ⟨follow, harrays⟩ := exists_assign_eq lenient (.array type) (.array target) .empty
  obtain ⟨other, helements⟩ := exists_assign_eq lenient type target .empty
  have hfollow := assignWith_congr_of_isClosed lenient follow other target type .empty htype htarget
  have hparts : assignParts lenient follow (.array type) (.array target) .empty =
      assignWith lenient other type target .empty := hfollow
  rw [isAssignable, isAssignable, harrays, helements, assignWith_of_varName? rfl rfl, hparts]
  -- Arrays of one measure agree outright, while the measures themselves are compared by unit.
  by_cases hagree : agreesOutright (.array type) (.array target) = true
  · obtain rfl : type = target := array.inj (eq_of_agreesOutright hagree)
    rw [hagree, assignWith_self (varName?_of_isClosed htype)]
    rfl
  · rw [Bool.eq_false_iff.mpr hagree]
    rfl

end SkillLang.Ty

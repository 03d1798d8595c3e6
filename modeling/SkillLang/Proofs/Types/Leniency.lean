import SkillLang.Typing.Operators

/-!
# Lenient assignability

Lenient use lets strings and entities take each other's place and changes nothing else.
Whatever is assignable in strict use therefore stays assignable, with the same bindings,
and a type in which neither text nor entities are expected is as strict as before.  The
operators of values and of aggregations are arranged so that they find the same overload
in both uses.
-/

namespace SkillLang

namespace Ty

/-! ## One step of assignability -/

/-- Assignability of two types that is settled neither at once nor by a variable. -/
def assignParts (lenient : Bool) (follow : Ty → Ty → Bindings → Bool × Bindings) :
    (type target : Ty) → Bindings → Bool × Bindings
  | measure unit, measure target, b => meetMeasures unit target b
  | enum entries, enum target, b =>
    match entries, target with
    | some entries, some allowed => (entries.all fun entry => allowed.contains entry, b)
    | _, _ => (true, b)
  | entity kind, entity target, b => (target == "*" || kind == target, b)
  | string, entity _, b | entity _, string, b => (lenient, b)
  | array elem, array target, b => assignWith lenient follow elem target b
  | compound fields, compound target, b => assignFieldsWith lenient follow fields target b
  | compound _, object, b => (true, b)
  | _, _, b => (false, b)

theorem assignWith_eq
    (lenient : Bool) (follow : Ty → Ty → Bindings → Bool × Bindings) (type target : Ty)
    (b : Bindings) :
    assignWith lenient follow type target b =
      if agreesOutright type target || target.isAny || type.isAny then (true, b)
      else
        match target.varName?, type.varName? with
        | some name, _ => meetVar follow type name b
        | none, some name => varMeets follow name target b
        | none, none => assignParts lenient follow type target b := by
  cases target <;> cases type <;> try rfl
  case enum.enum entries target =>
    cases entries <;> cases target <;> rfl

/-! ## What is assignable stays so -/

/-- What the first one assigns, the second one assigns as well and with the same bindings. -/
def Extends (f g : Ty → Ty → Bindings → Bool × Bindings) : Prop :=
  ∀ type target b b', f type target b = (true, b') → g type target b = (true, b')

variable {f g : Ty → Ty → Bindings → Bool × Bindings}

theorem Extends.meetVar
    (h : Extends f g) {type : Ty} {name : String} {b b' : Bindings}
    (hmeet : meetVar f type name b = (true, b')) :
    meetVar g type name b = (true, b') := by
  unfold Ty.meetVar at hmeet ⊢
  cases hbound : Keyed.find? name b.vars with
  | none =>
      rw [hbound] at hmeet
      exact hmeet
  | some bound =>
      rw [hbound] at hmeet
      exact h type bound b b' hmeet

theorem Extends.varMeets
    (h : Extends f g) {name : String} {target : Ty} {b b' : Bindings}
    (hmeet : varMeets f name target b = (true, b')) :
    varMeets g name target b = (true, b') := by
  unfold Ty.varMeets at hmeet ⊢
  cases hbound : Keyed.find? name b.vars with
  | none =>
      rw [hbound] at hmeet
      exact hmeet
  | some bound =>
      rw [hbound] at hmeet
      exact h bound target b b' hmeet

variable {lenient : Bool}

theorem Extends.assignWith_of_parts
    (h : Extends f g) {type target : Ty} {b b' : Bindings}
    (hparts : assignParts lenient f type target b = (true, b') →
      assignParts true g type target b = (true, b'))
    (hassign : assignWith lenient f type target b = (true, b')) :
    assignWith true g type target b = (true, b') := by
  rw [assignWith_eq] at hassign ⊢
  by_cases hsettled : (agreesOutright type target || target.isAny || type.isAny) = true
  · rw [if_pos hsettled] at hassign ⊢
    exact hassign
  · rw [if_neg hsettled] at hassign ⊢
    cases htarget : target.varName? with
    | some name =>
        rw [htarget] at hassign
        exact h.meetVar hassign
    | none =>
        rw [htarget] at hassign
        cases htype : type.varName? with
        | some name =>
            rw [htype] at hassign
            exact h.varMeets hassign
        | none =>
            rw [htype] at hassign
            exact hparts hassign

mutual

theorem Extends.assignWith
    (h : Extends f g) :
    (target type : Ty) → (b b' : Bindings) →
      assignWith lenient f type target b = (true, b') →
        assignWith true g type target b = (true, b')
  | .array target, type, b, b', hassign => by
      refine h.assignWith_of_parts ?_ hassign
      cases type with
      | array elem => exact h.assignWith target elem b b'
      | _ => exact id
  | .compound target, type, b, b', hassign => by
      refine h.assignWith_of_parts ?_ hassign
      cases type with
      | compound fields => exact h.assignFieldsWith target fields b b'
      | _ => exact id
  | .string, type, b, b', hassign | .entity _, type, b, b', hassign => by
      refine h.assignWith_of_parts ?_ hassign
      -- This is where a lenient use accepts more.
      cases type with
      | string | entity _ => simp [assignParts]
      | _ => exact id
  | .any, type, b, b', hassign | .boolean, type, b, b', hassign
  | .number, type, b, b', hassign | .currency, type, b, b', hassign
  | .measure _, type, b, b', hassign | .enum _, type, b, b', hassign
  | .date, type, b, b', hassign | .time, type, b, b', hassign
  | .location, type, b, b', hassign | .recurrentTime, type, b, b', hassign
  | .argMap, type, b, b', hassign | .object, type, b, b', hassign
  | .var _, type, b, b', hassign | .unknown _, type, b, b', hassign => by
      refine h.assignWith_of_parts ?_ hassign
      cases type <;> exact id

theorem Extends.assignFieldsWith
    (h : Extends f g) :
    (expected fields : List (String × Ty)) → (b b' : Bindings) →
      assignFieldsWith lenient f fields expected b = (true, b') →
        assignFieldsWith true g fields expected b = (true, b')
  | [], _, _, _, hassign => hassign
  | (name, target) :: rest, fields, b, b', hassign => by
      rw [Ty.assignFieldsWith] at hassign ⊢
      cases hfield : Keyed.find? name fields with
      | none =>
          rw [hfield] at hassign
          cases hassign
      | some type =>
          rw [hfield] at hassign
          rcases hfirst : Ty.assignWith lenient f type target b with ⟨fits, next⟩
          cases fits with
          | false => simp [hfirst] at hassign
          | true =>
              simp only [hfirst] at hassign
              simp only [h.assignWith target type b next hfirst]
              exact h.assignFieldsWith rest fields next b' hassign

end

theorem extends_assignWithin
    (lenient : Bool) (hops : Nat) :
    Extends (assignWithin lenient hops) (assignWithin true hops) := by
  induction hops with
  | zero =>
      have hnever : Extends (fun _ _ b => (false, b)) (fun _ _ b => (false, b)) :=
        fun _ _ _ _ hassign => hassign
      exact fun type target => hnever.assignWith target type
  | succ hops ih => exact fun type target => ih.assignWith target type

theorem extends_assign
    (lenient : Bool) :
    Extends (assign lenient) (assign true) :=
  fun type target b => extends_assignWithin lenient (hopsFor type target b) type target b

theorem isAssignable_lenient
    {lenient : Bool} {type target : Ty} (h : type.isAssignable lenient target = true) :
    type.isAssignable true target = true := by
  unfold isAssignable at h ⊢
  have hassign : assign lenient type target .empty =
      (true, (assign lenient type target .empty).2) := Prod.ext h rfl
  rw [extends_assign lenient _ _ _ _ hassign]

/-! ## Neutral types -/

/-- Neither text nor an entity can be expected in the type. -/
def isNeutral : Ty → Bool
  | string | entity _ | compound _ | var _ => false
  | array elem => elem.isNeutral
  | _ => true

theorem assignWith_congr_of_parts
    {l l' : Bool} {type target : Ty} {b : Bindings} (htarget : target.varName? = none)
    (hfollow : ∀ type, f type target b = g type target b)
    (hparts : assignParts l f type target b = assignParts l' g type target b) :
    assignWith l f type target b = assignWith l' g type target b := by
  have hmeets (name : String) : varMeets f name target b = varMeets g name target b := by
    simp only [varMeets, hfollow]
  simp only [assignWith_eq, htarget, hmeets, hparts]
  cases type.varName? <;> rfl

theorem assignWith_of_isNeutral
    (l l' : Bool)
    (hfollow : ∀ type target b, isNeutral target = true → f type target b = g type target b) :
    (target type : Ty) → (b : Bindings) → target.isNeutral = true →
      assignWith l f type target b = assignWith l' g type target b
  | .array target, type, b, hneutral => by
      refine assignWith_congr_of_parts rfl (fun _ => hfollow _ _ b hneutral) ?_
      cases type with
      | array elem => exact assignWith_of_isNeutral l l' hfollow target elem b hneutral
      | _ => rfl
  | .any, type, b, hneutral | .boolean, type, b, hneutral | .number, type, b, hneutral
  | .currency, type, b, hneutral | .measure _, type, b, hneutral
  | .enum _, type, b, hneutral | .date, type, b, hneutral | .time, type, b, hneutral
  | .location, type, b, hneutral | .recurrentTime, type, b, hneutral
  | .argMap, type, b, hneutral | .object, type, b, hneutral
  | .unknown _, type, b, hneutral => by
      refine assignWith_congr_of_parts rfl (fun _ => hfollow _ _ b hneutral) ?_
      cases type <;> rfl

theorem assignWithin_of_isNeutral
    (l l' : Bool) (hops : Nat) (type target : Ty) (b : Bindings)
    (hneutral : target.isNeutral = true) :
    assignWithin l hops type target b = assignWithin l' hops type target b := by
  induction hops generalizing type target b with
  | zero => exact assignWith_of_isNeutral l l' (fun _ _ _ _ => rfl) target type b hneutral
  | succ hops ih => exact assignWith_of_isNeutral l l' ih target type b hneutral

theorem assign_of_isNeutral
    (l l' : Bool) (type : Ty) {target : Ty} (b : Bindings)
    (hneutral : target.isNeutral = true) :
    assign l type target b = assign l' type target b :=
  assignWithin_of_isNeutral l l' (hopsFor type target b) type target b hneutral

end Ty

/-! ## Overloads -/

def Overload.isNeutral (o : Overload) : Bool :=
  o.params.all Ty.isNeutral

namespace OperatorTable

variable {lenient : Bool}

theorem acceptAll_lenient
    {args params : List Ty} {b b' : Bindings}
    (h : acceptAll lenient args params b = (true, b')) :
    acceptAll true args params b = (true, b') := by
  induction args generalizing params b with
  | nil => exact h
  | cons arg args ih =>
      cases params with
      | nil => exact h
      | cons param params =>
          rw [acceptAll] at h ⊢
          rcases hfirst : arg.assign lenient param b with ⟨fits, next⟩
          cases fits with
          | false => simp [hfirst] at h
          | true =>
              simp only [hfirst] at h
              simp only [Ty.extends_assign lenient arg param b next hfirst]
              exact ih h

theorem instantiate?_lenient
    {args : List Ty} {o chosen : Overload} (h : instantiate? lenient args o = some chosen) :
    instantiate? true args o = some chosen := by
  unfold instantiate? at h ⊢
  rcases haccept : acceptAll lenient args o.params .empty with ⟨accepted, b⟩
  cases accepted with
  | false => simp [haccept] at h
  | true =>
      simp only [haccept] at h
      simp only [acceptAll_lenient haccept]
      exact h

/-- An operator that has an overload in strict use has one in lenient use, which may come earlier
in the table. -/
theorem exists_resolve?_lenient
    {table : OperatorTable} {op : String} {args : List Ty} {chosen : Overload}
    (h : table.resolve? op args lenient = some chosen) :
    ∃ relaxed, table.resolve? op args true = some relaxed := by
  unfold resolve? at h ⊢
  cases hlookup : table.lookup op with
  | none =>
      rw [hlookup] at h
      cases h
  | some overloads =>
      rw [hlookup] at h
      obtain ⟨o, ho, hchosen⟩ := List.exists_of_findSome?_eq_some h
      rw [← Option.isSome_iff_exists, List.findSome?_isSome_iff]
      exact ⟨o, ho, Option.isSome_iff_exists.mpr ⟨chosen, instantiate?_lenient hchosen⟩⟩

-- In lenient use an entity is compared as a text.
example :
    (filters.resolve? "=~" [.entity "tt:contact", .string] false).map Overload.params =
        some [.entity "*", .string] ∧
      (filters.resolve? "=~" [.entity "tt:contact", .string] true).map Overload.params =
        some [.string, .string] := by
  constructor <;> rfl

/-! ## Steady tables -/

/-- All overloads of an operator are neutral, except perhaps for the last one. -/
def IsSteady (table : OperatorTable) : Prop :=
  ∀ entry ∈ table, entry.2.Pairwise fun o _ => o.isNeutral = true

theorem scalars_isSteady :
    scalars.IsSteady := by
  unfold IsSteady
  decide

theorem aggregations_isSteady :
    aggregations.IsSteady := by
  unfold IsSteady
  decide

theorem acceptAll_of_neutral
    (l l' : Bool) (args : List Ty) {params : List Ty} (b : Bindings)
    (hneutral : params.all Ty.isNeutral = true) :
    acceptAll l args params b = acceptAll l' args params b := by
  induction args generalizing params b with
  | nil => rfl
  | cons arg args ih =>
      cases params with
      | nil => rfl
      | cons param params =>
          rw [List.all_cons, Bool.and_eq_true] at hneutral
          simp only [acceptAll, Ty.assign_of_isNeutral l l' arg b hneutral.1, ih _ hneutral.2]

theorem instantiate?_of_isNeutral
    (l l' : Bool) (args : List Ty) {o : Overload} (hneutral : o.isNeutral = true) :
    instantiate? l args o = instantiate? l' args o := by
  unfold instantiate?
  rw [acceptAll_of_neutral l l' args .empty hneutral]

theorem findSome?_instantiate?_lenient
    {overloads : List Overload} {args : List Ty} {chosen : Overload}
    (hsteady : overloads.Pairwise fun o _ => o.isNeutral = true)
    (h : overloads.findSome? (instantiate? lenient args) = some chosen) :
    overloads.findSome? (instantiate? true args) = some chosen := by
  induction overloads with
  | nil => cases h
  | cons o overloads ih =>
      rw [List.pairwise_cons] at hsteady
      rw [List.findSome?_cons] at h ⊢
      cases hfirst : instantiate? lenient args o with
      | some found =>
          rw [hfirst] at h
          rw [instantiate?_lenient hfirst]
          exact h
      | none =>
          -- A later overload is chosen, so this one is neutral and is passed over again.
          rw [hfirst] at h
          obtain ⟨later, hlater, -⟩ := List.exists_of_findSome?_eq_some h
          have hneutral : o.isNeutral = true := hsteady.1 later hlater
          rw [instantiate?_of_isNeutral true lenient args hneutral, hfirst]
          exact ih hsteady.2 h

/-- In a steady table strict and lenient use find the same overload. -/
theorem IsSteady.resolve?_lenient
    {table : OperatorTable} (hsteady : table.IsSteady) {op : String} {args : List Ty}
    {chosen : Overload} (h : table.resolve? op args lenient = some chosen) :
    table.resolve? op args true = some chosen := by
  unfold resolve? at h ⊢
  cases hlookup : table.lookup op with
  | none =>
      rw [hlookup] at h
      cases h
  | some overloads =>
      rw [hlookup] at h
      have hentry : (op, overloads) ∈ table := by
        obtain ⟨before, after, htable, -⟩ := List.lookup_eq_some_iff.mp hlookup
        rw [htable]
        simp
      exact findSome?_instantiate?_lenient
        (((hsteady _ hentry).take).filter _) h

end OperatorTable

end SkillLang

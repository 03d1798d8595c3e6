import Mathlib.Data.List.Find
import Mathlib.Data.List.TakeWhile
import SkillLang.Typing.Rules

/-!
# What a call has to pass

A signature asks for its required inputs, for each optional input one of whose conditions
holds, and for one input of each group of alternatives.  All of this only depends on the
names of the parameters and on the texts that their constants read as.
-/

namespace SkillLang

/-! ## Conditions -/

/-- A constant reads as a text: it is an entry of an enum, a string, a truth value or a number. -/
inductive Value.ReadsAs : Value → String → Prop
  | enum (entry : String) : ReadsAs (.enum entry) entry
  | string (s : String) : ReadsAs (.string s) s
  | boolean (b : Bool) : ReadsAs (.boolean b) (toString b)
  | number (x : Float) : ReadsAs (.number x) (Decimal.number x)

theorem Value.matchesText_iff
    (v : Value) (text : String) :
    v.matchesText text = true ↔ v.ReadsAs text := by
  constructor
  · intro h
    cases v with
    | enum entry | string s | boolean b | number x =>
        rw [matchesText, beq_iff_eq] at h
        rw [← h]
        constructor
    | _ => cases h
  · rintro ⟨⟩ <;> simp [matchesText]

theorem splitCondition?_eq_some_iff
    {condition name text : String} :
    splitCondition? condition = some (name, text) ↔
      condition = name ++ "=" ++ text ∧ '=' ∉ name.toList := by
  have hjoined (front rest : List Char) :
      condition.toList = front ++ '=' :: rest ↔
        condition = String.ofList front ++ "=" ++ String.ofList rest := by
    rw [← String.toList_inj]
    simp
  unfold splitCondition?
  dsimp only
  constructor
  · intro h
    cases hrest : condition.toList.dropWhile (· != '=') with
    | nil => simp [hrest] at h
    | cons sign rest =>
        simp only [hrest, Option.some.injEq, Prod.mk.injEq] at h
        obtain ⟨rfl, rfl⟩ := h
        have hsign : sign = '=' := by
          have hhead := List.head?_dropWhile_not (· != '=') condition.toList
          rw [hrest] at hhead
          simpa using hhead
        subst hsign
        refine ⟨(hjoined _ _).mp ?_, ?_⟩
        · rw [← hrest, List.takeWhile_append_dropWhile]
        · rw [String.toList_ofList]
          intro hmem
          have hother := List.mem_takeWhile_imp hmem
          simp at hother
  · rintro ⟨rfl, hname⟩
    have hfront : ∀ c ∈ name.toList, (c != '=') = true := by
      intro c hc
      rw [bne_iff_ne]
      rintro rfl
      exact hname hc
    simp [List.dropWhile_append_of_pos hfront, List.takeWhile_append_of_pos hfront]

/-- A condition `name=text` holds: the parameter is passed with a constant that reads as the text.
The name ends at the first equality sign. -/
def ConditionHolds (params : List Param) (condition : String) : Prop :=
  ∃ name text, condition = name ++ "=" ++ text ∧ '=' ∉ name.toList ∧
    ∃ p ∈ params, p.name = name ∧ p.value.ReadsAs text

theorem conditionHolds_iff
    (params : List Param) (condition : String) :
    conditionHolds params condition = true ↔ ConditionHolds params condition := by
  unfold conditionHolds
  cases hsplit : splitCondition? condition with
  | none =>
      refine iff_of_false Bool.false_ne_true ?_
      rintro ⟨name, text, hcondition, hname, -⟩
      rw [splitCondition?_eq_some_iff.mpr ⟨hcondition, hname⟩] at hsplit
      cases hsplit
  | some parts =>
      obtain ⟨name, text⟩ := parts
      simp only [List.any_eq_true, Bool.and_eq_true, beq_iff_eq, Value.matchesText_iff]
      constructor
      · intro hpassed
        obtain ⟨hcondition, hname⟩ := splitCondition?_eq_some_iff.mp hsplit
        exact ⟨name, text, hcondition, hname, hpassed⟩
      · rintro ⟨other, value, hcondition, hname, hpassed⟩
        rw [splitCondition?_eq_some_iff.mpr ⟨hcondition, hname⟩] at hsplit
        cases hsplit
        exact hpassed

/-! ## Requirements -/

/-- A call with these parameters has to pass the argument. -/
def Argument.IsDemanded (a : Argument) (params : List Param) : Prop :=
  a.isRequired = true ∨ ∃ condition ∈ a.requiredIf, ConditionHolds params condition

theorem Argument.isMissing_eq_false_iff
    (a : Argument) (params : List Param) :
    a.isMissing params = false ↔ (a.IsDemanded params → ∃ p ∈ params, p.name = a.name) := by
  have hgiven : (params.any fun p => p.name == a.name) = true ↔ ∃ p ∈ params, p.name = a.name := by
    simp only [List.any_eq_true, beq_iff_eq]
  have hdemanded : (a.isRequired || a.requiredIf.any (conditionHolds params)) = true ↔
      a.IsDemanded params := by
    simp only [IsDemanded, Bool.or_eq_true, List.any_eq_true, conditionHolds_iff]
  rw [isMissing, ← hgiven, ← hdemanded]
  cases params.any fun p => p.name == a.name <;> simp

theorem Signature.requireParams_eq_ok_iff
    (s : Signature) (params : List Param) (range : Option Range) :
    s.requireParams params range = .ok () ↔
      (∀ a ∈ s.inArgs, a.IsDemanded params → ∃ p ∈ params, p.name = a.name) ∧
        ∀ names ∈ s.requireEither, ∃ p ∈ params, p.name ∈ names := by
  have hmissing : (s.inArgs.find? fun a => a.isMissing params) = none ↔
      ∀ a ∈ s.inArgs, a.IsDemanded params → ∃ p ∈ params, p.name = a.name := by
    simp only [List.find?_eq_none, Bool.not_eq_true, Argument.isMissing_eq_false_iff]
  have hgroup : (s.requireEither.find? fun names => !params.any fun p => names.contains p.name) =
      none ↔ ∀ names ∈ s.requireEither, ∃ p ∈ params, p.name ∈ names := by
    simp only [List.find?_eq_none, Bool.not_eq_true', Bool.not_eq_false, List.any_eq_true,
      List.contains_iff_mem]
  rw [← hmissing, ← hgroup, requireParams]
  cases s.inArgs.find? fun a => a.isMissing params with
  | some a => simp
  | none =>
      cases s.requireEither.find? fun names => !params.any fun p => names.contains p.name with
      | some names => simp
      | none => simp

/-- Parameters are as good as others if they have the same names and meet the same conditions. -/
theorem Signature.requireParams_congr_of_names
    {s : Signature} {params others : List Param}
    (hnames : ∀ test : String → Bool,
      (others.any fun p => test p.name) = params.any fun p => test p.name)
    (hconditions : ∀ a ∈ s.inArgs,
      a.requiredIf.any (conditionHolds others) = a.requiredIf.any (conditionHolds params))
    (range : Option Range) :
    s.requireParams others range = s.requireParams params range := by
  have hmissing : (s.inArgs.find? fun a => a.isMissing others) =
      s.inArgs.find? fun a => a.isMissing params := by
    apply List.find?_congr
    intro a ha
    simp only [Argument.isMissing, hnames (· == a.name), hconditions a ha]
  have hgroup (names : List String) :
      (others.any fun p => names.contains p.name) = params.any fun p => names.contains p.name :=
    hnames names.contains
  simp only [requireParams, hmissing, hgroup]

/-- Parameters of the same names whose constants read as the same texts are as good as each
other. -/
theorem Signature.requireParams_congr_of_any
    {params others : List Param}
    (h : ∀ test : String → (String → Bool) → Bool,
      (others.any fun p => test p.name p.value.matchesText) =
        params.any fun p => test p.name p.value.matchesText)
    (s : Signature) (range : Option Range) :
    s.requireParams others range = s.requireParams params range := by
  have hcondition (condition : String) :
      conditionHolds others condition = conditionHolds params condition := by
    unfold conditionHolds
    cases splitCondition? condition with
    | none => rfl
    | some parts => exact h fun name matchesText => name == parts.1 && matchesText parts.2
  refine requireParams_congr_of_names (fun test => h fun name _ => test name) ?_ range
  intro a _
  rw [funext hcondition]

end SkillLang

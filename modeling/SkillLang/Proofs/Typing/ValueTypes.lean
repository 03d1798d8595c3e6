import SkillLang.Proofs.Typing.AcceptanceOfCheck

/-!
# Types of checked values

The type that a check finds for a value is the one that the annotated value has by
itself, however deep its parts are nested.  A value tells this type before it is checked
already, unless something inside of it stands for another value, whose type is only known
from the scope.
-/

namespace SkillLang

namespace Value

mutual
/-- Nothing inside of the value stands for another value, as references, computations, fields of
arrays and filtered arrays do. -/
def hasNoPlaceholder : Value → Bool
  | array values _ => allHaveNoPlaceholder values
  | object fields => fieldsHaveNoPlaceholder fields
  | var _ _ | computation _ _ _ _ | field _ _ _ | filtered _ _ _ => false
  | undefined _ | context _ _ | boolean _ | string _ | number _ | measure _ _ | currency _ _
  | place _ | date _ | time _ | entity _ | enum _ | event _ | argMap _ => true

def allHaveNoPlaceholder : List Value → Bool
  | [] => true
  | value :: values => hasNoPlaceholder value && allHaveNoPlaceholder values

def fieldsHaveNoPlaceholder : List (String × Value) → Bool
  | [] => true
  | (_, value) :: fields => hasNoPlaceholder value && fieldsHaveNoPlaceholder fields
end

/-- An array has its declared type, and otherwise the type of its first element counts. -/
theorem typeOf_array
    (values : List Value) (type : Option Ty) :
    (array values type).typeOf = type.getD (.array ((values.map typeOf).headD .any)) := by
  cases type with
  | some type => simp [typeOf]
  | none =>
      cases values with
      | nil => simp [typeOf]
      | cons value values => simp [typeOf]

end Value

namespace Checker

variable {σ : Type} {c : Checker σ}

mutual

theorem AcceptsValue.typeOf_eq
    {scope : Scope} {depth : Nat} {value value' : Value} {type : Ty} :
    c.AcceptsValue scope depth value value' type → value'.typeOf = type
  | .leaf _ _ | .var _ _ | .computation _ _ _ | .field _ _ _ | .filtered _ _ _ _
  | .array _ _ _ _ => rfl
  | .object _ hfields => by rw [Value.typeOf, hfields.typesOf_eq]

theorem AcceptsFields.typesOf_eq
    {scope : Scope} {depth : Nat} {fields fields' : List (String × Value)}
    {types : List (String × Ty)} :
    c.AcceptsFields scope depth fields fields' types → Value.typesOf fields' = types
  | .nil => rfl
  | .cons hvalue hfields => by rw [Value.typesOf, hvalue.typeOf_eq, hfields.typesOf_eq]

end

mutual

theorem AcceptsValue.typeOf_eq_of_hasNoPlaceholder
    {scope : Scope} {depth : Nat} {value value' : Value} {type : Ty} :
    c.AcceptsValue scope depth value value' type → value.hasNoPlaceholder = true →
      value.typeOf = type
  | .leaf _ _, _ => rfl
  | .array _ hvalues _ htype, hplain => by
      rw [Value.hasNoPlaceholder] at hplain
      rw [Value.typeOf_array, hvalues.map_typeOf_eq hplain, htype]
  | .object _ hfields, hplain => by
      rw [Value.hasNoPlaceholder] at hplain
      rw [Value.typeOf, hfields.typesOf_eq_of_hasNoPlaceholder hplain]
  | .var _ _, hplain | .computation _ _ _, hplain | .field _ _ _, hplain
  | .filtered _ _ _ _, hplain => by simp [Value.hasNoPlaceholder] at hplain

theorem AcceptsValues.map_typeOf_eq
    {scope : Scope} {depth : Nat} {values values' : List Value} {types : List Ty} :
    c.AcceptsValues scope depth values values' types →
      Value.allHaveNoPlaceholder values = true → values.map Value.typeOf = types
  | .nil, _ => rfl
  | .cons hvalue hvalues, hplain => by
      rw [Value.allHaveNoPlaceholder, Bool.and_eq_true] at hplain
      rw [List.map_cons, hvalue.typeOf_eq_of_hasNoPlaceholder hplain.1,
        hvalues.map_typeOf_eq hplain.2]

theorem AcceptsFields.typesOf_eq_of_hasNoPlaceholder
    {scope : Scope} {depth : Nat} {fields fields' : List (String × Value)}
    {types : List (String × Ty)} :
    c.AcceptsFields scope depth fields fields' types →
      Value.fieldsHaveNoPlaceholder fields = true → Value.typesOf fields = types
  | .nil, _ => rfl
  | .cons hvalue hfields, hplain => by
      rw [Value.fieldsHaveNoPlaceholder, Bool.and_eq_true] at hplain
      rw [Value.typesOf, hvalue.typeOf_eq_of_hasNoPlaceholder hplain.1,
        hfields.typesOf_eq_of_hasNoPlaceholder hplain.2]

end

/-- What a check finds is the type of the annotated value.  Without placeholders it is the type of
the value that went in as well. -/
theorem checkValue_typeOf
    {scope : Scope} {depth : Nat} {value value' : Value} {type : Ty} {s : Session σ}
    (h : ((c.checkValue scope depth value).runIn s).1 = .ok (value', type)) :
    value'.typeOf = type ∧ (value.hasNoPlaceholder = true → value.typeOf = type) := by
  have haccepts : c.AcceptsValue scope depth value value' type :=
    acceptsValue_of_mayReturn value ⟨s, h⟩
  exact ⟨haccepts.typeOf_eq, haccepts.typeOf_eq_of_hasNoPlaceholder⟩

namespace Digest

/-- Tags of two articles, the first of which has none. -/
def tags : Value :=
  .object [("tags", .array [.array [] none, .array [.string "Lean", .undefined true] none] none)]

/-- Two topics, one of them computed, with annotations that a check will replace. -/
def topics : Value :=
  .array [.var "topic" (some .number), .computation "+" [.var "topic" none, .string "s"] none none]
    none

end Digest

theorem digest_typeOf :
    (∃ value', ((Digest.checker.checkValue .empty 7 Digest.tags).runIn Digest.session).1 =
        .ok (value', .compound [("tags", .array (.array .any))]) ∧
      value'.typeOf = .compound [("tags", .array (.array .any))] ∧
      Digest.tags.typeOf = .compound [("tags", .array (.array .any))]) ∧
    ∃ value', ((Digest.checker.checkValue (Scope.empty.addVar "topic" .string) 7
        Digest.topics).runIn Digest.session).1 = .ok (value', .array .string) ∧
      value'.typeOf = .array .string := by
  constructor
  · obtain ⟨value', h⟩ :
        ∃ value', ((Digest.checker.checkValue .empty 7 Digest.tags).runIn Digest.session).1 =
          .ok (value', .compound [("tags", .array (.array .any))]) :=
      ⟨_, rfl⟩
    obtain ⟨hafter, hbefore⟩ := checkValue_typeOf h
    exact ⟨value', h, hafter, hbefore rfl⟩
  · obtain ⟨value', h⟩ :
        ∃ value', ((Digest.checker.checkValue (Scope.empty.addVar "topic" .string) 7
          Digest.topics).runIn Digest.session).1 = .ok (value', .array .string) :=
      ⟨_, rfl⟩
    exact ⟨value', h, (checkValue_typeOf h).1⟩

end Checker

end SkillLang

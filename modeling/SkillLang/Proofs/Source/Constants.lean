import Mathlib.Data.List.Basic
import Mathlib.Data.List.Forall2
import SkillLang.Proofs.Syntax.Executable
import SkillLang.Proofs.Syntax.Parts
import SkillLang.Source.Json

/-!
# Constants

Whether a value is constant, whether it is concrete and how it is converted to JSON are three
recursions of their own.  Each of them asks something of the value itself and the same of its
members, and what they ask of the value itself is that it is not known only later.  All three
therefore come to the same verdict: nothing of the kind is in the tree of the value.
-/

namespace SkillLang

/-! ## Lists -/

theorem eq_all
    {α : Type} {test : α → Bool} {all : List α → Bool} (hnil : all [] = true)
    (hcons : ∀ x xs, all (x :: xs) = (test x && all xs)) (xs : List α) :
    all xs = xs.all test := by
  induction xs with
  | nil => exact hnil
  | cons x xs ih => rw [hcons, ih, List.all_cons]

/-- A list of runs succeeds if and only if every run of it does, with the results in their order. -/
theorem mapM_eq_ok_iff
    {ε α β : Type} {f : α → Except ε β} {xs : List α} {ys : List β} :
    xs.mapM f = .ok ys ↔ List.Forall₂ (fun x y => f x = .ok y) xs ys := by
  induction xs generalizing ys with
  | nil =>
      rw [List.mapM_nil, List.forall₂_nil_left_iff]
      constructor
      · rintro ⟨⟩
        rfl
      · rintro rfl
        rfl
  | cons x xs ih =>
      rw [List.mapM_cons, List.forall₂_cons_left_iff]
      cases hx : f x with
      | error e => simp [bind, Except.bind]
      | ok y =>
          cases hxs : xs.mapM f with
          | error e =>
              simp only [hxs, reduceCtorEq, false_iff] at ih
              simp [bind, Except.bind, ih]
          | ok zs =>
              simp [bind, Except.bind, pure, Except.pure, ← ih, hxs, eq_comm]

theorem exists_forall₂_iff
    {α β : Type} {R : α → β → Prop} {xs : List α} :
    (∃ ys, List.Forall₂ R xs ys) ↔ ∀ x ∈ xs, ∃ y, R x y := by
  induction xs with
  | nil => exact iff_of_true ⟨[], .nil⟩ (List.forall_mem_nil _)
  | cons x xs ih =>
      rw [List.forall_mem_cons, ← ih]
      constructor
      · rintro ⟨_, h⟩
        obtain ⟨y, ys, hhead, htail, _⟩ := List.forall₂_cons_left_iff.mp h
        exact ⟨⟨y, hhead⟩, ⟨ys, htail⟩⟩
      · rintro ⟨⟨y, hhead⟩, ⟨ys, htail⟩⟩
        exact ⟨y :: ys, .cons hhead htail⟩

namespace Value

/-! ## Members -/

/-- The elements of an array and the values of the fields of an object. -/
def members : Value → List Value
  | array values _ => values
  | object fields => fields.map Prod.snd
  | _ => []

theorem induction_of_members
    {P : Value → Prop} (h : ∀ v, (∀ member ∈ v.members, P member) → P v) (v : Value) :
    P v := by
  suffices hnode : ∀ n : Node, ∀ v, n = .value v → P v from hnode (.value v) v rfl
  intro n
  induction n using Node.induction with
  | h n ih =>
      rintro v rfl
      refine h v fun member hmember => ih (.value member) ?_ member rfl
      cases v with
      | array values type => exact List.mem_map_of_mem hmember
      | object fields =>
          obtain ⟨field, hfield, rfl⟩ := List.mem_map.mp hmember
          exact List.mem_map_of_mem hfield
      | _ => cases hmember

theorem allConstant_eq
    (values : List Value) :
    allConstant values = values.all isConstant :=
  eq_all rfl (fun _ _ => rfl) values

theorem allFieldsConstant_eq
    (fields : List (String × Value)) :
    allFieldsConstant fields = (fields.map Prod.snd).all isConstant := by
  rw [List.all_map]
  exact eq_all rfl (fun _ _ => rfl) fields

theorem allConcrete_eq
    (values : List Value) :
    allConcrete values = values.all isConcrete :=
  eq_all rfl (fun _ _ => rfl) values

theorem allFieldsConcrete_eq
    (fields : List (String × Value)) :
    allFieldsConcrete fields = (fields.map Prod.snd).all isConcrete := by
  rw [List.all_map]
  exact eq_all rfl (fun _ _ => rfl) fields

theorem toJsonList_eq
    (values : List Value) :
    toJsonList values = values.mapM toJson := by
  induction values with
  | nil => rfl
  | cons value values ih =>
      rw [toJsonList, ih, List.mapM_cons]

theorem toJsonFields_eq
    (fields : List (String × Value)) :
    toJsonFields fields =
      ((fields.map Prod.snd).mapM toJson).map fun items => (fields.map Prod.fst).zip items := by
  induction fields with
  | nil => rfl
  | cons field fields ih =>
      rw [toJsonFields, ih, List.map_cons, List.map_cons, List.mapM_cons]
      cases field.2.toJson with
      | error e => rfl
      | ok item => cases (fields.map Prod.snd).mapM toJson <;> rfl

/-! ## Literals -/

/-- What the value is comes from elsewhere: from a result, a computation, an answer of the user or
of the surroundings, or from the time and the place at which it is used. -/
def isUnresolved : Value → Bool
  | var _ _ | computation _ _ _ _ | field _ _ _ | filtered _ _ _ | undefined _ | context _ _
  | event _ => true
  | place (.relative _) | place (.unresolved _) => true
  | date .now | date (.edge _ _) | date (.piece _ _ _ _) | date (.weekday _ _) => true
  | time (.relative _) => true
  | place (.absolute _ _ _) | date (.absolute _) | time (.absolute _ _ _) => false
  | array _ _ | object _ | boolean _ | string _ | number _ | measure _ _ | currency _ _
  | entity _ | enum _ | argMap _ => false

/-- No value in the tree of the value is unresolved. -/
def IsLiteral (v : Value) : Prop :=
  ∀ part, .value part ∈ v.tree.nodes → part.isUnresolved = false

theorem parts_eq_of_isUnresolved
    {v : Value} (h : v.isUnresolved = false) :
    v.parts = v.members.map .value := by
  cases v with
  | object fields => rw [parts, members, List.map_map]; rfl
  | computation _ _ _ _ | field _ _ _ | filtered _ _ _ => cases h
  | _ => rfl

theorem isLiteral_iff
    (v : Value) :
    v.IsLiteral ↔ v.isUnresolved = false ∧ ∀ member ∈ v.members, member.IsLiteral := by
  have hnodes : v.tree.nodes = .value v :: v.parts.flatMap fun part => part.tree.nodes := by
    rw [tree_eq, Tree.nodes, Tree.nodesOf_eq_flatMap, List.flatMap_map]
  cases h : v.isUnresolved with
  | true =>
      refine iff_of_false (fun hliteral => ?_) (fun hfalse => Bool.noConfusion hfalse.1)
      have hroot := hliteral v (hnodes ▸ List.mem_cons_self)
      exact Bool.noConfusion (h.symm.trans hroot)
  | false =>
      rw [parts_eq_of_isUnresolved h] at hnodes
      constructor
      · intro hliteral
        refine ⟨rfl, fun member hmember part hpart => hliteral part ?_⟩
        rw [hnodes]
        refine List.mem_cons_of_mem _ (List.mem_flatMap.mpr ?_)
        exact ⟨.value member, List.mem_map_of_mem hmember, hpart⟩
      · rintro ⟨_, hmembers⟩ part hpart
        rw [hnodes, List.mem_cons, List.mem_flatMap] at hpart
        rcases hpart with hroot | ⟨node, hnode, hpart⟩
        · rw [Node.value.inj hroot]
          exact h
        · obtain ⟨member, hmember, rfl⟩ := List.mem_map.mp hnode
          exact hmembers member hmember part hpart

/-- A verdict that follows from the value itself and from its members is that on literals. -/
theorem iff_isLiteral
    {P : Value → Prop}
    (h : ∀ v, P v ↔ v.isUnresolved = false ∧ ∀ member ∈ v.members, P member) (v : Value) :
    P v ↔ v.IsLiteral := by
  -- Both sides ask the same of the value itself, and by induction of its members.
  induction v using induction_of_members with
  | h v ih =>
      rw [h, isLiteral_iff]
      exact and_congr_right fun _ => forall₂_congr ih

theorem isConcrete_iff
    (v : Value) :
    v.isConcrete = true ↔
      v.isUnresolved = false ∧ ∀ member ∈ v.members, member.isConcrete = true := by
  cases v with
  | array values type =>
      rw [isConcrete, allConcrete_eq, List.all_eq_true]
      exact (and_iff_right rfl).symm
  | object fields =>
      rw [isConcrete, allFieldsConcrete_eq, List.all_eq_true]
      exact (and_iff_right rfl).symm
  | place p => cases p <;> simp [isConcrete, Place.isAbsolute, isUnresolved, members]
  | date d => cases d <;> simp [isConcrete, DateValue.isAbsolute, isUnresolved, members]
  | time t => cases t <;> simp [isConcrete, TimeOfDay.isAbsolute, isUnresolved, members]
  | _ => simp [isConcrete, isUnresolved, members]

theorem isConstant_iff
    (v : Value) :
    v.isConstant = true ↔
      v.isUnresolved = false ∧ ∀ member ∈ v.members, member.isConstant = true := by
  cases v with
  | array values type =>
      rw [isConstant, allConstant_eq, List.all_eq_true]
      exact (and_iff_right rfl).symm
  | object fields =>
      rw [isConstant, allFieldsConstant_eq, List.all_eq_true]
      exact (and_iff_right rfl).symm
  | _ =>
      -- Any other value is constant if it is concrete, and it has no members.
      simp only [isConstant]
      exact (isConcrete_iff _).trans
        (and_congr_right fun _ => iff_of_true (List.forall_mem_nil _) (List.forall_mem_nil _))

/-! ## JSON forms -/

theorem toJson_of_not_isConstant
    {v : Value} (h : v.isConstant = false) :
    v.toJson = .error v.notConstant := by
  unfold toJson
  rw [if_neg (by simp [h])]

theorem isConstant_of_toJson
    {v : Value} {json : Json} (h : v.toJson = .ok json) :
    v.isConstant = true := by
  by_contra hnot
  rw [toJson_of_not_isConstant (Bool.eq_false_of_not_eq_true hnot)] at h
  cases h

theorem toJson_array
    {values : List Value} {type : Option Ty} (h : (array values type).isConstant = true) :
    (array values type).toJson = (values.mapM toJson).map Json.arr := by
  rw [toJson, if_pos h, toJsonList_eq]
  rfl

theorem toJson_object
    {fields : List (String × Value)} (h : (object fields).isConstant = true) :
    (object fields).toJson =
      ((fields.map Prod.snd).mapM toJson).map fun items =>
        .obj ((fields.map Prod.fst).zip items) := by
  rw [toJson, if_pos h, toJsonFields_eq]
  cases (fields.map Prod.snd).mapM toJson <;> rfl

/-- The value itself is known, and if it is constant, it is converted by converting its members,
of which `form` makes the whole. -/
structure IsFormedBy (v : Value) (form : List Json → Json) : Prop where
  isResolved : v.isUnresolved = false
  toJson_eq : v.isConstant = true → v.toJson = (v.members.mapM toJson).map form

theorem exists_isFormedBy
    {v : Value} (h : v.isUnresolved = false) :
    ∃ form, v.IsFormedBy form := by
  cases v with
  | array values type => exact ⟨_, h, toJson_array⟩
  | object fields => exact ⟨_, h, toJson_object⟩
  | place p =>
      cases p with
      | absolute _ _ _ => exact ⟨fun _ => _, h, fun _ => rfl⟩
      | relative _ | unresolved _ => cases h
  | date d =>
      cases d with
      | absolute _ => exact ⟨fun _ => _, h, fun _ => rfl⟩
      | now | edge _ _ | piece _ _ _ _ | weekday _ _ => cases h
  | time t =>
      cases t with
      | absolute _ _ _ => exact ⟨fun _ => _, h, fun _ => rfl⟩
      | relative _ => cases h
  | boolean _ | string _ | number _ | measure _ _ | currency _ _ | entity _ | enum _ | argMap _ =>
      exact ⟨fun _ => _, h, fun _ => rfl⟩
  | var _ _ | computation _ _ _ _ | field _ _ _ | filtered _ _ _ | undefined _ | context _ _
  | event _ => cases h

theorem IsFormedBy.toJson_eq_ok_iff
    {v : Value} {form : List Json → Json} (h : v.IsFormedBy form) {json : Json} :
    v.toJson = .ok json ↔
      ∃ items, List.Forall₂ (fun member item => member.toJson = .ok item) v.members items ∧
        form items = json := by
  constructor
  · intro hjson
    rw [h.toJson_eq (isConstant_of_toJson hjson)] at hjson
    cases hitems : v.members.mapM toJson with
    | error e =>
        rw [hitems] at hjson
        cases hjson
    | ok items =>
        rw [hitems] at hjson
        exact ⟨items, mapM_eq_ok_iff.mp hitems, Except.ok.inj hjson⟩
  · rintro ⟨items, hitems, rfl⟩
    -- Members that were converted have passed their checks, so that the whole passes its own.
    have hmembers : ∀ member ∈ v.members, member.isConstant = true :=
      ((List.forall₂_and_left v.members items).mp
        (hitems.imp fun _ _ hitem => ⟨isConstant_of_toJson hitem, hitem⟩)).1
    rw [h.toJson_eq ((isConstant_iff v).mpr ⟨h.isResolved, hmembers⟩),
      mapM_eq_ok_iff.mpr hitems]
    rfl

theorem exists_toJson_iff
    (v : Value) :
    (∃ json, v.toJson = .ok json) ↔
      v.isUnresolved = false ∧ ∀ member ∈ v.members, ∃ json, member.toJson = .ok json := by
  cases h : v.isUnresolved with
  | true =>
      refine iff_of_false ?_ (fun hfalse => Bool.noConfusion hfalse.1)
      rintro ⟨json, hjson⟩
      have hresolved := ((isConstant_iff v).mp (isConstant_of_toJson hjson)).1
      exact Bool.noConfusion (h.symm.trans hresolved)
  | false =>
      obtain ⟨form, hform⟩ := exists_isFormedBy h
      simp only [hform.toJson_eq_ok_iff, ← exists_forall₂_iff, true_and]
      constructor
      · rintro ⟨_, items, hitems, _⟩
        exact ⟨items, hitems⟩
      · rintro ⟨items, hitems⟩
        exact ⟨_, items, hitems, rfl⟩

/-- The verdicts on a collection are those on its members, and its JSON form is made of theirs. -/
structure FollowsMembers (v : Value) (members : List Value) (form : List Json → Json) : Prop where
  isConstant_iff : v.isConstant = true ↔ ∀ member ∈ members, member.isConstant = true
  isConcrete_iff : v.isConcrete = true ↔ ∀ member ∈ members, member.isConcrete = true
  toJson_eq_ok_iff : ∀ json, v.toJson = .ok json ↔
    ∃ items, List.Forall₂ (fun member item => member.toJson = .ok item) members items ∧
      form items = json

theorem IsFormedBy.followsMembers
    {v : Value} {form : List Json → Json} (h : v.IsFormedBy form) :
    v.FollowsMembers v.members form :=
  ⟨(isConstant_iff v).trans (and_iff_right h.isResolved),
    (isConcrete_iff v).trans (and_iff_right h.isResolved), fun _ => h.toJson_eq_ok_iff⟩

/-- The constants are the concrete values.  They are the values with nothing in them that is known
only later, and the values that are converted to JSON; any other value is refused as a whole.  An
array or an object is constant, or concrete, if all its members are, and it is converted if all its
members are. -/
theorem toJson_succeeds_iff
    (v : Value) :
    v.isConstant = v.isConcrete ∧
    (v.isConstant = true ↔ v.IsLiteral) ∧
    ((∃ json, v.toJson = .ok json) ↔ v.isConstant = true) ∧
    (v.isConstant = false → v.toJson = .error v.notConstant) ∧
    (∀ values type, v = array values type → v.FollowsMembers values .arr) ∧
    (∀ fields, v = object fields →
      v.FollowsMembers (fields.map Prod.snd) fun items =>
        .obj ((fields.map Prod.fst).zip items)) := by
  have hconstant : v.isConstant = true ↔ v.IsLiteral := iff_isLiteral isConstant_iff v
  have hconcrete : v.isConcrete = true ↔ v.IsLiteral := iff_isLiteral isConcrete_iff v
  have hjson : (∃ json, v.toJson = .ok json) ↔ v.IsLiteral := iff_isLiteral exists_toJson_iff v
  refine ⟨Bool.eq_iff_iff.mpr (hconstant.trans hconcrete.symm), hconstant,
    hjson.trans hconstant.symm, toJson_of_not_isConstant, ?_, ?_⟩
  · rintro values type rfl
    exact IsFormedBy.followsMembers (v := array values type) ⟨rfl, toJson_array⟩
  · rintro fields rfl
    exact IsFormedBy.followsMembers (v := object fields) ⟨rfl, toJson_object⟩

/-- Two times in an array, and the array in a field. -/
def openingHours (closing : TimeOfDay) : Value :=
  object [("hours", array [time (.absolute 8 30 0), time closing] none)]

/-- A time of the user is found however deep it is, and then all of the value is refused. -/
theorem openingHours_toJson :
    (∃ json, (openingHours (.absolute 18 0 0)).toJson = .ok json) ∧
      (openingHours (.relative "evening")).toJson =
        .error (openingHours (.relative "evening")).notConstant :=
  ⟨(toJson_succeeds_iff _).2.2.1.mpr rfl, (toJson_succeeds_iff _).2.2.2.1 rfl⟩

end Value

end SkillLang

import SkillLang.Proofs.Slots.Filling
import SkillLang.Proofs.Types.ClosedTypes
import SkillLang.Proofs.Typing.Calls

/-!
# Array literals

An array that does not say of which type it is gets its type from its first element, and
the types of all other elements have to fit that one.  Only then is the array compared with
the argument that it is passed for.  Elements that each fit the argument are therefore not
enough: they also have to fit the element that is written first.
-/

namespace SkillLang

/-- Both values are entries of enums. -/
def Value.areEntries : Value → Value → Bool
  | .enum _, .enum _ => true
  | _, _ => false

theorem Value.isClosed_typeOf
    {value : Value} (hconstant : value.isConstant = true)
    (hscalar : value.isCollection = false) :
    value.typeOf.isClosed = true := by
  cases value with
  | array _ _ | object _ => cases hscalar
  | context _ _ | var _ _ | computation _ _ _ _ | field _ _ _ | filtered _ _ _ =>
      cases hconstant
  | _ => rfl

/-- A call in which the value of one parameter is left open. -/
structure OpenCall where
  schema : Signature
  scope : Scope
  depth : Nat
  range : Option Range
  before : List Param
  name : String
  /-- Where the parameter stands. -/
  place : Option Range
  after : List Param

/-- The parameters of the call if a value is passed for the open one. -/
def OpenCall.passing (call : OpenCall) (value : Value) : List Param :=
  call.before ++ ⟨call.name, value, call.place⟩ :: call.after

namespace Checker

open SkillLang.Action

variable {σ : Type} (c : Checker σ)

/-- With the value passed for its open parameter, the call passes the check in the session. -/
def Passes (call : OpenCall) (s : Session σ) (value : Value) : Prop :=
  ∃ params, ((c.checkCall call.schema (call.passing value) call.scope call.range
    call.depth).runIn s).1 = .ok params

variable {c}

theorem passes_iff_satisfies
    {call : OpenCall} {s : Session σ} {value : Value} :
    c.Passes call s value ↔
      c.Satisfies call.schema call.scope (call.depth + 1) (call.passing value) s := by
  constructor
  · rintro ⟨params, hresult⟩
    exact satisfies_of_runIn_checkCall (Prod.ext hresult rfl)
  · intro h
    obtain ⟨params, next, hrun⟩ := h.exists_runIn_checkCall call.range
    exact ⟨params, by rw [hrun]⟩

/-- A value that is checked without touching the session, that fits the argument and reads as no
text, can be passed where a value could be left to be asked for. -/
theorem Passes.of_undefined
    {call : OpenCall} {s : Session σ} {isLocal : Bool} {value value' : Value} {type : Ty}
    (h : c.Passes call s (.undefined isLocal))
    (htexts : value.matchesText = (Value.undefined isLocal).matchesText)
    (hvalue : ∀ s, (c.checkValue call.scope (call.depth + 1) value).runIn s =
      (.ok (value', type), s))
    (hfits : ∀ a, call.schema.arg? call.name = some a → c.assignable type a.type = true) :
    c.Passes call s value := by
  rw [passes_iff_satisfies] at h ⊢
  refine h.replace rfl htexts ?_
  intro start next hturn
  cases hturn with
  | cons hopen _ hrest =>
      cases hrest
      have haccepts := acceptsValue_of_mayReturn _ ⟨start, by rw [hopen]⟩
      cases haccepts with
      | leaf hdepth hleaf =>
          -- What is still to be asked for leaves the session alone as well.
          rw [runIn_checkValue_of_isLeaf hdepth hleaf] at hopen
          cases hopen
          exact .cons (hvalue start) hfits .nil

/-! ## Elements -/

theorem AcceptsValues.types_eq_of_isLeaf
    {scope : Scope} {depth : Nat} {values values' : List Value} {types : List Ty}
    (h : c.AcceptsValues scope depth values values' types)
    (hleaf : ∀ v ∈ values, v.isLeaf = true) :
    types = values.map Value.typeOf := by
  induction values generalizing values' types with
  | nil =>
      cases h
      rfl
  | cons value values ih =>
      rw [List.forall_mem_cons] at hleaf
      cases h with
      | cons hvalue hvalues =>
          rw [List.map_cons, ← ih hvalues hleaf.2]
          cases hvalue with
          | leaf _ _ => rfl
          | _ => cases hleaf.1

theorem runIn_checkElements_of_isLeaf
    {scope : Scope} {depth : Nat} (hdepth : depth ≤ Limits.maxDepth) {values : List Value}
    (hleaf : ∀ v ∈ values, v.isLeaf = true) (first : Option Ty)
    (huniform : c.Uniform (first.toList ++ values.map Value.typeOf)) (s : Session σ) :
    (c.checkElements scope depth first values).runIn s =
      (.ok (values, (first.toList ++ values.map Value.typeOf).head?), s) := by
  induction values generalizing first with
  | nil =>
      simp only [checkElements]
      cases first <;> exact runIn_pure _ s
  | cons value values ih =>
      rw [List.forall_mem_cons] at hleaf
      simp only [checkElements]
      rw [runIn_bind_of_ok (runIn_checkValue_of_isLeaf hdepth hleaf.1 s)]
      cases first with
      | none => exact runIn_bind_of_ok (ih hleaf.2 (some value.typeOf) huniform) _
      | some found =>
          obtain ⟨hfits, hrest⟩ := Uniform.of_cons_cons huniform
          simp only [Option.getD_some, hfits]
          exact runIn_bind_of_ok (ih hleaf.2 (some found) hrest) _

/-! ## Literals -/

theorem runIn_checkValue_array
    {scope : Scope} {depth : Nat} (hdepth : depth + 1 ≤ Limits.maxDepth) {first : Value}
    {rest : List Value} (hleaf : ∀ v ∈ first :: rest, v.isLeaf = true)
    (huniform : ∀ v ∈ rest, c.assignable v.typeOf first.typeOf = true) (s : Session σ) :
    (c.checkValue scope depth (.array (first :: rest) none)).runIn s =
      (.ok (.array (first :: rest) (some (.array first.typeOf)), .array first.typeOf), s) := by
  have htypes : c.Uniform ((first :: rest).map Value.typeOf) :=
    List.forall_mem_map.mpr huniform
  simp only [checkValue]
  rw [runIn_bind_of_ok (runIn_guardDepth (by omega) s),
    runIn_bind_of_ok (runIn_checkElements_of_isLeaf hdepth hleaf none htypes s)]
  rfl

/-- Of an accepted array of leaves all types fit that of the first element. -/
theorem assignable_of_runIn_checkValue_array
    {scope : Scope} {depth : Nat} {first : Value} {rest : List Value}
    (hleaf : ∀ v ∈ first :: rest, v.isLeaf = true) {s next : Session σ} {value : Value} {type : Ty}
    (hrun : (c.checkValue scope depth (.array (first :: rest) none)).runIn s =
      (.ok (value, type), next)) :
    ∀ v ∈ rest, c.assignable v.typeOf first.typeOf = true := by
  have haccepts := acceptsValue_of_mayReturn _ ⟨s, by rw [hrun]⟩
  cases haccepts with
  | leaf _ harray => cases harray
  | array _ hvalues huniform _ =>
      rw [hvalues.types_eq_of_isLeaf hleaf] at huniform
      exact List.forall_mem_map.mp huniform

theorem Passes.array
    {call : OpenCall} {s : Session σ} {isLocal : Bool} {a : Argument} {elem : Ty} {first : Value}
    {rest : List Value} (h : c.Passes call s (.undefined isLocal))
    (hdepth : call.depth + 2 ≤ Limits.maxDepth) (harg : call.schema.arg? call.name = some a)
    (htype : a.type = .array elem) (hclosed : elem.isClosed = true)
    (hscalars : ∀ v ∈ first :: rest, v.isConstant = true ∧ v.isCollection = false)
    (hfits : c.assignable first.typeOf elem = true)
    (huniform : ∀ v ∈ rest, c.assignable v.typeOf first.typeOf = true) :
    c.Passes call s (.array (first :: rest) none) := by
  have hleaf : ∀ v ∈ first :: rest, v.isLeaf = true := fun v hv =>
    Value.isLeaf_of_isConstant (hscalars v hv).1 (hscalars v hv).2
  refine h.of_undefined rfl (runIn_checkValue_array hdepth hleaf huniform) ?_
  intro found hfound
  obtain rfl : a = found := Option.some.inj (harg.symm.trans hfound)
  obtain ⟨hconstant, hscalar⟩ := hscalars first List.mem_cons_self
  rw [assignable, htype, Ty.isAssignable_array c.lenient
    (Value.isClosed_typeOf hconstant hscalar) hclosed]
  exact hfits

theorem Passes.assignable_first
    {call : OpenCall} {s : Session σ} {first : Value} {rest : List Value}
    (h : c.Passes call s (.array (first :: rest) none))
    (hleaf : ∀ v ∈ first :: rest, v.isLeaf = true) :
    ∀ v ∈ rest, c.assignable v.typeOf first.typeOf = true := by
  obtain ⟨next, hvalues⟩ := (passes_iff_satisfies.mp h).values
  obtain ⟨start, -, hturn⟩ := fitsInTurn_append_iff.mp hvalues
  cases hturn with
  | cons hvalue _ _ => exact assignable_of_runIn_checkValue_array hleaf hvalue

/-- An array of scalar constants is passed in a call that would pass with a value still to be asked
for in its place, and each of the constants fits the elements of the argument.  If their types fit
the type of the first of them, the call passes, and if they all fit one another, it does so in
whatever order they are written.  It does not pass if one of the types does not fit that of the
first one; two entries of enums are left aside there. -/
theorem checkCall_array_follows_first
    {call : OpenCall} {s : Session σ} {isLocal : Bool} {a : Argument} {elem : Ty} {first : Value}
    {rest : List Value} (hothers : c.Passes call s (.undefined isLocal))
    (hdepth : call.depth + 2 ≤ Limits.maxDepth) (harg : call.schema.arg? call.name = some a)
    (htype : a.type = .array elem) (hclosed : elem.isClosed = true)
    (hscalars : ∀ v ∈ first :: rest, v.isConstant = true ∧ v.isCollection = false)
    (hfits : ∀ v ∈ first :: rest, c.assignable v.typeOf elem = true) :
    ((∀ v ∈ rest, c.assignable v.typeOf first.typeOf = true) →
        c.Passes call s (.array (first :: rest) none)) ∧
      ((∀ v ∈ first :: rest, ∀ w ∈ first :: rest, c.assignable v.typeOf w.typeOf = true) →
        ∀ written, written.Perm (first :: rest) → c.Passes call s (.array written none)) ∧
      (c.Passes call s (.array (first :: rest) none) →
        ∀ v ∈ rest, first.areEntries v = false → c.assignable v.typeOf first.typeOf = true) := by
  refine ⟨?_, ?_, ?_⟩
  · exact hothers.array hdepth harg htype hclosed hscalars (hfits first List.mem_cons_self)
  · intro hmutual written hperm
    cases written with
    | nil => cases hperm.nil_eq
    | cons head tail =>
        have hmem : ∀ v ∈ head :: tail, v ∈ first :: rest := fun v hv => hperm.mem_iff.mp hv
        have hhead : head ∈ first :: rest := hmem head List.mem_cons_self
        refine hothers.array hdepth harg htype hclosed ?_ (hfits head hhead) ?_
        · exact fun v hv => hscalars v (hmem v hv)
        · exact fun v hv => hmutual v (hmem v (List.mem_cons_of_mem head hv)) head hhead
  · intro hpasses v hv _
    have hleaf : ∀ v ∈ first :: rest, v.isLeaf = true := fun v hv =>
      Value.isLeaf_of_isConstant (hscalars v hv).1 (hscalars v hv).2
    exact hpasses.assignable_first hleaf v hv

/-! ## Examples -/

namespace Heating

/-- What a heater does in a room to reach some temperatures one after the other. -/
def plan : Signature where
  type := .query
  device := some "com.heater"
  name := "plan"
  args :=
    [{ name := "room", direction := .inReq, type := .string },
      { name := "targets", direction := .inReq, type := .array (.measure "K") },
      { name := "notes", direction := .inOpt, type := .array .any }]

/-- The plan for the kitchen, whose temperatures are left open. -/
def targets : OpenCall :=
  ⟨plan, .empty, 0, none, [⟨"room", .string "kitchen", none⟩], "targets", none, []⟩

/-- The plan for the kitchen, whose notes are left open. -/
def notes : OpenCall :=
  ⟨plan, .empty, 0, none, [⟨"room", .string "kitchen", none⟩], "notes", none,
    [⟨"targets", .undefined false, none⟩]⟩

end Heating

theorem targets_follow_first :
    Digest.checker.Passes Heating.targets Digest.session
        (.array [.measure 20 "C", .measure 68 "F"] none) ∧
      Digest.checker.Passes Heating.targets Digest.session
        (.array [.measure 68 "F", .measure 20 "C"] none) ∧
      Digest.checker.assignable (.measure "F") (.measure "C") = true := by
  have hothers : Digest.checker.Passes Heating.targets Digest.session (.undefined false) :=
    ⟨_, rfl⟩
  have hscalars : ∀ v ∈ [Value.measure 20 "C", .measure 68 "F"],
      v.isConstant = true ∧ v.isCollection = false := by
    simp [Value.isConstant, Value.isConcrete, Value.isCollection]
  have hfits : ∀ v ∈ [Value.measure 20 "C", .measure 68 "F"],
      Digest.checker.assignable v.typeOf (.measure "K") = true := by
    simp only [List.forall_mem_cons]
    exact ⟨rfl, rfl, List.forall_mem_nil _⟩
  have hmutual : ∀ v ∈ [Value.measure 20 "C", .measure 68 "F"],
      ∀ w ∈ [Value.measure 20 "C", .measure 68 "F"],
        Digest.checker.assignable v.typeOf w.typeOf = true := by
    simp only [List.forall_mem_cons]
    exact ⟨⟨rfl, rfl, List.forall_mem_nil _⟩, ⟨rfl, rfl, List.forall_mem_nil _⟩,
      List.forall_mem_nil _⟩
  obtain ⟨-, horders, hfirst⟩ :=
    checkCall_array_follows_first hothers (by decide) rfl rfl rfl hscalars hfits
  have hwritten := horders hmutual _ (.refl _)
  exact ⟨hwritten, horders hmutual _ (.swap _ _ _), hfirst hwritten _ List.mem_cons_self rfl⟩

/-- A text and a truth value fit any argument for an array of anything, but not each other. -/
theorem notes_not_mixed :
    Digest.checker.Passes Heating.notes Digest.session (.undefined false) ∧
      Heating.notes.depth + 2 ≤ Limits.maxDepth ∧
      (∃ a, Heating.notes.schema.arg? Heating.notes.name = some a ∧ a.isInput = true ∧
        a.type = .array .any) ∧
      (∀ v ∈ [Value.string "warm", .boolean true],
        v.isConstant = true ∧ v.isCollection = false ∧
          Digest.checker.assignable v.typeOf .any = true) ∧
      ¬ Digest.checker.Passes Heating.notes Digest.session
        (.array [.string "warm", .boolean true] none) := by
  refine ⟨⟨_, rfl⟩, by decide, ⟨_, rfl, rfl, rfl⟩, ?_, ?_⟩
  · simp only [List.forall_mem_cons]
    exact ⟨⟨rfl, rfl, rfl⟩, ⟨rfl, rfl, rfl⟩, List.forall_mem_nil _⟩
  · rintro ⟨params, hresult⟩
    have hmixed : ((Digest.checker.checkCall Heating.plan
        (Heating.notes.passing (.array [.string "warm", .boolean true] none)) .empty none 0).runIn
          Digest.session).1 =
        .error (.invalidValue (.mixedArray .string .boolean) none) := rfl
    cases hmixed.symm.trans hresult

end Checker

end SkillLang

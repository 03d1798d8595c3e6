import SkillLang.Proofs.Signature.Arguments
import SkillLang.Proofs.Typing.FunctionTypes

/-!
# Declared inputs

The signature of a declared function has the arguments that are declared, and then the
outputs of the last expression of its body.  An output takes the place of the declared
argument of its name, so that an input is kept, and can be passed by callers, if and only
if the last expression has no output of its name.
-/

namespace SkillLang

/-! ## Bodies -/

/-- The signature of an annotated statement; there is none for an assignment. -/
def Statement.resultSchema? : Statement → Option Signature
  | .expression s => s.expression.schema
  | .ret e _ => e.schema
  | .assign _ _ _ => none

/-- What the last expression of annotated statements returns. -/
def Statement.outputsOf (statements : List Statement) : List Argument :=
  ((statements.filterMap Statement.resultSchema?).getLast?.map Signature.outArgs).getD []

namespace Checker

variable {σ : Type} {c : Checker σ}

theorem AcceptsStatements.resultSchemas_eq
    {scope : Scope} {statements statements' : List Statement} {schemas : List Signature}
    (h : c.AcceptsStatements scope statements statements' schemas) :
    statements'.filterMap Statement.resultSchema? = schemas := by
  induction h with
  | nil => rfl
  | cons hstatement _ ih =>
      cases hstatement with
      | expression hbody =>
          rw [List.filterMap_cons, Statement.resultSchema?, hbody.schema_eq, ih]
          rfl
      | ret hbody =>
          rw [List.filterMap_cons, Statement.resultSchema?, hbody.schema_eq, ih]
          rfl
      | assign _ =>
          rw [List.filterMap_cons, Statement.resultSchema?, ih]
          rfl

theorem AcceptsStatements.outputsOf_eq
    {scope : Scope} {statements statements' : List Statement} {schemas : List Signature}
    (h : c.AcceptsStatements scope statements statements' schemas) :
    Statement.outputsOf statements' = (schemas.getLast?.map Signature.outArgs).getD [] := by
  rw [Statement.outputsOf, h.resultSchemas_eq]

theorem isInput_of_mem_outputsOf
    {statements : List Statement} {o : Argument} (ho : o ∈ Statement.outputsOf statements) :
    o.isInput = false := by
  unfold Statement.outputsOf at ho
  cases hlast : (statements.filterMap Statement.resultSchema?).getLast? with
  | none =>
      rw [hlast] at ho
      cases ho
  | some schema =>
      rw [hlast] at ho
      exact Signature.isInput_of_mem_outArgs ho

/-! ## Callers -/

/-- A call may pass an argument by its name, with every value that fits. -/
def MayPass (c : Checker σ) (schema : Signature) (a : Argument) : Prop :=
  ∀ {scope : Scope} {depth : Nat} {value value' : Value} {type : Ty} (range : Option Range),
    c.AcceptsValue scope depth value value' type → c.assignable type a.type = true →
      c.AcceptsParams schema scope depth [] [⟨a.name, value, range⟩] [⟨a.name, value', range⟩]

/-- No call passes a parameter of the name. -/
def NeverPasses (c : Checker σ) (schema : Signature) (name : String) : Prop :=
  ∀ {scope : Scope} {depth : Nat} {seen : List String} {params params' : List Param},
    c.AcceptsParams schema scope depth seen params params' → ∀ param ∈ params, param.name ≠ name

theorem mayPass_of_arg?
    {schema : Signature} {a : Argument} (harg : schema.arg? a.name = some a)
    (hinput : a.isInput = true) :
    c.MayPass schema a := by
  intro scope depth value value' type range hvalue hfits
  have hfound : (schema.arg? a.name).filter Argument.isInput = some a := by
    rw [harg, Option.filter_some, if_pos hinput]
  exact .cons hfound rfl hvalue hfits .nil

theorem neverPasses_of_arg?
    {schema : Signature} {name : String} {o : Argument} (harg : schema.arg? name = some o)
    (hout : o.isInput = false) :
    c.NeverPasses schema name := by
  intro scope depth seen params params' h param hparam
  induction params generalizing seen params' with
  | nil => cases hparam
  | cons first params ih =>
      cases h with
      | cons hfound _ _ _ hparams =>
          rcases List.mem_cons.mp hparam with rfl | hparam
          · rintro rfl
            rw [harg, Option.filter_some, hout] at hfound
            cases hfound
          · exact ih hparams hparam

/-! ## Signatures of declarations -/

theorem hasDistinctArgs_declaredSignature
    {d : FunctionDeclaration} (hnames : (d.args.map Argument.name).Nodup)
    (body : List Signature) :
    (declaredSignature d body).HasDistinctArgs :=
  Signature.HasDistinctArgs.addArguments
    (s := { type := _, device := none, name := d.name, args := d.args }) hnames _

theorem declaredSignature_keeps
    {d : FunctionDeclaration} (hnames : (d.args.map Argument.name).Nodup)
    {body : List Signature} {a : Argument} (ha : a ∈ d.args)
    (hnew : a.name ∉ ((body.getLast?.map Signature.outArgs).getD []).map Argument.name) :
    a ∈ (declaredSignature d body).args ∧ (declaredSignature d body).arg? a.name = some a := by
  have hmem : a ∈ (declaredSignature d body).args := Signature.mem_addArguments ha hnew
  exact ⟨hmem, (hasDistinctArgs_declaredSignature hnames body).arg?_of_mem hmem⟩

theorem declaredSignature_replaces
    (d : FunctionDeclaration) {body : List Signature} {name : String}
    (hname : name ∈ ((body.getLast?.map Signature.outArgs).getD []).map Argument.name) :
    ∃ o ∈ (body.getLast?.map Signature.outArgs).getD [],
      (declaredSignature d body).arg? name = some o := by
  unfold declaredSignature
  rw [Signature.arg?_addArguments]
  generalize (body.getLast?.map Signature.outArgs).getD [] = outputs at hname ⊢
  obtain ⟨a, ha, rfl⟩ := List.mem_map.mp hname
  cases hfind : outputs.reverse.find? fun b => b.name == a.name with
  | none =>
      have hother := List.find?_eq_none.mp hfind a (List.mem_reverse.mpr ha)
      exact absurd (beq_self_eq_true a.name) hother
  | some o => exact ⟨o, List.mem_reverse.mp (List.mem_of_find?_eq_some hfind), rfl⟩

/-- What becomes of the inputs of a declaration in its annotated form. -/
structure InputsOf (c : Checker σ) (d d' : FunctionDeclaration) (schema : Signature) : Prop where
  annotated : d'.schema = some schema
  kept : ∀ a ∈ d.args, a.name ∉ (Statement.outputsOf d'.statements).map Argument.name →
    a ∈ schema.args ∧ schema.arg? a.name = some a ∧ c.MayPass schema a
  replaced : ∀ a ∈ d.args, a.name ∈ (Statement.outputsOf d'.statements).map Argument.name →
    a ∉ schema.args ∧ (∃ o ∈ Statement.outputsOf d'.statements, schema.arg? a.name = some o) ∧
      c.NeverPasses schema a.name

theorem AcceptsStatements.inputsOf
    {scope : Scope} {d : FunctionDeclaration} {statements' : List Statement}
    {body : List Signature}
    (h : c.AcceptsStatements scope d.statements statements' body)
    (hinputs : ∀ a ∈ d.args, a.isInput = true) (hnames : (d.args.map Argument.name).Nodup) :
    c.InputsOf d { d with statements := statements', schema := some (declaredSignature d body) }
      (declaredSignature d body) := by
  have houtputs := h.outputsOf_eq
  refine ⟨rfl, ?_, ?_⟩
  · intro a ha hnew
    rw [houtputs] at hnew
    obtain ⟨hmem, harg⟩ := declaredSignature_keeps hnames ha hnew
    exact ⟨hmem, harg, mayPass_of_arg? harg (hinputs a ha)⟩
  · intro a ha hname
    obtain ⟨o, ho, harg⟩ : ∃ o ∈ Statement.outputsOf statements',
        (declaredSignature d body).arg? a.name = some o := by
      rw [houtputs] at hname ⊢
      exact declaredSignature_replaces d hname
    have hout : o.isInput = false := isInput_of_mem_outputsOf ho
    refine ⟨?_, ⟨o, ho, harg⟩, neverPasses_of_arg? harg hout⟩
    intro hmem
    have hself := (hasDistinctArgs_declaredSignature hnames body).arg?_of_mem hmem
    rw [harg, Option.some.injEq] at hself
    rw [hself, hinputs a ha] at hout
    cases hout

theorem AcceptsDeclarations.inputsOf
    {scope final : Scope} {declarations declarations' : List FunctionDeclaration}
    (h : c.AcceptsDeclarations scope declarations declarations' final) :
    List.Forall₂
      (fun d d' => (∀ a ∈ d.args, a.isInput = true) → (d.args.map Argument.name).Nodup →
        ∃ schema, c.InputsOf d d' schema)
      declarations declarations' := by
  induction h with
  | nil => exact .nil
  | cons hbody _ ih =>
      refine .cons ?_ ih
      intro hinputs hnames
      exact ⟨_, hbody.inputsOf hinputs hnames⟩

/-- A declared input is in the signature of the function, and callers can pass it, if and only if
the last expression of the body has no output of its name. -/
theorem check_inputsOf
    {p : Program} {output : Input} {s : Session σ}
    (h : ((c.check (.program p)).runIn s).1 = .ok output) :
    ∃ checked, output = .program checked ∧
      List.Forall₂
        (fun d d' => (∀ a ∈ d.args, a.isInput = true) → (d.args.map Argument.name).Nodup →
          ∃ schema, (c.forProgram p).InputsOf d d' schema)
        p.declarations checked.declarations := by
  have haccepted : c.AcceptsInput (.program p) output := acceptsInput_of_check h
  cases haccepted with
  | program hdeclarations _ => exact ⟨_, rfl, hdeclarations.inputsOf⟩

/-- A search with an input of the given name. -/
def Digest.find (name : String) : FunctionDeclaration where
  name := "find"
  args := [{ name, direction := .inReq, type := .string }]
  statements :=
    [.expression
      ⟨.invocation {} ⟨.device (.ofKind "com.news"), "search",
        [⟨"topic", .var name none, none⟩], none, none⟩, none⟩]
  range := none
  schema := none

def Digest.declaring (name : String) : Program where
  classes := []
  declarations := [find name]
  statements := []
  range := none

theorem declaring_inputsOf :
    ∃ checked d schema,
      ((Digest.checker.check (.program (Digest.declaring "about"))).runIn Digest.session).1 =
        .ok (.program checked) ∧
      checked.declarations = [d] ∧
      (Digest.checker.forProgram (Digest.declaring "about")).InputsOf (Digest.find "about") d
        schema := by
  obtain ⟨output, houtput⟩ :
      ∃ output, ((Digest.checker.check (.program (Digest.declaring "about"))).runIn
        Digest.session).1 = .ok output :=
    ⟨_, rfl⟩
  obtain ⟨checked, rfl, hall⟩ := check_inputsOf houtput
  obtain ⟨d, rest, hfind, hrest, hdeclarations⟩ := List.forall₂_cons_left_iff.mp hall
  rw [List.forall₂_nil_left_iff] at hrest
  subst hrest
  have hinput : ∀ a ∈ (Digest.find "about").args, a.isInput = true :=
    List.forall_mem_singleton.mpr rfl
  obtain ⟨schema, hschema⟩ := hfind hinput (List.nodup_singleton "about")
  exact ⟨checked, d, schema, houtput, hdeclarations, hschema⟩

/-- The function `find` is called with a parameter. -/
def Digest.finding (name : String) : Program :=
  { Digest.declaring name with
    statements := [.expression ⟨.call {} "find" [⟨name, .string "Lean", none⟩], none⟩] }

-- The news have a title, which takes the place of the declared one.
theorem title_not_kept :
    (∃ checked,
      ((Digest.checker.check (.program (Digest.declaring "title"))).runIn Digest.session).1 =
        .ok (.program checked) ∧
      checked.declarations.map (fun d => d.schema.map Signature.args) =
        [some [{ name := "title", direction := .out, type := .string }]]) ∧
      ((Digest.checker.check (.program (Digest.finding "title"))).runIn Digest.session).1 =
        .error (.unknownArgument "find" "title" none) :=
  ⟨⟨_, rfl, rfl⟩, rfl⟩

end Checker

end SkillLang

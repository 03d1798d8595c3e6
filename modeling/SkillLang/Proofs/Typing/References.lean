import Mathlib.Data.List.Forall2
import SkillLang.Proofs.Insertion
import SkillLang.Proofs.Typing.AcceptanceOfCheck

/-!
# References

A parameter of a call may refer to the arguments of the function that is being declared
and to outputs: those of the elements before it in a chain, and those of the left side of
a join.  These are the binders of a reference, from the outside in, and the last one of a
name counts.  Nothing else is in scope, neither what other statements return nor what is
hidden inside of an element.
-/

namespace SkillLang

/-! ## Binders -/

/-- The arguments that are in scope at a place, the outermost ones first. -/
abbrev Binders : Type :=
  List Argument

/-- The type of the last argument of a name. -/
def Binders.type? (binders : Binders) (name : String) : Option Ty :=
  (binders.reverse.find? fun a => a.name == name).map Argument.type

/-- A variable that is referred to, with what is in scope there and the type it is annotated
with. -/
structure Reference where
  binders : Binders
  name : String
  type : Option Ty

mutual

/-- The variables in a value. -/
def Value.references (binders : Binders) : Value → List Reference
  | .var name type => [⟨binders, name, type⟩]
  | .array values _ => Value.referencesOf binders values
  | .computation _ operands _ _ => Value.referencesOf binders operands
  | .field value _ _ => value.references binders
  | .filtered value _ _ => value.references binders
  | .object fields => Value.fieldReferences binders fields
  | _ => []

def Value.referencesOf (binders : Binders) : List Value → List Reference
  | [] => []
  | value :: values => value.references binders ++ Value.referencesOf binders values

def Value.fieldReferences (binders : Binders) : List (String × Value) → List Reference
  | [] => []
  | (_, value) :: fields => value.references binders ++ Value.fieldReferences binders fields

end

def Param.references (binders : Binders) (params : List Param) : List Reference :=
  params.flatMap fun p => p.value.references binders

/-- What an annotated expression returns. -/
def Expression.outputs (e : Expression) : Binders :=
  (e.schema.map Signature.outArgs).getD []

mutual

/-- The variables in the parameters of the calls of an expression.  Their binders are those that
follow from its annotations. -/
def Expression.references (binders : Binders) : Expression → List Reference
  | .call _ _ params => Param.references binders params
  | .invocation _ i => Param.references binders i.params
  | .clause _ inner _ => inner.references binders
  | .chain _ elements => Expression.referencesOf binders elements
  | .join _ lhs rhs => lhs.references binders ++ rhs.references (binders ++ lhs.outputs)

def Expression.referencesOf (binders : Binders) : List Expression → List Reference
  | [] => []
  | element :: elements =>
    element.references binders ++ Expression.referencesOf (binders ++ element.outputs) elements

end

def Statement.references (binders : Binders) (s : Statement) : List Reference :=
  s.body.references binders

/-- A declaration brings its arguments into scope, for its own statements only. -/
def FunctionDeclaration.references (d : FunctionDeclaration) : List Reference :=
  d.statements.flatMap (Statement.references d.args)

def Program.references (p : Program) : List Reference :=
  p.declarations.flatMap FunctionDeclaration.references ++
    p.statements.flatMap (Statement.references [])

/-- A reference and the annotated one that a check makes of it, which has the type of the nearest
binder of its name. -/
structure Reference.Resolves (r resolved : Reference) : Prop where
  name_eq : resolved.name = r.name
  exists_type : ∃ type, resolved.type = some type ∧ resolved.binders.type? r.name = some type

/-! ## Scopes and binders -/

namespace Scope

/-- The variables of a scope are those that are bound. -/
def Holds (scope : Scope) (binders : Binders) : Prop :=
  ∀ name, scope.var? name = binders.type? name

theorem holds_empty :
    Scope.empty.Holds [] :=
  fun _ => rfl

theorem vars_addAll
    (scope : Scope) (args : List Argument) :
    (scope.addAll args).vars =
      args.foldl (fun vars a => Keyed.insert a.name a.type vars) scope.vars := by
  unfold addAll
  induction args generalizing scope with
  | nil => rfl
  | cons a args ih => exact ih (scope.addVar a.name a.type)

theorem Holds.addAll
    {scope : Scope} {binders : Binders} (h : scope.Holds binders) (args : List Argument) :
    (scope.addAll args).Holds (binders ++ args) := by
  intro name
  calc
    (scope.addAll args).var? name
        = ((args.reverse.find? fun a => a.name == name).map Argument.type).or
            (scope.var? name) := by
          rw [var?, vars_addAll, Keyed.find?_foldl_insert, var?]
    _ = Binders.type? (binders ++ args) name := by
          rw [h name, Binders.type?, Binders.type?, List.reverse_append,
            List.find?_append, Option.map_or]

theorem Holds.addFunction
    {scope : Scope} {binders : Binders} (h : scope.Holds binders) (name : String)
    (schema : Signature) :
    (scope.addFunction name schema).Holds binders :=
  h

end Scope

namespace Checker

variable {σ : Type} {c : Checker σ}

theorem AcceptsExpression.outputs_eq
    {scope : Scope} {depth : Nat} {expression expression' : Expression} {schema : Signature}
    (h : c.AcceptsExpression scope depth expression expression' schema) :
    expression'.outputs = schema.outArgs := by
  cases h <;> rfl

/-! ## Values -/

mutual

theorem AcceptsValue.references
    {scope : Scope} {depth : Nat} {value value' : Value} {type : Ty} {binders : Binders}
    (outer : Binders) (hscope : scope.Holds binders) :
    c.AcceptsValue scope depth value value' type →
      List.Forall₂ Reference.Resolves (value.references outer) (value'.references binders)
  | .leaf _ hleaf => by
      cases value with
      | array _ _ | var _ _ | computation _ _ _ _ | field _ _ _ | filtered _ _ _ | object _ =>
          cases hleaf
      | undefined _ | context _ _ | boolean _ | string _ | number _ | measure _ _
      | currency _ _ | place _ | date _ | time _ | entity _ | enum _ | event _ | argMap _ =>
          exact .nil
  | .var _ hvar => .cons ⟨rfl, _, rfl, (hscope _).symm.trans hvar⟩ .nil
  | .computation _ hoperands _ => hoperands.references outer hscope
  | .field _ hvalue _ => by
      simp only [Value.references]
      exact hvalue.references outer hscope
  | .filtered _ hvalue _ _ => by
      simp only [Value.references]
      exact hvalue.references outer hscope
  | .array _ hvalues _ _ => hvalues.references outer hscope
  | .object _ hfields => hfields.references outer hscope

theorem AcceptsValues.references
    {scope : Scope} {depth : Nat} {values values' : List Value} {types : List Ty}
    {binders : Binders} (outer : Binders) (hscope : scope.Holds binders) :
    c.AcceptsValues scope depth values values' types →
      List.Forall₂ Reference.Resolves (Value.referencesOf outer values)
        (Value.referencesOf binders values')
  | .nil => .nil
  | .cons hvalue hvalues =>
      List.rel_append (hvalue.references outer hscope) (hvalues.references outer hscope)

theorem AcceptsFields.references
    {scope : Scope} {depth : Nat} {fields fields' : List (String × Value)}
    {types : List (String × Ty)} {binders : Binders} (outer : Binders)
    (hscope : scope.Holds binders) :
    c.AcceptsFields scope depth fields fields' types →
      List.Forall₂ Reference.Resolves (Value.fieldReferences outer fields)
        (Value.fieldReferences binders fields')
  | .nil => .nil
  | .cons hvalue hfields =>
      List.rel_append (hvalue.references outer hscope) (hfields.references outer hscope)

end

theorem AcceptsParams.references
    {schema : Signature} {scope : Scope} {depth : Nat} {seen : List String}
    {params params' : List Param} {binders : Binders} (outer : Binders)
    (hscope : scope.Holds binders)
    (h : c.AcceptsParams schema scope depth seen params params') :
    List.Forall₂ Reference.Resolves (Param.references outer params)
      (Param.references binders params') := by
  induction params generalizing seen params' with
  | nil =>
      cases h
      exact .nil
  | cons p params ih =>
      cases h with
      | cons _ _ hvalue _ hparams =>
          exact List.rel_append (hvalue.references outer hscope) (ih hparams)

/-! ## Expressions -/

mutual

theorem AcceptsExpression.references
    {scope : Scope} {depth : Nat} {expression expression' : Expression} {schema : Signature}
    {binders : Binders} (outer : Binders) (hscope : scope.Holds binders) :
    c.AcceptsExpression scope depth expression expression' schema →
      List.Forall₂ Reference.Resolves (expression.references outer)
        (expression'.references binders)
  | .call _ _ hcall => hcall.params.references outer hscope
  | .invocation _ _ hcall => hcall.params.references outer hscope
  | .clause _ hinner _ => by
      simp only [Expression.references]
      exact hinner.references outer hscope
  | .chain _ _ helements _ => helements.references outer hscope
  | .join _ hlhs _ hrhs _ => by
      refine List.rel_append (hlhs.references outer hscope) (hrhs.references _ ?_)
      rw [hlhs.outputs_eq]
      exact hscope.addAll _

theorem AcceptsChain.references
    {scope : Scope} {depth : Nat} {isFirst : Bool}
    {elements elements' : List Expression} {schemas : List Signature}
    {binders : Binders} (outer : Binders) (hscope : scope.Holds binders) :
    c.AcceptsChain scope depth isFirst elements elements' schemas →
      List.Forall₂ Reference.Resolves (Expression.referencesOf outer elements)
        (Expression.referencesOf binders elements')
  | .nil => .nil
  | .cons helement _ helements => by
      refine List.rel_append (helement.references outer hscope) (helements.references _ ?_)
      rw [helement.outputs_eq]
      exact hscope.addAll _

end

/-! ## Programs -/

theorem AcceptsStatement.holds
    {scope next : Scope} {statement statement' : Statement} {schema : Option Signature}
    {binders : Binders} (h : c.AcceptsStatement scope statement statement' schema next)
    (hscope : scope.Holds binders) :
    next.Holds binders := by
  cases h with
  | expression _ | ret _ => exact hscope
  | assign _ => exact hscope.addFunction _ _

theorem AcceptsStatement.references
    {scope next : Scope} {statement statement' : Statement} {schema : Option Signature}
    {binders : Binders} (outer : Binders) (hscope : scope.Holds binders)
    (h : c.AcceptsStatement scope statement statement' schema next) :
    List.Forall₂ Reference.Resolves (statement.references outer)
      (statement'.references binders) := by
  cases h with
  | expression hbody | ret hbody | assign hbody => exact hbody.references outer hscope

/-- Statements bring functions into scope but no variables, so they all have the same binders. -/
theorem AcceptsStatements.references
    {scope : Scope} {statements statements' : List Statement} {schemas : List Signature}
    {binders : Binders} (outer : Binders) (hscope : scope.Holds binders)
    (h : c.AcceptsStatements scope statements statements' schemas) :
    List.Forall₂ Reference.Resolves (statements.flatMap (Statement.references outer))
      (statements'.flatMap (Statement.references binders)) := by
  induction h with
  | nil => exact .nil
  | cons hstatement _ ih =>
      rw [List.flatMap_cons, List.flatMap_cons]
      exact List.rel_append (hstatement.references outer hscope) (ih (hstatement.holds hscope))

theorem AcceptsDeclarations.holds
    {scope final : Scope} {declarations declarations' : List FunctionDeclaration}
    {binders : Binders} (h : c.AcceptsDeclarations scope declarations declarations' final)
    (hscope : scope.Holds binders) :
    final.Holds binders := by
  induction h with
  | nil => exact hscope
  | cons _ _ ih => exact ih (hscope.addFunction _ _)

theorem AcceptsDeclarations.references
    {scope final : Scope} {declarations declarations' : List FunctionDeclaration}
    (hscope : scope.Holds [])
    (h : c.AcceptsDeclarations scope declarations declarations' final) :
    List.Forall₂ Reference.Resolves (declarations.flatMap FunctionDeclaration.references)
      (declarations'.flatMap FunctionDeclaration.references) := by
  induction h with
  | nil => exact .nil
  | @cons _ _ _ _ _ _ d hbody _ ih =>
      rw [List.flatMap_cons, List.flatMap_cons]
      have hargs := hscope.addAll d.args
      rw [List.nil_append] at hargs
      exact List.rel_append (hbody.references d.args hargs) (ih (hscope.addFunction _ _))

/-- In a checked program the references are those of the program before, and each one is annotated
with the type of the nearest binder of its name.  A program with a reference that has no binder
does not pass the check. -/
theorem check_resolves_references
    {p : Program} {output : Input} {s : Session σ}
    (h : ((c.check (.program p)).runIn s).1 = .ok output) :
    ∃ checked, output = .program checked ∧
      List.Forall₂ Reference.Resolves p.references checked.references := by
  have haccepted : c.AcceptsInput (.program p) output := acceptsInput_of_check h
  cases haccepted with
  | program hdeclarations hstatements =>
      refine ⟨_, rfl, List.rel_append (hdeclarations.references Scope.holds_empty) ?_⟩
      exact hstatements.references [] (hdeclarations.holds Scope.holds_empty)

theorem digest_resolves_references :
    (Digest.program []).references.map Reference.name = ["title"] ∧
      ∃ checked,
        ((Digest.checker.check (.program (Digest.program []))).runIn Digest.session).1 =
            .ok (.program checked) ∧
          List.Forall₂ Reference.Resolves (Digest.program []).references
            checked.references := by
  obtain ⟨output, h⟩ : ∃ output,
      ((Digest.checker.check (.program (Digest.program []))).runIn Digest.session).1 =
        .ok output :=
    ⟨_, rfl⟩
  obtain ⟨checked, rfl, hreferences⟩ := check_resolves_references h
  exact ⟨rfl, checked, h, hreferences⟩

/-- The news and the mail in statements of their own, so that the titles are not in scope. -/
def Digest.apart : Program :=
  ⟨[], [],
    [.expression ⟨.invocation {} ⟨.device (.ofKind "com.news"), "search",
        [⟨"topic", .undefined false, none⟩], none, none⟩, none⟩,
      .expression ⟨.invocation {} ⟨.device (.ofKind "com.mail"), "send",
        [⟨"subject", .var "title" none, none⟩], none, none⟩, none⟩],
    none⟩

example :
    ((Digest.checker.check (.program Digest.apart)).runIn Digest.session).1 =
      .error (.undeclaredVariable "title") := by
  rfl

end Checker

end SkillLang

import SkillLang.Proofs.Source.Canonical
import SkillLang.Proofs.Source.Reader

/-!
# Legible programs

A program is legible if its names are names and none of its parts is written like another one
that it could be taken for.  Some parts are written alike whatever they are called, and of these
only one is legible: a computed column that is a variable is written like an output, and a call
of a builtin function with inputs like a call of a declared one.  Others run into what stands
next to them: a filtered value into the operator after it, and an expression with brackets in
front of it into the clause after it.  What is not written at all, such as the annotations of
arguments, a legible program does not have.
-/

namespace SkillLang

/-- The type is known from its text, which is one word. -/
def Ty.isLegible (type : Ty) : Bool :=
  readType? type.display == some type && Token.isPlain (.literal type.display) &&
    !structureMarks.contains type.display

/-- The number is known from the double that is written for it. -/
def isExact (n : Int) : Bool :=
  wholeNumber (Float.ofInt n) == n

def DateValue.isLegible : DateValue → Bool
  | .absolute _ | .now | .weekday _ _ => true
  | .edge _ unit => isName unit
  | .piece year month day _ =>
    year.all isExact && (month.map Int.ofNat).all isExact && (day.map Int.ofNat).all isExact

namespace Value

def isFiltered : Value → Bool
  | .filtered _ _ _ => true
  | _ => false

def isVar : Value → Bool
  | .var _ _ => true
  | _ => false

end Value

/-- The test is written like a computed column, a call of an operator or a truth value. -/
def Filter.isLikeColumn : Filter → Bool
  | .dontCare _ _ | .external _ _ => false
  | f => f.priority == .primary

/-- The attribute is written like the choice of all devices. -/
def Param.isEvery : Param → Bool
  | ⟨name, .boolean true, _⟩ => name == "all"
  | _ => false

mutual

def Value.isLegible : Value → Bool
  | .array values _ => Value.allLegible values
  | .var name _ => isName name
  | .computation op operands _ _ =>
    (isName op ||
        infixOperators.contains op && operands.length == 2 &&
          operands.all fun v => !v.isFiltered) &&
      Value.allLegible operands
  | .field value name _ => isName name && value.isLegible
  | .filtered value filter _ => value.isLegible && filter.isLegible
  | .undefined isLocal => isLocal
  | .context _ type => type.isLegible
  | .date d => d.isLegible
  | .enum entry => isName entry
  | .event none => true
  | .event (some name) => isName name && name != "now" && name != "result"
  | .argMap args => args.all fun (name, type) => isName name && type.isLegible
  | .object fields => Value.allFieldsLegible fields
  | .boolean _ | .string _ | .number _ | .measure _ _ | .currency _ _ | .place _ | .time _
  | .entity _ => true

def Value.allLegible : List Value → Bool
  | [] => true
  | value :: values => value.isLegible && Value.allLegible values

def Value.allFieldsLegible : List (String × Value) → Bool
  | [] => true
  | (name, value) :: fields => isName name && value.isLegible && Value.allFieldsLegible fields

def Filter.isLegible : Filter → Bool
  | .always | .never => true
  | .conj _ operands | .disj _ operands =>
    decide (2 ≤ operands.length) && Filter.allLegible operands
  | .neg _ operand => operand.isLegible
  | .atom _ name op value _ =>
    isName name && (isName op || isComparison op && !value.isFiltered) && value.isLegible
  | .compute _ lhs op rhs _ =>
    !lhs.isVar && (isName op || isComparison op && !lhs.isFiltered && !rhs.isFiltered) &&
      lhs.isLegible && rhs.isLegible
  | .dontCare _ name => isName name
  | .external call filter => call.isLegible && filter.isLegible

def Filter.allLegible : List Filter → Bool
  | [] => true
  | operand :: operands => operand.isLegible && Filter.allLegible operands

def Param.allLegible : List Param → Bool
  | [] => true
  | ⟨name, value, _⟩ :: params => isName name && value.isLegible && Param.allLegible params

def Device.isLegible : Device → Bool
  | ⟨_, _, attributes, all, _⟩ =>
    Param.allLegible attributes && (all || !attributes.getLast?.any Param.isEvery)

def Invocation.isLegible : Invocation → Bool
  | ⟨.builtin, channel, params, _, _⟩ => isName channel && params.isEmpty
  | ⟨.device d, channel, params, _, _⟩ =>
    d.isLegible && isName channel && Param.allLegible params

end

def Column.isLegible : Column → Bool
  | .path name => isName name
  | .value v => !v.isVar && v.isLegible

def Selected.isLegible (s : Selected) : Bool :=
  s.column.isLegible && s.label.all isName && s.types.all Ty.isLegible

def Clause.isLegible : Clause → Bool
  | .filter f => f.isLegible
  | .monitor args => args.all fun args => args.all isName
  | .projection args columns labels =>
    args.all isName && Value.allLegible columns && labels.length == columns.length &&
      (columns.zip labels).all fun (value, label) => label.elim (!value.isVar) isName
  | .selection elements =>
    elements.all Selected.isLegible && elements.any fun s => !s.types.isEmpty
  | .question f => f.isLegible && !f.isLikeColumn
  | .named name => isName name
  | .aggregation field op _ => isName op && (field == "*" || isName field)
  | .sort value _ => value.isLegible
  | .index indices => Value.allLegible indices
  | .slice base limit => base.isLegible && limit.isLegible

/-- Brackets stand in front of the expression. -/
def Expression.hasFrontBrackets : Expression → Bool
  | .clause _ _ (.projection _ _ _) | .clause _ _ (.selection _) | .clause _ _ (.question _) => true
  | _ => false

/-- The clause does not run into brackets in front of an expression. -/
def Clause.canFollow (inner : Expression) : Clause → Bool
  | .filter _ | .named _ => !inner.hasFrontBrackets
  | _ => true

mutual

def Expression.isLegible : Expression → Bool
  | .call _ name params => isName name && Param.allLegible params
  | .invocation _ i => i.isLegible
  | .clause _ inner c => inner.isLegible && c.isLegible && c.canFollow inner.canonical
  | .chain _ elements => !elements.isEmpty && Expression.allLegible elements
  | .join _ lhs rhs => lhs.isLegible && rhs.isLegible

def Expression.allLegible : List Expression → Bool
  | [] => true
  | element :: elements => element.isLegible && Expression.allLegible elements

end

def Statement.isLegible : Statement → Bool
  | .expression s => s.expression.isLegible
  | .ret body _ => body.isLegible
  | .assign name body _ => isName name && body.isLegible

/-- Nothing is known of the argument that is not written. -/
def Argument.isLegible (a : Argument) : Bool :=
  isName a.name && a.type.isLegible && !a.unique && a.requiredIf.isEmpty && a.annotations.isEmpty

def FunctionDeclaration.isLegible (d : FunctionDeclaration) : Bool :=
  isName d.name && d.args.all Argument.isLegible && d.statements.all Statement.isLegible

/-- The function is one of a class, and nothing is known of it that is not written. -/
def Signature.isLegible (kind : String) (s : Signature) : Bool :=
  s.device == some kind && isName s.name && s.args.all Argument.isLegible &&
    s.requireEither.isEmpty && s.annotations.isEmpty

/-- The functions of the class stand under their names, and its actions apart. -/
def ClassDef.isLegible (d : ClassDef) : Bool :=
  d.queries.all (fun (name, s) => name == s.name && s.type != .action && s.isLegible d.kind) &&
    d.actions.all fun (name, s) => name == s.name && s.type == .action && s.isLegible d.kind

def Program.isLegible (p : Program) : Bool :=
  p.classes.all ClassDef.isLegible && p.declarations.all FunctionDeclaration.isLegible &&
    p.statements.all Statement.isLegible

end SkillLang

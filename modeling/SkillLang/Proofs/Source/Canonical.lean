import SkillLang.Source.Program

/-!
# Canonical programs

The source of a program leaves out some of what a program is: where its parts stand, what a
check has found out about them, how connectives of one kind are nested, and that an expression
is a chain of its own.  The canonical form of a program is the program without these.
-/

namespace SkillLang

mutual

def Value.canonical : Value → Value
  | .array values _ => .array (Value.canonicalAll values) none
  | .var name _ => .var name none
  | .computation op operands _ _ => .computation op (Value.canonicalAll operands) none none
  | .field value name _ => .field value.canonical name none
  | .filtered value filter _ => .filtered value.canonical filter.canonical none
  | .undefined isLocal => .undefined isLocal
  | .context name type => .context name type
  | .boolean b => .boolean b
  | .string s => .string s
  | .number x => .number x
  | .measure x unit => .measure x unit
  | .currency x code => .currency x code
  | .place p => .place p
  | .date d => .date d
  | .time t => .time t
  | .entity e => .entity e
  | .enum entry => .enum entry
  | .event name => .event name
  | .argMap args => .argMap args
  | .object fields => .object (Value.canonicalFields fields)

def Value.canonicalAll : List Value → List Value
  | [] => []
  | value :: values => value.canonical :: Value.canonicalAll values

def Value.canonicalFields : List (String × Value) → List (String × Value)
  | [] => []
  | (name, value) :: fields => (name, value.canonical) :: Value.canonicalFields fields

def Filter.canonical : Filter → Filter
  | .always => .always
  | .never => .never
  | .conj _ operands => .conj none (Filter.conjuncts operands)
  | .disj _ operands => .disj none (Filter.disjuncts operands)
  | .neg _ operand => .neg none operand.canonical
  | .atom _ name op value _ => .atom none name op value.canonical none
  | .compute _ lhs op rhs _ => .compute none lhs.canonical op rhs.canonical none
  | .dontCare _ name => .dontCare none name
  | .external call filter => .external call.canonical filter.canonical

/-- The operands of a conjunction, those of conjunctions among them in place of these. -/
def Filter.conjuncts : List Filter → List Filter
  | [] => []
  | operand :: operands =>
    (match operand.canonical with
      | .conj _ inner => inner
      | operand => [operand]) ++ Filter.conjuncts operands

def Filter.disjuncts : List Filter → List Filter
  | [] => []
  | operand :: operands =>
    (match operand.canonical with
      | .disj _ inner => inner
      | operand => [operand]) ++ Filter.disjuncts operands

def Param.canonicalAll : List Param → List Param
  | [] => []
  | ⟨name, value, _⟩ :: params => ⟨name, value.canonical, none⟩ :: Param.canonicalAll params

def Device.canonical : Device → Device
  | ⟨kind, id, attributes, all, _⟩ => ⟨kind, id, Param.canonicalAll attributes, all, none⟩

def Invocation.canonical : Invocation → Invocation
  | ⟨.builtin, channel, params, _, _⟩ =>
    ⟨.builtin, channel, Param.canonicalAll params, none, none⟩
  | ⟨.device d, channel, params, _, _⟩ =>
    ⟨.device d.canonical, channel, Param.canonicalAll params, none, none⟩

end

def Column.canonical : Column → Column
  | .path name => .path name
  | .value v => .value v.canonical

def Selected.canonical (s : Selected) : Selected :=
  { s with column := s.column.canonical }

def Clause.canonical : Clause → Clause
  | .filter test => .filter test.canonical
  | .monitor args => .monitor args
  | .projection args columns labels => .projection args (Value.canonicalAll columns) labels
  | .selection elements => .selection (elements.map Selected.canonical)
  | .question test => .question test.canonical
  | .named name => .named name
  | .aggregation field op _ => .aggregation field op none
  | .sort value direction => .sort value.canonical direction
  | .index indices => .index (Value.canonicalAll indices)
  | .slice base limit => .slice base.canonical limit.canonical

mutual

def Expression.canonical : Expression → Expression
  | .call _ name params => .call {} name (Param.canonicalAll params)
  | .invocation _ i => .invocation {} i.canonical
  | .clause _ inner c => .clause {} inner.canonical c.canonical
  | .chain _ elements =>
    match Expression.canonicalAll elements with
    | [element] => element
    | elements => .chain {} elements
  | .join _ lhs rhs => .join {} lhs.canonical rhs.canonical

def Expression.canonicalAll : List Expression → List Expression
  | [] => []
  | element :: elements => element.canonical :: Expression.canonicalAll elements

end

def Statement.canonical : Statement → Statement
  | .expression s => .expression ⟨s.expression.canonical, none⟩
  | .ret body _ => .ret body.canonical none
  | .assign name body _ => .assign name body.canonical none

def FunctionDeclaration.canonical (d : FunctionDeclaration) : FunctionDeclaration :=
  { d with statements := d.statements.map Statement.canonical, range := none, schema := none }

def Program.canonical (p : Program) : Program where
  classes := p.classes.map fun d => { d with range := none }
  declarations := p.declarations.map FunctionDeclaration.canonical
  statements := p.statements.map Statement.canonical
  range := none

/-! ## Programs that are written alike -/

def Program.mailAbout (subject : Value) : Program :=
  ⟨[], [],
    [.expression
      ⟨.invocation {} ⟨.device (.ofKind "com.mail"), "send", [⟨"subject", subject, none⟩], none,
        none⟩, none⟩],
    none⟩

/-- The rows of a size, and one row more. -/
def Value.rowsAndExtra : Value :=
  .computation "+"
    [.filtered (.var "rows" none) (.atom none "size" "==" (.var "limit" none) none) none,
      .var "extra" none] none none

/-- The rows of a greater size. -/
def Value.greaterRows : Value :=
  .filtered (.var "rows" none)
    (.atom none "size" "==" (.computation "+" [.var "limit" none, .var "extra" none] none none)
      none) none

/-- A program that asks for what an expression finds. -/
def Program.asking (e : Expression) : Program :=
  ⟨[], [], [.expression ⟨e, none⟩], none⟩

def Expression.inbox : Expression :=
  .invocation {} ⟨.device (.ofKind "com.mail"), "inbox", [], none, none⟩

/-- The subjects alone, under a name. -/
def Expression.subjectsNamed : Expression :=
  .clause {} (.clause {} .inbox (.projection ["subject"] [] [])) (.named "letters")

/-- The mails under a name, and of these the subjects. -/
def Expression.subjectsOfNamed : Expression :=
  .clause {} (.clause {} .inbox (.named "letters")) (.projection ["subject"] [] [])

/-- Nothing tells where the filter of a filtered value ends, nor what the brackets in front of an
expression belong to. -/
theorem ambiguous_sources :
    ((Program.mailAbout .rowsAndExtra).source.toList =
          (Program.mailAbout .greaterRows).source.toList ∧
        (Program.mailAbout .rowsAndExtra).canonical ≠
          (Program.mailAbout .greaterRows).canonical) ∧
      (Program.asking .subjectsNamed).source.toList =
          (Program.asking .subjectsOfNamed).source.toList ∧
        (Program.asking .subjectsNamed).canonical ≠
          (Program.asking .subjectsOfNamed).canonical := by
  refine ⟨⟨rfl, ?_⟩, rfl, ?_⟩ <;>
  · intro h
    cases h

end SkillLang

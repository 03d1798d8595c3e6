import SkillLang.Syntax.Expression

/-!
# Programs

A program declares classes and functions and then runs statements.  Next to programs
there are permission rules, which say who may run what, and control commands, by
which a user steers a dialogue.
-/

namespace SkillLang

structure ExpressionStatement where
  expression : Expression
  range : Option Range

/-- A statement at the place of its expression. -/
def ExpressionStatement.of (e : Expression) : ExpressionStatement :=
  ⟨e, e.range⟩

inductive Statement where
  | expression (s : ExpressionStatement)
  | ret (expression : Expression) (range : Option Range)
  | assign (name : String) (expression : Expression) (range : Option Range)

namespace Statement

def body : Statement → Expression
  | expression s => s.expression
  | ret e _ => e
  | assign _ e _ => e

end Statement

structure ClassDef where
  kind : String
  parents : List String
  queries : Keyed Signature
  actions : Keyed Signature
  range : Option Range

namespace ClassDef

def empty (kind : String) : ClassDef :=
  ⟨kind, [], [], [], none⟩

/-- The class with one function more, in place of any function of its name and type. -/
def withFunction (c : ClassDef) (s : Signature) : ClassDef :=
  let s := { s with device := some c.kind }
  match s.type with
  | .action => { c with actions := Keyed.insert s.name s c.actions }
  | .query | .stream => { c with queries := Keyed.insert s.name s c.queries }

/-- The function of a name and type; without a type, queries come before actions. -/
def function? (c : ClassDef) (channel : String) : Option FunctionType → Option Signature
  | some .action => Keyed.find? channel c.actions
  | some _ => Keyed.find? channel c.queries
  | none => (Keyed.find? channel c.queries).or (Keyed.find? channel c.actions)

end ClassDef

structure FunctionDeclaration where
  name : String
  args : List Argument
  statements : List Statement
  range : Option Range
  schema : Option Signature

structure Program where
  classes : List ClassDef
  declarations : List FunctionDeclaration
  statements : List Statement
  range : Option Range

/-- One function of a class, for the results or calls that pass a filter. -/
structure SpecifiedFunction where
  kind : String
  channel : String
  filter : Filter
  range : Option Range
  schema : Option Signature

/-- The functions that a permission is about. -/
inductive PermissionFunction where
  | specified (f : SpecifiedFunction)
  | builtin
  | classStar (kind : String)
  | star

structure PermissionRule where
  principal : Filter
  query : PermissionFunction
  action : PermissionFunction
  range : Option Range

inductive ControlIntent where
  | special (name : String)
  | choice (index : Nat)
  | answer (value : Value)

structure ControlCommand where
  intent : ControlIntent
  range : Option Range

end SkillLang

import SkillLang.Syntax.Value

/-!
# Expressions

An expression calls a function, or applies a clause to another expression, or combines
expressions in a chain or a join.  Every expression carries its place in the source
and, once it has been checked, its signature.
-/

namespace SkillLang

structure Info where
  range : Option Range := none
  schema : Option Signature := none
deriving BEq

inductive SortDirection where
  | asc
  | desc
deriving DecidableEq

def SortDirection.name : SortDirection → String
  | .asc => "asc"
  | .desc => "desc"

/-- An element of a selection: an output, possibly inside of another, or a computed value. -/
inductive Column where
  | path (path : String)
  | value (v : Value)
deriving BEq

structure Selected where
  column : Column
  label : Option String
  types : List Ty
deriving BEq

/-- What is done to the results of an expression. -/
inductive Clause where
  | filter (filter : Filter)
  | monitor (args : Option (List String))
  | projection (args : List String) (computations : List Value) (aliases : List (Option String))
  | selection (elements : List Selected)
  | question (filter : Filter)
  | named (name : String)
  | aggregation (field op : String) (overload : Option (List Ty))
  | sort (value : Value) (direction : SortDirection)
  | index (indices : List Value)
  | slice (base limit : Value)
deriving BEq

inductive Expression where
  | call (info : Info) (name : String) (params : List Param)
  | invocation (info : Info) (invocation : Invocation)
  | clause (info : Info) (inner : Expression) (clause : Clause)
  | chain (info : Info) (elements : List Expression)
  | join (info : Info) (lhs rhs : Expression)

namespace Expression

mutual
def beq : Expression → Expression → Bool
  | call i n ps, call j m qs => i == j && n == m && ps == qs
  | invocation i a, invocation j b => i == j && a == b
  | clause i e c, clause j f d => i == j && beq e f && c == d
  | chain i es, chain j fs => i == j && beqList es fs
  | join i a b, join j c d => i == j && beq a c && beq b d
  | _, _ => false
termination_by structural e => e

def beqList : List Expression → List Expression → Bool
  | [], [] => true
  | e :: es, f :: fs => beq e f && beqList es fs
  | _, _ => false
termination_by structural es => es
end

instance : BEq Expression := ⟨beq⟩

def info : Expression → Info
  | call info _ _ | invocation info _ | clause info _ _ | chain info _ | join info _ _ => info

def range (e : Expression) : Option Range :=
  e.info.range

def schema (e : Expression) : Option Signature :=
  e.info.schema

def functionType (e : Expression) : Option FunctionType :=
  e.schema.map Signature.type

def inner? : Expression → Option Expression
  | clause _ inner _ => some inner
  | _ => none

end Expression

end SkillLang

import SkillLang.Signature.Basic

/-!
# Scopes

What the names of variables and of functions stand for at some point of a program.
-/

namespace SkillLang

structure Scope where
  vars : Keyed Ty := []
  functions : Keyed Signature := []

namespace Scope

def empty : Scope := {}

def var? (s : Scope) (name : String) : Option Ty :=
  Keyed.find? name s.vars

def hasVar (s : Scope) (name : String) : Bool :=
  (s.var? name).isSome

def addVar (s : Scope) (name : String) (type : Ty) : Scope :=
  { s with vars := Keyed.insert name type s.vars }

/-- Brings arguments into scope; of two with one name the later counts. -/
def addAll (s : Scope) (args : List Argument) : Scope :=
  args.foldl (fun s a => s.addVar a.name a.type) s

def addOutputs (s : Scope) (schema : Signature) : Scope :=
  s.addAll schema.outArgs

def addArguments (s : Scope) (schema : Signature) : Scope :=
  s.addAll schema.args

def function? (s : Scope) (name : String) : Option Signature :=
  Keyed.find? name s.functions

def addFunction (s : Scope) (name : String) (schema : Signature) : Scope :=
  { s with functions := Keyed.insert name schema s.functions }

end Scope

end SkillLang

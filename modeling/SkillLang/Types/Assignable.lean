import SkillLang.Types.Basic
import SkillLang.Types.Units

/-!
# Assignability

A value of one type may be passed where another type is expected.  On the way, type
variables and the open unit of measures are bound to what they meet first, and later
uses have to agree with it.  In lenient use, strings and entities take each other's
place.
-/

namespace SkillLang

/-- What the type variables and the open unit of a signature are bound to. -/
structure Bindings where
  vars : Keyed Ty := []
  unit : Option String := none

namespace Bindings

def empty : Bindings := {}

def bind (b : Bindings) (name : String) (type : Ty) : Bindings :=
  { b with vars := Keyed.insert name type b.vars }

/-- The open unit agrees with a unit, or is free and then bound to it. -/
def meetUnit (b : Bindings) (unit : String) : Bool × Bindings :=
  match b.unit with
  | some bound => (MeasureUnit.sameQuantity bound unit, b)
  | none => (true, { b with unit := some unit })

end Bindings

namespace Ty

mutual
/-- A type with its variables replaced; `lookup` finds what a variable stands for. -/
def substitute (lookup : String → Option Ty) (unit : Option String) : Ty → Ty
  | var name => (lookup name).getD (var name)
  | measure u => if u.isEmpty then measure (unit.getD u) else measure u
  | array elem => array (substitute lookup unit elem)
  | compound fields => compound (substituteFields lookup unit fields)
  | any => any
  | boolean => boolean
  | string => string
  | number => number
  | currency => currency
  | enum entries => enum entries
  | entity kind => entity kind
  | date => date
  | time => time
  | location => location
  | recurrentTime => recurrentTime
  | argMap => argMap
  | object => object
  | unknown name => unknown name

def substituteFields (lookup : String → Option Ty) (unit : Option String) :
    List (String × Ty) → List (String × Ty)
  | [] => []
  | (name, type) :: fields =>
    (name, substitute lookup unit type) :: substituteFields lookup unit fields
end

/-- A type with its variables replaced by what they are bound to, following at most `hops`
bindings one after the other. -/
def resolveWithin (b : Bindings) : (hops : Nat) → Ty → Ty
  | 0 => substitute (fun _ => none) b.unit
  | hops + 1 => substitute (fun name => (Keyed.find? name b.vars).map (resolveWithin b hops)) b.unit

/-- A type with its variables and the open unit replaced by what they are bound to.  Bindings that
do not run in circles are followed to their end. -/
def resolve (b : Bindings) (type : Ty) : Ty :=
  resolveWithin b b.vars.length type

mutual
def size : Ty → Nat
  | array elem => 1 + size elem
  | compound fields => 1 + sizeFields fields
  | _ => 1

def sizeFields : List (String × Ty) → Nat
  | [] => 0
  | (_, type) :: fields => 1 + size type + sizeFields fields
end

/-- The types are the same and their agreement binds nothing. -/
def agreesOutright (type target : Ty) : Bool :=
  match type with
  | var _ | measure _ => false
  | _ => type == target

/-- A measure of one unit where another is expected; the empty unit is the open one. -/
def meetMeasures (unit target : String) (b : Bindings) : Bool × Bindings :=
  match unit.isEmpty, target.isEmpty with
  | true, true => (true, b)
  | false, false => (MeasureUnit.sameQuantity unit target, b)
  | false, true => b.meetUnit unit
  | true, false => b.meetUnit target

/-- A type where a variable is expected. -/
def meetVar (follow : Ty → Ty → Bindings → Bool × Bindings) (type : Ty) (name : String)
    (b : Bindings) : Bool × Bindings :=
  match Keyed.find? name b.vars with
  | some bound => follow type bound b
  | none => (true, b.bind name type)

/-- A variable where a type is expected. -/
def varMeets (follow : Ty → Ty → Bindings → Bool × Bindings) (name : String) (target : Ty)
    (b : Bindings) : Bool × Bindings :=
  match Keyed.find? name b.vars with
  | some bound => follow bound target b
  | none => (true, b.bind name target)

def isAny : Ty → Bool
  | any => true
  | _ => false

def varName? : Ty → Option String
  | var name => some name
  | _ => none

mutual
/-- Assignability in which `follow` takes over where a bound variable is met. -/
def assignWith (lenient : Bool) (follow : Ty → Ty → Bindings → Bool × Bindings)
    (type target : Ty) (b : Bindings) : Bool × Bindings :=
  if agreesOutright type target || target.isAny || type.isAny then (true, b)
  else
    match target.varName?, type.varName? with
    | some name, _ => meetVar follow type name b
    | none, some name => varMeets follow name target b
    | none, none =>
      match target with
      | measure target =>
        match type with
        | measure unit => meetMeasures unit target b
        | _ => (false, b)
      | enum target =>
        match type, target with
        | enum (some entries), some allowed => (entries.all fun entry => allowed.contains entry, b)
        | enum _, _ => (true, b)
        | _, _ => (false, b)
      | entity target =>
        match type with
        | entity kind => (target == "*" || kind == target, b)
        | string => (lenient, b)
        | _ => (false, b)
      | string =>
        match type with
        | entity _ => (lenient, b)
        | _ => (false, b)
      | array target =>
        match type with
        | array elem => assignWith lenient follow elem target b
        | _ => (false, b)
      | compound target =>
        match type with
        | compound fields => assignFieldsWith lenient follow fields target b
        | _ => (false, b)
      | object =>
        match type with
        | compound _ => (true, b)
        | _ => (false, b)
      | _ => (false, b)
termination_by structural target

/-- Every expected field is there and its type is assignable; the others do not matter. -/
def assignFieldsWith (lenient : Bool) (follow : Ty → Ty → Bindings → Bool × Bindings)
    (fields : List (String × Ty)) (expected : List (String × Ty)) (b : Bindings) :
    Bool × Bindings :=
  match expected with
  | [] => (true, b)
  | (name, target) :: rest =>
    match Keyed.find? name fields with
    | none => (false, b)
    | some type =>
      match assignWith lenient follow type target b with
      | (true, b) => assignFieldsWith lenient follow fields rest b
      | (false, b) => (false, b)
termination_by structural expected
end

/-- Assignability that follows at most `hops` bound variables one after the other. -/
def assignWithin (lenient : Bool) : (hops : Nat) → Ty → Ty → Bindings → Bool × Bindings
  | 0 => assignWith lenient fun _ _ b => (false, b)
  | hops + 1 => assignWith lenient (assignWithin lenient hops)

/-- How many bound variables can be met one after the other: each binding once for every
constructor of the types on the two sides. -/
def hopsFor (type target : Ty) (b : Bindings) : Nat :=
  let total := type.size + target.size + sizeFields b.vars
  (total + 1) * (total + 1)

/-- Whether a value of `type` may be passed where `target` is expected, and the bindings after that;
what has been bound up to a disagreement stays bound. -/
def assign (lenient : Bool) (type target : Ty) (b : Bindings) : Bool × Bindings :=
  assignWithin lenient (hopsFor type target b) type target b

/-- Assignability on its own, without bindings before it. -/
def isAssignable (lenient : Bool) (type target : Ty) : Bool :=
  (assign lenient type target Bindings.empty).1

end Ty

end SkillLang

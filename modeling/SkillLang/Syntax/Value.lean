import SkillLang.Signature.Basic
import SkillLang.Source.Range
import SkillLang.Syntax.Constant
import SkillLang.Text.Lowercase

/-!
# Values and filters

Values and filters refer to each other: a value may be filtered, and a filter compares
values and may call a function whose parameters are values.  Optional types and
signatures are annotations, which checking fills in.
-/

namespace SkillLang

mutual

inductive Value where
  | array (values : List Value) (type : Option Ty)
  | var (name : String) (type : Option Ty)
  | computation (op : String) (operands : List Value) (overload : Option (List Ty))
      (type : Option Ty)
  /-- A field of every element of an array. -/
  | field (value : Value) (name : String) (type : Option Ty)
  /-- The elements of an array that pass a filter. -/
  | filtered (value : Value) (filter : Filter) (type : Option Ty)
  /-- A value that is still to be asked for. -/
  | undefined (isLocal : Bool)
  | context (name : String) (type : Ty)
  | boolean (b : Bool)
  | string (s : String)
  | number (x : Float)
  | measure (x : Float) (unit : String)
  | currency (x : Float) (code : String)
  | place (p : Place)
  | date (d : DateValue)
  | time (t : TimeOfDay)
  | entity (e : EntityRef)
  | enum (entry : String)
  | event (name : Option String)
  | argMap (args : List (String × Ty))
  | object (fields : List (String × Value))

inductive Filter where
  | always
  | never
  | conj (range : Option Range) (operands : List Filter)
  | disj (range : Option Range) (operands : List Filter)
  | neg (range : Option Range) (operand : Filter)
  /-- A comparison of an output with a value. -/
  | atom (range : Option Range) (name op : String) (value : Value) (overload : Option (List Ty))
  | compute (range : Option Range) (lhs : Value) (op : String) (rhs : Value)
      (overload : Option (List Ty))
  | dontCare (range : Option Range) (name : String)
  /-- Some result of a call passes a filter. -/
  | external (call : Invocation) (filter : Filter)

/-- An input that is passed by name. -/
structure Param where
  name : String
  value : Value
  range : Option Range

/-- The devices of a class: one of them, some of them, or all. -/
structure Device where
  kind : String
  id : Option String
  attributes : List Param
  all : Bool
  range : Option Range

inductive Selector where
  | builtin
  | device (d : Device)

/-- A call of a function of a device. -/
structure Invocation where
  selector : Selector
  channel : String
  params : List Param
  range : Option Range
  schema : Option Signature

end

/-! ## Equality

Numbers are compared as numbers, so that no value with an invalid number equals itself.
The places of parameters and devices in the source do not count.
-/

mutual

def Value.beq : Value → Value → Bool
  | .array a t, .array b u => Value.beqList a b && t == u
  | .var a t, .var b u => a == b && t == u
  | .computation a as o t, .computation b bs p u =>
    a == b && Value.beqList as bs && o == p && t == u
  | .field a n t, .field b m u => Value.beq a b && n == m && t == u
  | .filtered a f t, .filtered b g u => Value.beq a b && Filter.beq f g && t == u
  | .undefined a, .undefined b => a == b
  | .context a t, .context b u => a == b && t == u
  | .boolean a, .boolean b => a == b
  | .string a, .string b => a == b
  | .number a, .number b => a == b
  | .measure a u, .measure b v => a == b && u == v
  | .currency a c, .currency b d => a == b && c == d
  | .place a, .place b => a == b
  | .date a, .date b => a == b
  | .time a, .time b => a == b
  | .entity a, .entity b => a == b
  | .enum a, .enum b => a == b
  | .event a, .event b => a == b
  | .argMap a, .argMap b => a == b
  | .object a, .object b => Value.beqFields a b
  | _, _ => false
termination_by structural a => a

def Value.beqList : List Value → List Value → Bool
  | [], [] => true
  | a :: as, b :: bs => Value.beq a b && Value.beqList as bs
  | _, _ => false
termination_by structural a => a

def Value.beqFields : List (String × Value) → List (String × Value) → Bool
  | [], [] => true
  | (n, a) :: as, (m, b) :: bs => n == m && Value.beq a b && Value.beqFields as bs
  | _, _ => false
termination_by structural a => a

def Filter.beq : Filter → Filter → Bool
  | .always, .always => true
  | .never, .never => true
  | .conj r a, .conj s b => r == s && Filter.beqList a b
  | .disj r a, .disj s b => r == s && Filter.beqList a b
  | .neg r a, .neg s b => r == s && Filter.beq a b
  | .atom r n o a t, .atom s m p b u =>
    r == s && n == m && o == p && Value.beq a b && t == u
  | .compute r a o c t, .compute s b p d u =>
    r == s && Value.beq a b && o == p && Value.beq c d && t == u
  | .dontCare r a, .dontCare s b => r == s && a == b
  | .external c f, .external d g => Invocation.beq c d && Filter.beq f g
  | _, _ => false
termination_by structural a => a

def Filter.beqList : List Filter → List Filter → Bool
  | [], [] => true
  | a :: as, b :: bs => Filter.beq a b && Filter.beqList as bs
  | _, _ => false
termination_by structural a => a

def Param.beq : Param → Param → Bool
  | ⟨n, a, _⟩, ⟨m, b, _⟩ => n == m && Value.beq a b
termination_by structural a => a

def Param.beqList : List Param → List Param → Bool
  | [], [] => true
  | a :: as, b :: bs => Param.beq a b && Param.beqList as bs
  | _, _ => false
termination_by structural a => a

def Device.beq : Device → Device → Bool
  | ⟨k, i, as, l, _⟩, ⟨m, j, bs, n, _⟩ => k == m && i == j && Param.beqList as bs && l == n
termination_by structural a => a

def Selector.beq : Selector → Selector → Bool
  | .builtin, .builtin => true
  | .device a, .device b => Device.beq a b
  | _, _ => false
termination_by structural a => a

def Invocation.beq : Invocation → Invocation → Bool
  | ⟨s, c, ps, r, t⟩, ⟨u, d, qs, v, w⟩ =>
    Selector.beq s u && c == d && Param.beqList ps qs && r == v && t == w
termination_by structural a => a

end

instance : BEq Value := ⟨Value.beq⟩
instance : BEq Filter := ⟨Filter.beq⟩
instance : BEq Param := ⟨Param.beq⟩
instance : BEq Device := ⟨Device.beq⟩
instance : BEq Selector := ⟨Selector.beq⟩
instance : BEq Invocation := ⟨Invocation.beq⟩

namespace Value

/-- An amount of money; the codes of currencies are kept in lower case. -/
def ofMoney (x : Float) (code : String) : Value :=
  currency x (Text.lowercase code)

def isUndefined : Value → Bool
  | undefined _ => true
  | _ => false

mutual
/-- The type of a value as far as it is known; a value that stands for another has the type of
its annotation. -/
def typeOf : Value → Ty
  | array values type =>
    match type with
    | some type => type
    | none =>
      match values with
      | [] => .array .any
      | value :: _ => .array (typeOf value)
  | var _ type => type.getD .any
  | computation _ _ _ type => type.getD .any
  | field _ _ type => type.getD .any
  | filtered _ _ type => type.getD .any
  | undefined _ => .any
  | context _ type => type
  | boolean _ => .boolean
  | string _ => .string
  | number _ => .number
  | measure _ unit => .measure unit
  | currency _ _ => .currency
  | place _ => .location
  | date _ => .date
  | time _ => .time
  | entity e => .entity e.kind
  | enum entry => .enum (some [entry])
  | event _ => .string
  | argMap _ => .argMap
  | object fields => .compound (typesOf fields)

def typesOf : List (String × Value) → List (String × Ty)
  | [] => []
  | (name, value) :: fields => (name, typeOf value) :: typesOf fields
end

mutual
/-- The value is known without running anything. -/
def isConcrete : Value → Bool
  | array values _ => allConcrete values
  | object fields => allFieldsConcrete fields
  | place p => p.isAbsolute
  | date d => d.isAbsolute
  | time t => t.isAbsolute
  | boolean _ | string _ | number _ | measure _ _ | currency _ _ | entity _ | enum _ | argMap _ =>
    true
  | var _ _ | computation _ _ _ _ | field _ _ _ | filtered _ _ _ | undefined _ | context _ _
  | event _ => false

def allConcrete : List Value → Bool
  | [] => true
  | value :: values => isConcrete value && allConcrete values

def allFieldsConcrete : List (String × Value) → Bool
  | [] => true
  | (_, value) :: fields => isConcrete value && allFieldsConcrete fields
end

mutual
/-- The value can be handed to the running program. -/
def isConstant : Value → Bool
  | array values _ => allConstant values
  | object fields => allFieldsConstant fields
  | value => isConcrete value

def allConstant : List Value → Bool
  | [] => true
  | value :: values => isConstant value && allConstant values

def allFieldsConstant : List (String × Value) → Bool
  | [] => true
  | (_, value) :: fields => isConstant value && allFieldsConstant fields
end

end Value

namespace Filter

def isAlways : Filter → Bool
  | always => true
  | _ => false

def isNever : Filter → Bool
  | never => true
  | _ => false

def range : Filter → Option Range
  | conj range _ | disj range _ | neg range _ | atom range _ _ _ _ | compute range _ _ _ _
  | dontCare range _ => range
  | external call _ => call.range
  | always | never => none

end Filter

namespace Selector

/-- The class of the devices that are selected. -/
def kind? : Selector → Option String
  | builtin => none
  | device d => some d.kind

end Selector

namespace Device

/-- The devices of a class without any choice among them. -/
def ofKind (kind : String) : Device :=
  ⟨kind, none, [], false, none⟩

/-- Nothing but the class is given. -/
def isPlain (d : Device) : Bool :=
  d.id.isNone && d.attributes.isEmpty && !d.all

end Device

namespace Invocation

def param? (i : Invocation) (name : String) : Option Param :=
  i.params.find? fun p => p.name == name

def qualifiedName (i : Invocation) : String :=
  match i.selector with
  | .device d => "@" ++ d.kind ++ "." ++ i.channel
  | .builtin => i.channel

end Invocation

end SkillLang

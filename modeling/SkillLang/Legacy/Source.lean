import SkillLang.Legacy.Conversion
import SkillLang.Source.Program

/-!
# The source of legacy programs

Everything but calls and timers is put in parentheses when it is part of something
else, so that the source shows the tree.
-/

namespace SkillLang.Legacy

open TokenStream

def callSource (name : String) (params : List Param) : TokenStream :=
  ofParts [name, "(", join (Param.sources params) ",", ")"]

/-- A part of something else, in parentheses unless it is primary. -/
def wrapped (isPrimary : Bool) (source : TokenStream) : TokenStream :=
  if isPrimary then source else ofParts ["(", source, ")"]

def passedSource (params : List Param) : TokenStream :=
  if params.isEmpty then empty
  else ofParts ["on", ofParts ["(", join (Param.sources params) ",", ")"]]

def assignment (name : String) (value : TokenStream) : TokenStream :=
  ofParts [name, "=", value]

/-- An optional parameter, as a list of at most one source. -/
def optionalSource (name : String) (value : Option Value) : List TokenStream :=
  (value.map fun v => assignment name v.source).toList

def valuesSource (values : List Value) : TokenStream :=
  bracketed (values.map Value.source)

def timerSource (name : String) (params : List TokenStream) : TokenStream :=
  ofParts [name, "(", join params ",", ")"]

def computeSource (value : Value) (label : Option String) (inner : TokenStream) : TokenStream :=
  ofParts ["compute", value.source,
    match label with
    | some label => ofParts ["as", label]
    | none => empty,
    "of", inner]

namespace Table

def source : Table → TokenStream
  | invocation i => i.source
  | call name params => callSource name params
  | filter table test => ofParts [wrapped table.isPrimary table.source, ",", test.source]
  | projection table args =>
    ofParts [namesSource args, "of", wrapped table.isPrimary table.source]
  | compute table value label =>
    computeSource value label (wrapped table.isPrimary table.source)
  | named table name => ofParts [wrapped table.isPrimary table.source, "as", name]
  | aggregation table field op =>
    if field == "*" then
      ofParts ["aggregate", op, "of", wrapped table.isPrimary table.source]
    else ofParts ["aggregate", op, field, "of", wrapped table.isPrimary table.source]
  | sort table field direction =>
    ofParts ["sort", field, direction.name, "of", wrapped table.isPrimary table.source]
  | index table indices =>
    ofParts [wrapped table.isPrimary table.source, valuesSource indices]
  | slice table base limit =>
    ofParts [wrapped table.isPrimary table.source, "[", base.source, ":", limit.source, "]"]
  | join lhs rhs params =>
    ofParts [wrapped lhs.isPrimary lhs.source, "join", wrapped rhs.isPrimary rhs.source,
      passedSource params]

end Table

namespace Stream

def source : Stream → TokenStream
  | timer base interval frequency =>
    timerSource "timer" ([assignment "base" base.source, assignment "interval" interval.source] ++
      optionalSource "frequency" frequency)
  | atTimer times expiration =>
    timerSource "attimer"
      (assignment "time" (valuesSource times) :: optionalSource "expiration_date" expiration)
  | onTimer dates => timerSource "ontimer" [assignment "date" (valuesSource dates)]
  | call name params => callSource name params
  | monitor table args =>
    let head := ofParts ["monitor", ofParts ["(", table.source, ")"]]
    match args with
    | some args => ofParts [head, "on", "new", namesSource args]
    | none => head
  | edgeNew stream => ofParts ["edge", wrapped stream.isPrimary stream.source, "on", "new"]
  | edgeFilter stream test =>
    ofParts ["edge", wrapped stream.isPrimary stream.source, "on", test.source]
  | filter stream test => ofParts [wrapped stream.isPrimary stream.source, ",", test.source]
  | projection stream args =>
    ofParts [namesSource args, "of", wrapped stream.isPrimary stream.source]
  | compute stream value label =>
    computeSource value label (wrapped stream.isPrimary stream.source)
  | named stream name => ofParts [wrapped stream.isPrimary stream.source, "as", name]
  | join stream table params =>
    ofParts [wrapped stream.isPrimary stream.source, "join",
      wrapped table.isPrimary table.source, passedSource params]

end Stream

def Action.source : Action → TokenStream
  | notify word => word
  | invocation i => i.source
  | call name params => callSource name params

def Statement.source (s : Statement) : TokenStream :=
  let actions := TokenStream.join (s.actions.map Action.source) ","
  match s.trigger with
  | .now => ofParts ["now", "=>", actions, ";"]
  | .table t => ofParts ["now", "=>", t.source, "=>", actions, ";"]
  | .stream s => ofParts [s.source, "=>", actions, ";"]

def Program.source (p : Program) : TokenStream :=
  TokenStream.join (p.classes.map ClassDef.source ++ p.statements.map Statement.source)
    (layout .newline)

end SkillLang.Legacy

namespace SkillLang

/-- The source of an input in the legacy language.  Rules and commands are the same there, and
dialogues cannot be written. -/
def Input.legacySource : Input → Except Legacy.ConversionError TokenStream
  | .program p => return (← p.toLegacy).source
  | .permission r => .ok r.source
  | .control c => .ok c.source
  | .dialogue s => .error (.unserializable .dialogue s.range)

end SkillLang

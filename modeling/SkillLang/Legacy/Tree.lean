import SkillLang.Syntax.Program

/-!
# The legacy language

In the legacy language tables, streams and actions are three separate families.  A
table returns results, a stream returns results again and again, and joins pass
outputs on to inputs by name.
-/

namespace SkillLang.Legacy

inductive Table where
  | invocation (i : Invocation)
  | call (name : String) (params : List Param)
  | filter (table : Table) (filter : Filter)
  | projection (table : Table) (args : List String)
  | compute (table : Table) (value : Value) (label : Option String)
  | named (table : Table) (name : String)
  | aggregation (table : Table) (field op : String)
  | sort (table : Table) (field : String) (direction : SortDirection)
  | index (table : Table) (indices : List Value)
  | slice (table : Table) (base limit : Value)
  /-- For every result on the left, the results on the right with these parameters passed on. -/
  | join (lhs rhs : Table) (params : List Param)

inductive Stream where
  | timer (base interval : Value) (frequency : Option Value)
  | atTimer (times : List Value) (expiration : Option Value)
  | onTimer (dates : List Value)
  | call (name : String) (params : List Param)
  | monitor (table : Table) (args : Option (List String))
  /-- The results that differ from the one before. -/
  | edgeNew (stream : Stream)
  /-- The results at which the filter begins to hold. -/
  | edgeFilter (stream : Stream) (filter : Filter)
  | filter (stream : Stream) (filter : Filter)
  | projection (stream : Stream) (args : List String)
  | compute (stream : Stream) (value : Value) (label : Option String)
  | named (stream : Stream) (name : String)
  | join (stream : Stream) (table : Table) (params : List Param)

inductive Action where
  /-- Shows the results to the user or returns them to the caller. -/
  | notify (word : String)
  | invocation (i : Invocation)
  | call (name : String) (params : List Param)

/-- What a single expression becomes. -/
inductive Node where
  | table (t : Table)
  | stream (s : Stream)
  | action (a : Action)

/-- Where the results come from that the actions of a statement are run with. -/
inductive Trigger where
  | now
  | table (t : Table)
  | stream (s : Stream)

structure Statement where
  trigger : Trigger
  actions : List Action

structure Program where
  classes : List ClassDef
  statements : List Statement

namespace Table

/-- The table is a call and never needs parentheses. -/
def isPrimary : Table → Bool
  | invocation _ | call _ _ => true
  | _ => false

end Table

namespace Stream

def isPrimary : Stream → Bool
  | timer _ _ _ | atTimer _ _ | onTimer _ | call _ _ => true
  | _ => false

end Stream

end SkillLang.Legacy

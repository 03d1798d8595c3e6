import SkillLang.Proofs.Legacy.Leaves

/-!
# Reading legacy sources

The trees of a table or a stream fall apart around their parts, which are calls or stand in
parentheses.  The words in front tell what is made of the part behind them, and otherwise the
first comma, `as` or `join` outside of brackets does.  What tables and streams have in common is
read for both alike.
-/

namespace SkillLang

open TokenTree

/-! ## Canonical trees -/

def Param.readBack (p : Param) : Param :=
  ⟨p.name, p.value.readBack, none⟩

def Selector.readBack : Selector → Selector
  | .builtin => .builtin
  | .device d => .device { d with attributes := d.attributes.map Param.readBack, range := none }

def Invocation.readBack (i : Invocation) : Invocation :=
  ⟨i.selector.readBack, i.channel, i.params.map Param.readBack, none, none⟩

namespace Legacy

namespace Table

/-- The table without ranges and signatures, and with what is read from its values and filters. -/
def canonical : Table → Table
  | invocation i => invocation i.readBack
  | call name params => call name (params.map Param.readBack)
  | filter table test => filter table.canonical test.readBack
  | projection table args => projection table.canonical args
  | compute table value label => compute table.canonical value.readBack label
  | named table name => named table.canonical name
  | aggregation table field op => aggregation table.canonical field op
  | sort table field direction => sort table.canonical field direction
  | index table indices => index table.canonical (indices.map Value.readBack)
  | slice table base limit => slice table.canonical base.readBack limit.readBack
  | join lhs rhs params => join lhs.canonical rhs.canonical (params.map Param.readBack)

end Table

namespace Stream

/-- The stream without ranges and signatures, and with what is read from its values and filters. -/
def canonical : Stream → Stream
  | timer base interval frequency =>
    timer base.readBack interval.readBack (frequency.map Value.readBack)
  | atTimer times expiration =>
    atTimer (times.map Value.readBack) (expiration.map Value.readBack)
  | onTimer dates => onTimer (dates.map Value.readBack)
  | call name params => call name (params.map Param.readBack)
  | monitor table args => monitor table.canonical args
  | edgeNew stream => edgeNew stream.canonical
  | edgeFilter stream test => edgeFilter stream.canonical test.readBack
  | filter stream test => filter stream.canonical test.readBack
  | projection stream args => projection stream.canonical args
  | compute stream value label => compute stream.canonical value.readBack label
  | named stream name => named stream.canonical name
  | join stream table params =>
    join stream.canonical table.canonical (params.map Param.readBack)

end Stream

/-! ## Leaves and calls -/

/-- The value of one token. -/
def readLeaf : List TokenTree → Option Value
  | [leaf (.constant c)] => some c.value
  | [word w] => some (readWord w)
  | _ => none

/-- The filter of one token. -/
def readTest : List TokenTree → Option Filter
  | [word w] => some (if w = "true" then .always else .never)
  | _ => none

/-- The readers of calls of which all inputs are leaves. -/
def leafReaders : Readers :=
  ⟨readLeaf, readTest⟩

def readFreeWord : List TokenTree → Option String
  | [word w] => some w
  | _ => none

def readNames (ts : List TokenTree) : Option (List String) :=
  (items (isMark ",") ts).mapM readFreeWord

def readLeaves (ts : List TokenTree) : Option (List Value) :=
  (items (isMark ",") ts).mapM readLeaf

/-! ## Parts -/

section Parts

variable {α : Type}

/-- Something in parentheses, or a call. -/
def readPart (whole called : List TokenTree → Option α) : List TokenTree → Option α
  | [group .round inner] => whole inner
  | ts => called ts

/-- What a join has on its right side, and the parameters that it passes on. -/
def readJoined (part : List TokenTree → Option Table) (ts : List TokenTree) :
    Option (Table × List Param) :=
  match cutFirst? ["on"] ts with
  | some (rhs, _, passed) =>
    match passed with
    | [group .round inputs] => do return (← part rhs, ← leafReaders.params inputs)
    | _ => none
  | none => (part ts).map fun rhs => (rhs, [])

end Parts

/-! ## What tables and streams have in common -/

/-- The forms of which there is one for tables and one for streams. -/
structure Forms (α : Type) where
  filter : α → Filter → α
  projection : α → List String → α
  compute : α → Value → Option String → α
  named : α → String → α
  join : α → Table → List Param → α

namespace Forms

variable {α : Type} (forms : Forms α) (part : List TokenTree → Option α)
  (tablePart : List TokenTree → Option Table)

/-- A computed value that is given a name. -/
def readLabelled (value : TokenTree) : List TokenTree → Option α
  | word label :: _ :: body => do
    return forms.compute (← part body) (← readLeaf [value]) (some label)
  | _ => none

/-- What follows `compute`. -/
def readComputed : List TokenTree → Option α
  | value :: word w :: rest =>
    if w = "as" then forms.readLabelled part value rest
    else do return forms.compute (← part rest) (← readLeaf [value]) none
  | _ => none

def readProjection (names body : List TokenTree) : Option α := do
  return forms.projection (← part body) (← readNames names)

/-- What a mark and the trees after it make of the part before. -/
def readAfter (body : α) (mark : String) (after : List TokenTree) : Option α :=
  if mark = "," then (readTest after).map (forms.filter body)
  else if mark = "as" then (readFreeWord after).map (forms.named body)
  else (readJoined tablePart after).map fun (rhs, params) => forms.join body rhs params

/-- A part with something behind it, or with no mark behind it. -/
def readBehind (unmarked : List TokenTree → Option α) (ts : List TokenTree) : Option α :=
  match cutFirst? [",", "as", "join"] ts with
  | some (body, mark, after) =>
    (part body).bind fun body => forms.readAfter tablePart body mark after
  | none => unmarked ts

end Forms

/-! ## Tables -/

def Table.forms : Forms Table :=
  ⟨.filter, .projection, .compute, .named, .join⟩

section Tables

variable (part : List TokenTree → Option Table)

def readCalledTable : List TokenTree → Option Table
  | [word w, group .round inputs] =>
    if (afterPrefix? "@" w).isSome then
      (leafReaders.invocation [word w, group .round inputs]).map .invocation
    else (leafReaders.params inputs).map (.call w)
  | ts => (leafReaders.invocation ts).map .invocation

/-- An aggregated field, behind which the `of` stands. -/
def readAggregated (op field : String) : List TokenTree → Option Table
  | _ :: body => (part body).map fun table => .aggregation table field op
  | [] => none

/-- What follows `aggregate`. -/
def readAggregation : List TokenTree → Option Table
  | word op :: word w :: rest =>
    if w = "of" then (part rest).map fun table => .aggregation table "*" op
    else readAggregated part op w rest
  | _ => none

/-- What follows `sort`. -/
def readSorted : List TokenTree → Option Table
  | word field :: word direction :: _ :: body =>
    (part body).map fun table =>
      .sort table field (if direction = "asc" then .asc else .desc)
  | _ => none

/-- The place in a table that stands in brackets. -/
def readPlace (table : Table) (ts : List TokenTree) : Option Table :=
  match cutFirst? [":"] ts with
  | some (base, _, limit) => do return .slice table (← readLeaf base) (← readLeaf limit)
  | none => (readLeaves ts).map (.index table)

def readUnmarkedTable (ts : List TokenTree) : Option Table :=
  match backBrackets? ts with
  | some (body, inner) => (part body).bind fun table => readPlace table inner
  | none => readCalledTable ts

def readTableForm : List TokenTree → Option Table
  | group .square names :: _ :: body => Table.forms.readProjection part names body
  | word head :: rest =>
    if head = "compute" then Table.forms.readComputed part rest
    else if head = "aggregate" then readAggregation part rest
    else if head = "sort" then readSorted part rest
    else Table.forms.readBehind part part (readUnmarkedTable part) (word head :: rest)
  | ts => Table.forms.readBehind part part (readUnmarkedTable part) ts

end Tables

/-- The table of trees with few enough levels. -/
def readTable : Nat → List TokenTree → Option Table
  | 0, _ => none
  | n + 1, ts => readTableForm (readPart (readTable n) readCalledTable) ts

abbrev readTablePart (n : Nat) : List TokenTree → Option Table :=
  readPart (readTable n) readCalledTable

/-! ## Streams -/

def Stream.forms : Forms Stream :=
  ⟨.filter, .projection, .compute, .named, .join⟩

section Streams

variable (part : List TokenTree → Option Stream) (table tablePart : List TokenTree → Option Table)

/-- The values that are given for a name. -/
def readTimes : List TokenTree → Option (List Value)
  | [_, _, group .square values] => readLeaves values
  | _ => none

def readTimer (inner : List TokenTree) : Option Stream :=
  match leafReaders.params inner with
  | some [base, interval] => some (.timer base.value interval.value none)
  | some [base, interval, frequency] =>
    some (.timer base.value interval.value (some frequency.value))
  | _ => none

def readAtTimer (inner : List TokenTree) : Option Stream :=
  match items (isMark ",") inner with
  | [times] => (readTimes times).map fun times => .atTimer times none
  | [times, expiration] => do
    return .atTimer (← readTimes times) (some (← leafReaders.param expiration).value)
  | _ => none

def readCalledStream : List TokenTree → Option Stream
  | [word w, group .round inner] =>
    if w = "timer" then readTimer inner
    else if w = "attimer" then readAtTimer inner
    else if w = "ontimer" then (readTimes inner).map .onTimer
    else (leafReaders.params inner).map (.call w)
  | _ => none

/-- What follows `monitor`. -/
def readMonitor : List TokenTree → Option Stream
  | [group .round inner] => (table inner).map fun table => .monitor table none
  | [group .round inner, _, _, group .square names] => do
    return .monitor (← table inner) (some (← readNames names))
  | _ => none

/-- What follows `edge`. -/
def readEdge (ts : List TokenTree) : Option Stream :=
  match cutFirst? ["on"] ts with
  | some (body, _, [word w]) =>
    (part body).bind fun stream =>
      if w = "new" then some (.edgeNew stream) else (readTest [word w]).map (.edgeFilter stream)
  | _ => none

def readStreamForm : List TokenTree → Option Stream
  | group .square names :: _ :: body => Stream.forms.readProjection part names body
  | word head :: rest =>
    if head = "compute" then Stream.forms.readComputed part rest
    else if head = "monitor" then readMonitor table rest
    else if head = "edge" then readEdge part rest
    else Stream.forms.readBehind part tablePart readCalledStream (word head :: rest)
  | ts => Stream.forms.readBehind part tablePart readCalledStream ts

end Streams

/-- The stream of trees with few enough levels. -/
def readStream : Nat → List TokenTree → Option Stream
  | 0, _ => none
  | n + 1, ts =>
    readStreamForm (readPart (readStream n) readCalledStream) (readTable n) (readTablePart n) ts

abbrev readStreamPart (n : Nat) : List TokenTree → Option Stream :=
  readPart (readStream n) readCalledStream

end Legacy

end SkillLang

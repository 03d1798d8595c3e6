import SkillLang.Legacy.Tree
import SkillLang.Wire.Program

/-!
# The legacy language in the wire form

Tables, streams and actions name their forms in the member `l`.  They are only read:
programs of the legacy language are answered as texts.
-/

namespace SkillLang.Legacy

open Wire

def Table.ofWire (j : Json) : FromWire Table := do
  match ← textAt j "l" with
  | "invocation" => return .invocation (← field Invocation.ofWire j "invocation")
  | "var" => return .call (← textAt j "name") (← fields Param.ofWire j "params")
  | "join" =>
    let ⟨lhs, _⟩ ← j.part "lhs"
    let ⟨rhs, _⟩ ← j.part "rhs"
    return .join (← ofWire lhs) (← ofWire rhs) (← fields Param.ofWire j "params")
  | tag =>
    let ⟨part, _⟩ ← j.part "table"
    let table ← ofWire part
    match tag with
    | "filter" => return .filter table (← field Filter.ofWire j "filter")
    | "projection" => return .projection table (← textsAt j "args")
    | "compute" =>
      return .compute table (← field Value.ofWire j "value") (← field? asText j "alias")
    | "alias" => return .named table (← textAt j "name")
    | "aggregation" => return .aggregation table (← textAt j "field") (← textAt j "operator")
    | "sort" =>
      return .sort table (← textAt j "field") (← field SortDirection.ofWire j "direction")
    | "index" => return .index table (← fields Value.ofWire j "indices")
    | "slice" =>
      return .slice table (← field Value.ofWire j "base") (← field Value.ofWire j "limit")
    | _ => .error .malformed
termination_by sizeOf j

def Stream.ofWire (j : Json) : FromWire Stream := do
  match ← textAt j "l" with
  | "timer" =>
    return .timer (← field Value.ofWire j "base") (← field Value.ofWire j "interval")
      (← field? Value.ofWire j "frequency")
  | "attimer" =>
    return .atTimer (← fields Value.ofWire j "time") (← field? Value.ofWire j "expiration_date")
  | "ontimer" => return .onTimer (← fields Value.ofWire j "date")
  | "var" => return .call (← textAt j "name") (← fields Param.ofWire j "params")
  | "monitor" =>
    return .monitor (← field Table.ofWire j "table") (← field? (asItems asText) j "args")
  | tag =>
    let ⟨part, _⟩ ← j.part "stream"
    let stream ← ofWire part
    match tag with
    | "edge_new" => return .edgeNew stream
    | "edge_filter" => return .edgeFilter stream (← field Filter.ofWire j "filter")
    | "filter" => return .filter stream (← field Filter.ofWire j "filter")
    | "projection" => return .projection stream (← textsAt j "args")
    | "compute" =>
      return .compute stream (← field Value.ofWire j "value") (← field? asText j "alias")
    | "alias" => return .named stream (← textAt j "name")
    | "join" =>
      return .join stream (← field Table.ofWire j "table") (← fields Param.ofWire j "params")
    | _ => .error .malformed
termination_by sizeOf j

def Action.ofWire (j : Json) : FromWire Action := do
  match ← textAt j "l" with
  | "notify" => return .notify (← textAt j "name")
  | "invocation" => return .invocation (← field Invocation.ofWire j "invocation")
  | "var" => return .call (← textAt j "name") (← fields Param.ofWire j "params")
  | _ => .error .malformed

/-- A statement with neither a stream nor a table runs its actions now. -/
def Statement.ofWire (j : Json) : FromWire Statement := do
  let actions ← fields Action.ofWire j "actions"
  match ← field? Stream.ofWire j "stream", ← field? Table.ofWire j "table" with
  | some s, _ => return ⟨.stream s, actions⟩
  | none, some t => return ⟨.table t, actions⟩
  | none, none => return ⟨.now, actions⟩

def Program.ofWire (j : Json) : FromWire Program := do
  return ⟨← fields ClassDef.ofWire j "classes", ← fields Statement.ofWire j "statements"⟩

end SkillLang.Legacy

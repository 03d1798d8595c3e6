import SkillLang.Proofs.Typing.AcceptedNodes
import SkillLang.Proofs.Typing.Idempotence

/-!
# Function types in checked inputs

Streams, queries and actions each have their places.  A clause is applied to what it can
work on, a chain starts with its stream and ends with its action, a join asks a query for
every result of its left side, and filters and permissions only speak about functions of
the right kind.  All of this can be read off the signatures that a check writes.
-/

namespace SkillLang

/-! ## The rules -/

/-- What a clause asks of the signature `base` that it is applied to, and what it makes of it. -/
def Clause.Suits (base result : Signature) : Clause → Prop
  | .filter _ | .projection _ _ _ | .selection _ | .question _ => base.type ≠ .action
  | .monitor _ => base.type = .query ∧ base.isMonitorable = true ∧ result.type = .stream
  | .aggregation _ _ _ | .sort _ _ | .index _ | .slice _ _ =>
    base.type ≠ .action ∧ base.isList = true
  | .named _ => True

/-- The types of the elements of a chain: nothing but the first is a stream, and nothing but the
last is an action. -/
structure FunctionType.IsChain (types : List FunctionType) : Prop where
  nonempty : 1 ≤ types.length
  bounded : types.length ≤ Limits.maxChainLength
  stream_first : .stream ∉ types.tail
  action_last : .action ∉ types.dropLast

/-- The type of a chain as a whole. -/
def FunctionType.ofChain (types : List FunctionType) : Option FunctionType :=
  if types.getLast? = some .action then some .action else types.head?

def Expression.IsWellTyped : Expression → Prop
  | .call _ _ _ | .invocation _ _ => True
  | .clause info inner applied =>
    ∃ base result, inner.schema = some base ∧ info.schema = some result ∧
      applied.Suits base result
  | .chain info elements =>
    ∃ types : List FunctionType, elements.map functionType = types.map some ∧
      FunctionType.IsChain types ∧ info.schema.map Signature.type = FunctionType.ofChain types
  | .join _ lhs rhs =>
    ∃ left right, lhs.schema = some left ∧ rhs.schema = some right ∧
      left.type ≠ .action ∧ right.type = .query

def Filter.IsWellTyped : Filter → Prop
  | .external call _ => ∃ schema, call.schema = some schema ∧ schema.type ≠ .action
  | _ => True

/-- A function that is named on a side of a permission rule belongs there. -/
def PermissionFunction.IsWellTyped (isAction : Bool) : PermissionFunction → Prop
  | .specified f => ∃ schema, f.schema = some schema ∧ (schema.type = .action ↔ isAction = true)
  | .builtin | .classStar _ | .star => True

def Node.IsWellTyped : Node → Prop
  | .expression e => e.IsWellTyped
  | .filter f => f.IsWellTyped
  | .permissionRule r => r.query.IsWellTyped false ∧ r.action.IsWellTyped true
  | _ => True

/-! ## Signatures -/

namespace Signature

theorem rejectAction_eq_ok
    {s : Signature} {operation : Operation} {range : Option Range}
    (h : s.rejectAction operation range = .ok ()) :
    s.type ≠ .action := by
  intro htype
  rw [rejectAction, if_pos htype] at h
  cases h

theorem requireQuery_eq_ok
    {s : Signature} {operation : Operation} {range : Option Range}
    (h : s.requireQuery operation range = .ok ()) :
    s.type = .query := by
  by_contra htype
  rw [requireQuery, if_neg htype] at h
  cases h

theorem requireList_eq_ok
    {s : Signature} {operation : Operation} {range : Option Range}
    (h : s.requireList operation range = .ok ()) :
    s.type ≠ .action ∧ s.isList = true := by
  rw [requireList] at h
  cases hreject : s.rejectAction operation range with
  | error e =>
      rw [hreject] at h
      cases h
  | ok _ =>
      refine ⟨rejectAction_eq_ok hreject, ?_⟩
      by_contra hlist
      simp [hreject, hlist, bind, Except.bind] at h

theorem eq_of_monitored
    {s result : Signature} {args : List String} {range : Option Range}
    (h : s.monitored args range = .ok result) :
    s.type = .query ∧ s.isMonitorable = true ∧ result = s.withType .stream := by
  rw [monitored] at h
  cases hquery : s.requireQuery .monitor range with
  | error e =>
      rw [hquery] at h
      cases h
  | ok _ =>
      cases hmonitorable : s.isMonitorable with
      | false =>
          rw [hquery, hmonitorable] at h
          cases h
      | true =>
          cases hargs : args.forM fun name => discard (s.outputType name range) with
          | error e =>
              simp [hquery, hmonitorable, hargs, bind, Except.bind] at h
          | ok _ =>
              simp only [hquery, hmonitorable, hargs, bind, Except.bind, pure, Except.pure,
                Bool.not_true, Bool.false_eq_true, if_false, Except.ok.injEq] at h
              exact ⟨requireQuery_eq_ok hquery, rfl, h.symm⟩

theorem monitored_eq_ok
    {s result : Signature} {args : List String} {range : Option Range}
    (h : s.monitored args range = .ok result) :
    s.type = .query ∧ s.isMonitorable = true ∧ result.type = .stream := by
  obtain ⟨hquery, hmonitorable, rfl⟩ := eq_of_monitored h
  exact ⟨hquery, hmonitorable, rfl⟩

/-- The signature of a chain has the type that follows from the types of its elements, if these
are in their places. -/
theorem type_of_chained
    {schemas : List Signature} {schema : Signature} {range : Option Range}
    (h : chained schemas range = .ok schema)
    (hstream : .stream ∉ (schemas.map type).tail)
    (haction : .action ∉ (schemas.map type).dropLast) :
    some schema.type = FunctionType.ofChain (schemas.map type) := by
  rw [chained] at h
  rw [FunctionType.ofChain, List.getLast?_map]
  match schemas with
  | [] => cases h
  | [only] =>
      simp only [List.getLast?_singleton, List.head?_cons, Option.map_some,
        Option.some.injEq] at h
      -- A single element cannot be a stream and a query at once.
      rw [if_neg fun both => nomatch both.1.symm.trans both.2] at h
      cases h
      simp
  | first :: second :: rest =>
      cases hlast : (first :: second :: rest).getLast? with
      | none =>
          rw [hlast] at h
          cases h
      | some last =>
          have hmem : last ∈ second :: rest :=
            List.mem_of_getLast? (List.getLast?_cons_cons ▸ hlast)
          have hlaststream : last.type ≠ .stream :=
            fun htype => hstream (htype ▸ List.mem_map_of_mem hmem)
          have hfirstaction : first.type ≠ .action := by
            intro htype
            apply haction
            simp [htype]
          simp only [hlast, List.head?_cons, Option.map_some, Option.some.injEq,
            List.map_cons] at h ⊢
          split at h
          next both =>
              cases h
              simp [withType, both]
          next hnot =>
              obtain rfl : last = schema := Except.ok.inj h
              cases hl : last.type with
              | stream => exact absurd hl hlaststream
              | action => simp
              | query =>
                  cases hf : first.type with
                  | stream => exact absurd ⟨hf, hl⟩ hnot
                  | action => exact absurd hf hfirstaction
                  | query => simp

end Signature

namespace Checker

variable {σ : Type} {c : Checker σ}

theorem AcceptsExpression.schema_eq
    {scope : Scope} {depth : Nat} {expression expression' : Expression} {schema : Signature}
    (h : c.AcceptsExpression scope depth expression expression' schema) :
    expression'.schema = some schema := by
  cases h <;> rfl

/-! ## Chains -/

theorem AcceptsChain.functionTypes_eq
    {scope : Scope} {depth : Nat} {isFirst : Bool}
    {elements elements' : List Expression} {schemas : List Signature}
    (h : c.AcceptsChain scope depth isFirst elements elements' schemas) :
    elements'.map Expression.functionType = (schemas.map Signature.type).map some := by
  induction elements generalizing scope isFirst elements' schemas with
  | nil =>
      cases h
      rfl
  | cons element elements ih =>
      cases h with
      | cons helement _ hrest =>
          simp only [List.map_cons, ih hrest, Expression.functionType, helement.schema_eq,
            Option.map_some]

/-- Behind the first element there is no stream. -/
theorem AcceptsChain.not_stream
    {scope : Scope} {depth : Nat} {elements elements' : List Expression}
    {schemas : List Signature}
    (h : c.AcceptsChain scope depth false elements elements' schemas) :
    .stream ∉ schemas.map Signature.type := by
  induction elements generalizing scope elements' schemas with
  | nil =>
      cases h
      exact List.not_mem_nil
  | cons element elements ih =>
      cases h with
      | @cons _ _ _ _ schema _ _ _ _ _ hplace hrest =>
          rw [List.map_cons, List.mem_cons, not_or]
          refine ⟨?_, ih hrest⟩
          intro htype
          rw [← htype] at hplace
          cases hplace

theorem AcceptsChain.stream_first
    {scope : Scope} {depth : Nat} {isFirst : Bool}
    {elements elements' : List Expression} {schemas : List Signature}
    (h : c.AcceptsChain scope depth isFirst elements elements' schemas) :
    .stream ∉ (schemas.map Signature.type).tail := by
  cases h with
  | nil => exact List.not_mem_nil
  | cons _ _ hrest => exact hrest.not_stream

/-- An action stands only where nothing follows. -/
theorem AcceptsChain.action_last
    {scope : Scope} {depth : Nat} {isFirst : Bool}
    {elements elements' : List Expression} {schemas : List Signature}
    (h : c.AcceptsChain scope depth isFirst elements elements' schemas) :
    .action ∉ (schemas.map Signature.type).dropLast := by
  induction elements generalizing scope isFirst elements' schemas with
  | nil =>
      cases h
      exact List.not_mem_nil
  | cons element elements ih =>
      cases h with
      | @cons _ _ _ _ schema _ _ _ schemas _ hplace hrest =>
          cases elements with
          | nil =>
              cases hrest
              exact List.not_mem_nil
          | cons next elements =>
              have hne : schemas.map Signature.type ≠ [] := by
                cases hrest
                exact List.cons_ne_nil _ _
              rw [List.map_cons, List.dropLast_cons_of_ne_nil hne, List.mem_cons, not_or]
              refine ⟨?_, ih hrest⟩
              intro htype
              rw [← htype] at hplace
              cases hplace

theorem AcceptsChain.isChain
    {scope : Scope} {depth : Nat} {elements elements' : List Expression}
    {schemas : List Signature} {schema : Signature} {range : Option Range}
    (h : c.AcceptsChain scope depth true elements elements' schemas)
    (hlength : elements.length ≤ Limits.maxChainLength)
    (hschema : Signature.chained schemas range = .ok schema) :
    FunctionType.IsChain (schemas.map Signature.type) where
  nonempty := by
    cases schemas with
    | nil => cases hschema
    | cons schema schemas => simp
  bounded := by
    rw [List.length_map, h.length_eq.2]
    exact hlength
  stream_first := h.stream_first
  action_last := h.action_last

/-! ## Nodes -/

theorem AcceptsClause.suits
    {base schema : Signature} {scope : Scope} {range : Option Range} {depth : Nat}
    {clause clause' : Clause}
    (h : c.AcceptsClause base scope range depth clause clause' schema) :
    clause'.Suits base schema := by
  cases h with
  | filter hkind _ | projection hkind _ _ | selection hkind _ | question hkind _ =>
      exact Signature.rejectAction_eq_ok hkind
  | monitor hresult => exact Signature.monitored_eq_ok hresult
  | named => trivial
  | aggregation hlist _ _ _ | sort hlist _ | index hlist _ | slice hlist _ _ =>
      exact Signature.requireList_eq_ok hlist

theorem AcceptsExpression.isWellTyped
    {scope : Scope} {depth : Nat} {expression expression' : Expression} {schema : Signature}
    (h : c.AcceptsExpression scope depth expression expression' schema) :
    expression'.IsWellTyped := by
  cases h with
  | call _ _ _ | invocation _ _ _ => trivial
  | clause _ hinner hclause => exact ⟨_, _, hinner.schema_eq, rfl, hclause.suits⟩
  | chain _ hlength helements hschema =>
      have hchain := helements.isChain hlength hschema
      refine ⟨_, helements.functionTypes_eq, hchain, ?_⟩
      exact Signature.type_of_chained hschema hchain.stream_first hchain.action_last
  | join _ hlhs hleft hrhs hright =>
      exact ⟨_, _, hlhs.schema_eq, hrhs.schema_eq, Signature.rejectAction_eq_ok hleft,
        Signature.requireQuery_eq_ok hright⟩

theorem AcceptsFilter.isWellTyped
    {schema : Signature} {scope : Scope} {depth : Nat} {filter filter' : Filter}
    (h : c.AcceptsFilter schema scope depth filter filter') :
    filter'.IsWellTyped := by
  cases h with
  | external _ _ hkind _ _ _ => exact ⟨_, rfl, Signature.rejectAction_eq_ok hkind⟩
  | always _ | never _ | conj _ _ | disj _ _ | neg _ _ | dontCare _ _ | atom _ _ _ _
  | compute _ _ _ _ => trivial

theorem AcceptsPermission.isWellTyped
    {scope : Scope} {isAction : Bool} {function function' : PermissionFunction}
    {schema : Option Signature}
    (h : c.AcceptsPermission scope isAction function function' schema) :
    function'.IsWellTyped isAction := by
  cases h with
  | specified _ hside _ =>
      refine ⟨_, rfl, ?_⟩
      rw [← hside, beq_iff_eq]
  | builtin | classStar | star => trivial

theorem Accepted.isWellTyped
    {label : Node} (h : c.Accepted label) :
    label.IsWellTyped := by
  cases h with
  | filter h => exact h.isWellTyped
  | expression h => exact h.isWellTyped
  | permissionRule h =>
      cases h with
      | permission _ hquery haction => exact ⟨hquery.isWellTyped, haction.isWellTyped⟩
  | value _ | invocation _ | declaration _ | permissionFunction _ => trivial
  | plain h =>
      cases label with
      | filter _ | expression _ | permissionRule _ => cases h
      | program _ | classDef _ | function _ | declaration _ | statement _
      | permissionFunction _ | control _ | dialogue _ | historyItem _ | builtinSelector
      | device _ | param _ | invocation _ | value _ => trivial

/-- In a checked input streams, queries and actions are in their places, whatever the source of
signatures answers. -/
theorem check_isWellTyped
    {input output : Input} {s : Session σ}
    (h : ((c.check input).runIn s).1 = .ok output) :
    ∀ label ∈ output.visited, label.IsWellTyped := by
  have haccepted : c.AcceptsInput input output := acceptsInput_of_check h
  intro label hlabel
  exact (haccepted.every_accepted label hlabel).isWellTyped

theorem digest_isWellTyped :
    ∃ output, ((Digest.checker.check Digest.daily).runIn Digest.session).1 = .ok output ∧
      ∀ label ∈ output.visited, label.IsWellTyped := by
  obtain ⟨output, h⟩ :
      ∃ output, ((Digest.checker.check Digest.daily).runIn Digest.session).1 = .ok output :=
    ⟨_, rfl⟩
  exact ⟨output, h, check_isWellTyped h⟩

end Checker

end SkillLang

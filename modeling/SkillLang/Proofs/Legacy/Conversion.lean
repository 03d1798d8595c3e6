import SkillLang.Legacy.Conversion
import SkillLang.Proofs.Signature.Arguments
import SkillLang.Proofs.Typing.FunctionTypes
import SkillLang.Proofs.Typing.Requirements

/-!
# Conversion of checked expressions

The conversion tells streams, queries and actions apart by what it has built so far, and a
check tells them apart by signatures.  Both agree: what a checked expression becomes has
the kind of its signature.  The conversion finds a checked expression malformed only if it
mixes the kinds in one of a few ways that a check lets pass.
-/

namespace SkillLang

namespace Legacy

variable {α β : Type}

/-- The kind of a node: tables are what queries become. -/
def Node.functionType : Node → FunctionType
  | .table _ => .query
  | .stream _ => .stream
  | .action _ => .action

/-! ## Results of conversions -/

/-- What comes out of a conversion has a property, or there is no equivalent.  Something sound
is never malformed. -/
def Meets (P : α → Prop) (sound : Prop) : Except ConversionError α → Prop
  | .ok a => P a
  | .error (.unserializable _ _) => True
  | .error (.malformed _ _) => ¬ sound

variable {P : α → Prop} {Q : β → Prop} {sound part : Prop}

theorem meets_error
    (h : ¬ sound) (e : ConversionError) :
    Meets P sound (.error e) := by
  cases e with
  | unserializable _ _ => trivial
  | malformed _ _ => exact h

theorem Meets.of_eq_ok
    {result : Except ConversionError α} (h : Meets P sound result) {a : α} (ha : result = .ok a) :
    P a := by
  rw [ha] at h
  exact h

theorem Meets.and_eq
    {result : Except ConversionError α} (h : Meets P sound result) :
    Meets (fun a => P a ∧ result = .ok a) sound result := by
  cases result with
  | ok a => exact ⟨h, rfl⟩
  | error e =>
      cases e with
      | unserializable _ _ => trivial
      | malformed _ _ => exact h

theorem Meets.mono
    {P' : α → Prop} {result : Except ConversionError α} (h : Meets P part result)
    (hP : ∀ a, P a → P' a) (hsound : sound → part) :
    Meets P' sound result := by
  cases result with
  | ok a => exact hP a h
  | error e =>
      cases e with
      | unserializable _ _ => trivial
      | malformed _ _ => exact fun hs => h (hsound hs)

theorem Meets.bind
    {result : Except ConversionError α} {f : α → Except ConversionError β}
    (h : Meets P part result) (hsound : sound → part) (hnext : ∀ a, P a → Meets Q sound (f a)) :
    Meets Q sound (result >>= f) := by
  cases result with
  | ok a => exact hnext a h
  | error e =>
      cases e with
      | unserializable _ _ => trivial
      | malformed _ _ => exact fun hs => h (hsound hs)

/-! ## Clauses -/

theorem Node.clause_meets
    {n : Node} (h : sound → n.functionType ≠ .action) (onTable : Table → Table)
    (onStream : Stream → Stream) (e : ConversionError) :
    Meets (fun m => m.functionType = n.functionType ∧ n.functionType ≠ .action) sound
      (n.clause onTable onStream e) := by
  cases n with
  | table t => exact ⟨rfl, nofun⟩
  | stream s => exact ⟨rfl, nofun⟩
  | action a => exact meets_error (fun hs => h hs rfl) e

theorem Node.table?_meets
    {n : Node} (h : sound → n.functionType = .query) (construct : String) :
    Meets (fun _ => n.functionType = .query) sound (n.table? construct) := by
  cases n with
  | table t => rfl
  | stream s => exact fun hs => nomatch h hs
  | action a => exact fun hs => nomatch h hs

theorem Node.table?_bind_meets
    (n : Node) (construct : String) (f : Table → Table) :
    Meets (fun m => m.functionType = n.functionType ∧ n.functionType = .query)
      (n.functionType = .query)
      (do return Node.table (f (← n.table? construct))) := by
  refine (Node.table?_meets id construct).bind id ?_
  intro t hquery
  exact ⟨hquery.symm, hquery⟩

theorem Node.compute_meets
    {n : Node} (h : n.functionType ≠ .action) (range : Option Range) (values : List Value)
    (labels : List (Option String)) :
    Meets (fun m => m.functionType = n.functionType) sound (n.compute range values labels) := by
  induction values generalizing n labels with
  | nil => rfl
  | cons value values ih =>
      rw [Node.compute]
      refine (Node.clause_meets (fun _ => h) _ _ _).bind id ?_
      rintro m ⟨hm, -⟩
      rw [← hm] at h ⊢
      exact ih h labels.tail

end Legacy

namespace Signature

@[simp] theorem type_addArguments
    (s : Signature) (extra : List Argument) :
    (s.addArguments extra).type = s.type := by
  induction extra generalizing s with
  | nil => rfl
  | cons a extra ih =>
      rw [addArguments, List.foldl_cons]
      exact ih (s.addArgument a)

theorem ne_nil_of_chained
    {schemas : List Signature} {schema : Signature} {range : Option Range}
    (h : chained schemas range = .ok schema) :
    schemas ≠ [] := by
  rintro rfl
  cases h

theorem exists_param_of_requireParams
    {s : Signature} {params : List Param} {range : Option Range}
    (h : s.requireParams params range = .ok ()) {a : Argument} (ha : a ∈ s.args)
    (hrequired : a.direction = .inReq) :
    ∃ p ∈ params, p.name = a.name := by
  have hinput : a ∈ s.inArgs := by
    refine List.mem_filter.mpr ⟨ha, ?_⟩
    rw [Argument.isInput, hrequired]
    rfl
  have hdemanded : a.IsDemanded params := by
    refine .inl ?_
    rw [Argument.isRequired, hrequired]
    rfl
  exact ((requireParams_eq_ok_iff s params range).mp h).1 a hinput hdemanded

end Signature

/-- A clause is applied to what the legacy language has the clause for. -/
def Clause.Separates (base : FunctionType) : Clause → Prop
  | .named _ => base ≠ .action
  | .aggregation _ _ _ | .sort (.var _ _) _ | .index _ | .slice _ _ => base = .query
  | .filter _ | .monitor _ | .projection _ _ _ | .selection _ | .question _ | .sort _ _ => True

mutual
/-- Streams, queries and actions are kept apart as in the legacy language: no device function is
a stream, no alias names an action, what is aggregated, sorted or cut is a query, and a chain
of several elements inside of another expression does not end with an action. -/
def Expression.Separates : Expression → Prop
  | .call _ _ _ | .join _ _ _ => True
  | .invocation info _ => info.schema.map Signature.type ≠ some .stream
  | .clause _ inner c =>
    inner.Separates ∧ ∀ base, inner.functionType = some base → c.Separates base
  | .chain info elements =>
    Expression.AllSeparate elements ∧
      (1 < elements.length → info.schema.map Signature.type ≠ some .action)

def Expression.AllSeparate : List Expression → Prop
  | [] => True
  | e :: es => e.Separates ∧ Expression.AllSeparate es
end

theorem Expression.classify_eq
    {e : Expression} {schema : Signature} (h : e.schema = some schema) :
    e.classify = schema.type := by
  cases e with
  | call info _ _ | invocation info _ | clause info _ _ | chain info _ | join info _ _ =>
      have hinfo : info.schema = some schema := h
      simp only [classify, hinfo, Option.map_some, Option.getD_some]

theorem FunctionType.eq_query
    {type : FunctionType} (hstream : type ≠ .stream) (haction : type ≠ .action) :
    type = .query := by
  cases type with
  | stream => exact absurd rfl hstream
  | query => rfl
  | action => exact absurd rfl haction

theorem FunctionType.ofChain_cons
    {type : FunctionType} {types : List FunctionType} (h : ∀ other ∈ types, other = .query) :
    ofChain (type :: types) = some type := by
  rw [ofChain]
  split
  next hlast =>
      cases types with
      | nil => exact hlast.symm
      | cons other types =>
          rw [List.getLast?_cons_cons] at hlast
          cases h _ (List.mem_of_getLast? hlast)
  next => rfl

theorem FunctionType.mem_of_ofChain
    {type : FunctionType} {types : List FunctionType} (h : ofChain types = some type) :
    type ∈ types := by
  rw [ofChain] at h
  split at h
  next hlast =>
      cases h
      exact List.mem_of_getLast? hlast
  next => exact List.mem_of_head? h

theorem FunctionType.mem_iff_getLast?
    {types : List FunctionType} (haction : .action ∉ types.dropLast) :
    .action ∈ types ↔ types.getLast? = some .action := by
  constructor
  · intro hmem
    rcases List.eq_nil_or_concat' types with rfl | ⟨init, last, rfl⟩
    · cases hmem
    rw [List.dropLast_concat] at haction
    rcases List.mem_append.mp hmem with hinit | hlast
    · exact absurd hinit haction
    · rw [List.getLast?_concat, List.mem_singleton.mp hlast]
  · exact List.mem_of_getLast?

/-- If nothing but the last element of a chain may be an action, the chain is one if and only if
that element is. -/
theorem FunctionType.ofChain_eq_action_iff
    {types : List FunctionType} (haction : .action ∉ types.dropLast) :
    ofChain types = some .action ↔ types.getLast? = some .action := by
  constructor
  · intro h
    exact (mem_iff_getLast? haction).mp (mem_of_ofChain h)
  · intro h
    rw [ofChain, if_pos h]

namespace Checker

open Legacy

variable {σ : Type} {c : Checker σ}

/-- A clause makes of a node what it makes of the signature. -/
theorem AcceptsClause.convertClause_meets
    {base schema : Signature} {scope : Scope} {range : Option Range} {depth : Nat}
    {clause clause' : Clause}
    (h : c.AcceptsClause base scope range depth clause clause' schema)
    {n : Legacy.Node} (hn : n.functionType = base.type) :
    Meets (fun m => m.functionType = schema.type ∧ clause'.Separates base.type)
      (clause'.Separates base.type) (convertClause n range clause') := by
  cases h with
  | filter hkind _ =>
      have hne : n.functionType ≠ .action := hn ▸ Signature.rejectAction_eq_ok hkind
      refine (Node.clause_meets (fun _ => hne) _ _ _).mono ?_ id
      rintro m ⟨hm, -⟩
      exact ⟨hm.trans hn, trivial⟩
  | monitor hresult =>
      obtain ⟨hquery, -, htype⟩ := Signature.monitored_eq_ok hresult
      refine (Node.table?_meets (fun _ => hn.trans hquery) _).bind id ?_
      intro t _
      exact ⟨htype.symm, trivial⟩
  | projection hkind _ _ =>
      have hne : n.functionType ≠ .action := hn ▸ Signature.rejectAction_eq_ok hkind
      rw [Signature.type_addArguments]
      refine (Node.compute_meets hne _ _ _).bind id ?_
      intro m hm
      have hme : m.functionType ≠ .action := hm ▸ hne
      have htype : m.functionType = base.type := hm.trans hn
      dsimp only
      split
      next => exact ⟨htype, trivial⟩
      next =>
          refine (Node.clause_meets (fun _ => hme) _ _ _).mono ?_ id
          rintro m' ⟨hm', -⟩
          exact ⟨hm'.trans htype, trivial⟩
  | selection _ _ => trivial
  | question _ _ => trivial
  | named =>
      rw [← hn]
      exact Node.clause_meets id _ _ _
  | aggregation _ _ _ _ =>
      rw [Signature.withOnlyOutput, Signature.type_addArguments]
      exact hn ▸ Node.table?_bind_meets n _ _
  | @sort _ value' _ _ _ =>
      rw [← hn]
      cases value' with
      | var name _ => exact Node.table?_bind_meets n _ _
      | _ => trivial
  | @index _ indices' _ _ =>
      have htype : (if picksOne indices' then { base with isList := false } else base).type =
          base.type := by
        split <;> rfl
      rw [htype, ← hn]
      exact Node.table?_bind_meets n _ _
  | slice _ _ _ => exact hn ▸ Node.table?_bind_meets n _ _

/-! ## Calls -/

theorem requireParam_meets
    {sound : Prop} {function name : String} {params : List Param} {range : Option Range}
    (h : sound → ∃ p ∈ params, p.name = name) :
    Meets (fun _ => True) sound (requireParam function params name range) := by
  rw [requireParam]
  cases hfind : params.find? fun p => p.name == name with
  | some p => trivial
  | none =>
      intro hs
      obtain ⟨p, hmem, hname⟩ := h hs
      simpa [hname] using List.find?_eq_none.mp hfind p hmem

theorem convertCall_meets
    {name : String} {schema : Signature} {params : List Param} {range callRange : Option Range}
    (hfunction : Builtin.function? name = some schema)
    (hrequired : schema.requireParams params callRange = .ok ()) (own : Param → Bool) :
    Meets (fun n => n.functionType = schema.type) (schema.type = .stream → ∀ p, own p = true)
      (convertCall name (params.filter own) schema.type range) := by
  have hmem := List.mem_of_find?_eq_some hfunction
  have hname := List.find?_some hfunction
  -- The required parameters of a timer are not among those that are moved to a join.
  have hparam : ∀ a ∈ schema.args, a.direction = .inReq → schema.type = .stream →
      (schema.type = .stream → ∀ p, own p = true) →
        ∃ p ∈ params.filter own, p.name = a.name := by
    intro a ha hdirection hstream hown
    obtain ⟨p, hp, heq⟩ := Signature.exists_param_of_requireParams hrequired ha hdirection
    exact ⟨p, List.mem_filter.mpr ⟨hp, hown hstream p⟩, heq⟩
  obtain rfl : schema.name = name := by simpa using hname
  simp only [Builtin.all, List.mem_cons, List.not_mem_nil, or_false] at hmem
  rcases hmem with rfl | rfl | rfl | rfl | rfl
  · refine (requireParam_meets (hparam _ (.head _) rfl rfl)).bind id fun base _ => ?_
    refine (requireParam_meets (hparam _ (.tail _ (.head _)) rfl rfl)).bind id fun interval _ => ?_
    rfl
  · refine (requireParam_meets (hparam _ (.head _) rfl rfl)).bind id fun time _ => ?_
    rfl
  · refine (requireParam_meets (hparam _ (.head _) rfl rfl)).bind id fun date _ => ?_
    rfl
  · rfl
  · rfl

/-! ## Expressions -/

theorem rejectClause_meets
    {sound : Prop} (range : Option Range) (clause : Clause) :
    Meets (fun _ => True) sound (rejectClause range clause) := by
  cases clause with
  | sort value _ =>
      cases value with
      | _ => trivial
  | _ => trivial

theorem convertInvocation_meets
    (i : Invocation) (type : FunctionType) (range : Option Range) :
    Meets (fun n => n.functionType = type ∧ type ≠ .stream) (type ≠ .stream)
      (convertInvocation i type range) := by
  cases type with
  | action | query => exact ⟨rfl, nofun⟩
  | stream => exact fun h => h rfl

/-- A clause other than a monitor keeps the kind of what it is applied to. -/
theorem AcceptsClause.keeps_type
    {base schema : Signature} {scope : Scope} {range : Option Range} {depth : Nat}
    {clause clause' : Clause}
    (h : c.AcceptsClause base scope range depth clause clause' schema)
    (hquery : base.type ≠ .query) :
    schema.type = base.type ∧ ∀ args, clause ≠ .monitor args := by
  cases h with
  | filter _ _ | named | sort _ _ | slice _ _ _ => exact ⟨rfl, nofun⟩
  | monitor hresult => exact absurd (Signature.monitored_eq_ok hresult).1 hquery
  | projection _ _ _ | selection _ _ | question _ _ | aggregation _ _ _ _ =>
      exact ⟨Signature.type_addArguments _ _, nofun⟩
  | index _ _ =>
      refine ⟨?_, nofun⟩
      split
      next => rfl
      next => rfl

theorem function?_eq_none
    {scope : Scope} (hscope : scope.functions = []) (name : String) :
    scope.function? name = none := by
  rw [Scope.function?, hscope]
  rfl

theorem functions_addOutputs
    (scope : Scope) (schema : Signature) :
    (scope.addOutputs schema).functions = scope.functions :=
  scope.functions_addAll schema.outArgs

mutual

/-- Where only builtin functions are known, an expression becomes a node of its own kind.  A call
that loses parameters to a join must not be a stream. -/
theorem AcceptsExpression.convert_meets
    {scope : Scope} (hscope : scope.functions = []) {depth : Nat}
    {expression expression' : Expression} {schema : Signature} (own : Param → Bool) :
    c.AcceptsExpression scope depth expression expression' schema →
      Meets (fun n => n.functionType = schema.type ∧ expression'.Separates)
        (expression'.Separates ∧ (schema.type = .stream → ∀ p, own p = true))
        (convert own expression')
  | .call _ hfunction hcall => by
      rw [function?_eq_none hscope] at hfunction
      rw [convert, Expression.classify_eq rfl]
      exact (convertCall_meets hfunction hcall.required own).mono (fun _ hn => ⟨hn, trivial⟩)
        And.right
  | .invocation _ _ _ => by
      rw [convert, Expression.classify_eq rfl]
      refine (convertInvocation_meets _ _ _).mono ?_ ?_
      · rintro n ⟨hn, hstream⟩
        exact ⟨hn, fun heq => hstream (Option.some.inj heq)⟩
      · rintro ⟨hseparates, -⟩ heq
        exact hseparates (congrArg some heq)
  | .clause _ hinner hclause => by
      rw [convert]
      refine (rejectClause_meets _ _).bind id fun _ _ => ?_
      have hbase := congrArg (Option.map Signature.type) hinner.schema_eq
      refine (hinner.convert_meets hscope own).bind ?_ ?_
      -- If what is inside is a stream, so is the whole, which then keeps all its parameters.
      · rintro ⟨⟨hseparates, -⟩, hown⟩
        refine ⟨hseparates, fun hstream => hown ?_⟩
        exact (hclause.keeps_type (by rw [hstream]; decide)).1.trans hstream
      rintro n ⟨hn, hinnerSeparates⟩
      refine (hclause.convertClause_meets hn).mono ?_ ?_
      · rintro m ⟨hm, hseparates⟩
        refine ⟨hm, hinnerSeparates, fun type htype => ?_⟩
        rw [← Option.some.inj (hbase.symm.trans htype)]
        exact hseparates
      · rintro ⟨⟨-, hseparates⟩, -⟩
        exact hseparates _ hbase
  | .chain _ _ helements hschema => by
      have htype := Signature.type_of_chained hschema helements.stream_first helements.action_last
      have haction := (FunctionType.ofChain_eq_action_iff helements.action_last).trans
        (FunctionType.mem_iff_getLast? helements.action_last).symm
      rw [← htype] at haction
      rw [convert]
      refine (helements.convertChain_meets hscope (Signature.ne_nil_of_chained hschema)).mono ?_ ?_
      · rintro n ⟨hn, hseparate, hnone⟩
        refine ⟨Option.some.inj (hn.symm.trans htype.symm), hseparate, fun hlength => ?_⟩
        exact mt haction.mp (hnone hlength)
      · rintro ⟨⟨hseparate, hnone⟩, -⟩
        exact ⟨hseparate, fun hlength => mt haction.mpr (hnone hlength)⟩
  | .join _ _ _ _ _ => trivial

theorem AcceptsChain.convertChain_meets
    {scope : Scope} (hscope : scope.functions = []) {depth : Nat}
    {elements elements' : List Expression} {schemas : List Signature}
    (hne : schemas ≠ []) :
    c.AcceptsChain scope depth true elements elements' schemas →
      Meets
        (fun n => FunctionType.ofChain (schemas.map Signature.type) = some n.functionType ∧
          Expression.AllSeparate elements' ∧
            (1 < elements'.length → .action ∉ schemas.map Signature.type))
        (Expression.AllSeparate elements' ∧
          (1 < elements'.length → .action ∉ schemas.map Signature.type))
        (convertChain elements')
  | .nil => absurd rfl hne
  | .cons hfirst _ hrest => by
      rw [convertChain]
      refine (hfirst.convert_meets hscope _).bind ?_ ?_
      · rintro ⟨⟨hseparates, -⟩, -⟩
        exact ⟨hseparates, fun _ _ => rfl⟩
      rintro n ⟨hn, hfirstSeparates⟩
      refine (hrest.convertRest_meets ((functions_addOutputs _ _).trans hscope) n _).mono ?_ ?_
      · rintro m ⟨hm, hquery, hseparate, hne⟩
        rw [List.map_cons, FunctionType.ofChain_cons hquery, hm, hn]
        refine ⟨rfl, ⟨hfirstSeparates, hseparate⟩, fun hlength hmem => ?_⟩
        rcases List.mem_cons.mp hmem with heq | hmem
        · exact hne (List.ne_nil_of_length_pos (Nat.lt_of_succ_lt_succ hlength)) (hn.trans heq.symm)
        · exact nomatch hquery _ hmem
      · rintro ⟨⟨-, hseparate⟩, haction⟩
        refine ⟨hseparate, fun hrest => ?_⟩
        have hnone := haction (Nat.succ_lt_succ (List.length_pos_of_ne_nil hrest))
        rw [List.map_cons, List.mem_cons, not_or] at hnone
        exact ⟨hn ▸ Ne.symm hnone.1, hnone.2⟩

/-- Joining the elements of a chain to a node keeps its kind, and they are all queries. -/
theorem AcceptsChain.convertRest_meets
    {scope : Scope} (hscope : scope.functions = []) {depth : Nat}
    {elements elements' : List Expression} {schemas : List Signature} (n : Legacy.Node)
    (bound : Bound) :
    c.AcceptsChain scope depth false elements elements' schemas →
      Meets
        (fun m => m.functionType = n.functionType ∧
          (∀ type ∈ schemas.map Signature.type, type = .query) ∧
          Expression.AllSeparate elements' ∧ (elements' ≠ [] → n.functionType ≠ .action))
        (Expression.AllSeparate elements' ∧
          (elements' ≠ [] → n.functionType ≠ .action ∧ .action ∉ schemas.map Signature.type))
        (convertRest n bound elements')
  | .nil => ⟨rfl, fun _ h => (nomatch h), trivial, fun h => absurd rfl h⟩
  | h@(.cons helement _ helements) => by
      have hstream := h.not_stream
      rw [List.map_cons, List.mem_cons, not_or] at hstream
      rw [convertRest]
      refine (helement.convert_meets hscope _).bind ?_ ?_
      · rintro ⟨⟨hseparates, -⟩, -⟩
        exact ⟨hseparates, fun heq => absurd heq.symm hstream.1⟩
      rintro m ⟨hm, hseparates⟩
      refine (Node.table?_meets ?_ _).bind id fun t hquery => ?_
      · -- Its place rules out a stream, and what is sound has no action here.
        rintro ⟨-, haction⟩
        have hnone := (haction (List.cons_ne_nil _ _)).2
        rw [List.map_cons, List.mem_cons, not_or] at hnone
        exact hm.trans (FunctionType.eq_query (Ne.symm hstream.1) (Ne.symm hnone.1))
      refine (Node.clause_meets ?_ _ _ _).bind id ?_
      · rintro ⟨-, haction⟩
        exact (haction (List.cons_ne_nil _ _)).1
      rintro m' ⟨hm', hn⟩
      refine (helements.convertRest_meets ((functions_addOutputs _ _).trans hscope) m' _).mono ?_ ?_
      · rintro last ⟨hlast, hqueries, hseparate, -⟩
        refine ⟨hlast.trans hm', ?_, ⟨hseparates, hseparate⟩, fun _ => hn⟩
        rw [List.map_cons, List.forall_mem_cons]
        exact ⟨hm.symm.trans hquery, hqueries⟩
      · rintro ⟨⟨-, hseparate⟩, haction⟩
        have hnone := (haction (List.cons_ne_nil _ _)).2
        rw [List.map_cons, List.mem_cons, not_or] at hnone
        exact ⟨hseparate, fun _ => ⟨hm' ▸ hn, hnone.2⟩⟩

end

end Checker

end SkillLang

import SkillLang.Proofs.Legacy.Kinds

/-!
# Builtin calls before the check

An expression that has not been checked is converted by the kind that its form suggests.  For
calls of builtin functions this is the kind that a check finds, with two exceptions: the name of
`say` is not known to the conversion, and neither is a builtin function that is called through a
selector.  What comes last in an expression decides.
-/

namespace SkillLang

/-- The name that a statement makes callable. -/
def Statement.assigned? : Statement → Option String
  | .assign name _ _ => some name
  | .expression _ | .ret _ _ => none

namespace Expression

/-- No call and nothing around a call has a signature yet. -/
def IsBare (e : Expression) : Prop :=
  ∀ inner ∈ e.subexpressions, inner.outputSchema? = none

/-- If this is a call, it is one of a builtin function whose name is not taken. -/
def CallsBuiltin (taken : List String) : Expression → Prop
  | .call _ name _ => name ∉ taken ∧ Builtin.isBuiltin name = true
  | .invocation _ i => i.selector = .builtin ∧ Builtin.isBuiltin i.channel = true
  | .clause _ _ _ | .chain _ _ | .join _ _ _ => True

/-- All calls are of builtin functions. -/
def OnlyBuiltins (taken : List String) (e : Expression) : Prop :=
  ∀ inner ∈ e.subexpressions, inner.CallsBuiltin taken

mutual
/-- The call that decides about the kind is by name, and the name is not the one that the
conversion does not know. -/
def showsKind : Expression → Bool
  | .call _ name _ => name != "say"
  | .invocation _ _ => false
  | .clause _ inner _ => inner.showsKind
  | .chain _ elements => lastShowsKind elements
  | .join _ lhs _ => lhs.showsKind

def lastShowsKind : List Expression → Bool
  | [] => false
  | e :: es => if es.isEmpty then e.showsKind else lastShowsKind es
end

/-- What the form suggests about an expression of a certain kind. -/
structure Suggests (e : Expression) (type : FunctionType) : Prop where
  not_query : type ≠ .query
  shown : e.showsKind = true → e.classify = type
  hidden : e.showsKind = false → e.classify ≠ type ∧ e.classify ≠ .action

theorem IsBare.schema_eq_none
    {e : Expression} (h : e.IsBare) :
    e.schema = none := by
  have hself : e ∈ e.subexpressions := by cases e <;> simp [subexpressions]
  have hnone := h e hself
  rw [outputSchema?, Option.or_eq_none_iff] at hnone
  exact hnone.1

theorem IsBare.known_eq_none
    {info : Info} {i : Invocation} (h : (Expression.invocation info i).IsBare) :
    i.schema = none := by
  have hnone := h _ (List.mem_singleton_self _)
  rw [outputSchema?, Option.or_eq_none_iff] at hnone
  exact hnone.2

theorem IsBare.of_mem
    {e inner : Expression} (h : e.IsBare)
    (hmem : ∀ x ∈ inner.subexpressions, x ∈ e.subexpressions) :
    inner.IsBare :=
  fun x hx => h x (hmem x hx)

/-! ## One step of the suggestion -/

theorem Suggests.congr
    {e e' : Expression} {type : FunctionType} (h : e.Suggests type)
    (hclassify : e'.classify = e.classify) (hshows : e'.showsKind = e.showsKind) :
    e'.Suggests type := by
  refine ⟨h.not_query, ?_, ?_⟩
  · rw [hclassify, hshows]
    exact h.shown
  · rw [hclassify, hshows]
    exact h.hidden

theorem Suggests.clause
    {inner : Expression} {type : FunctionType} (h : inner.Suggests type) {info : Info}
    (hinfo : info.schema = none) {c : Clause} (hclause : ∀ args, c ≠ .monitor args) :
    (Expression.clause info inner c).Suggests type := by
  refine h.congr ?_ rfl
  cases c with
  | monitor args => exact absurd rfl (hclause args)
  | _ => simp only [classify, hinfo, Option.map_none, Option.getD_none]

theorem Suggests.single
    {e : Expression} {type : FunctionType} (h : e.Suggests type) {info : Info}
    (hinfo : info.schema = none) :
    (Expression.chain info [e]).Suggests type := by
  refine h.congr ?_ rfl
  simp only [classify, hinfo, classifyAll, Option.map_none, Option.getD_none,
    List.getLast?_singleton, List.head?_cons, Option.getD_some, Option.some.injEq]
  split
  next haction => exact haction.symm
  next => rfl

theorem Suggests.ne_action
    {e : Expression} {type : FunctionType} (h : e.Suggests type) (htype : type ≠ .action) :
    e.classify ≠ .action := by
  cases hshown : e.showsKind with
  | true => exact h.shown hshown ▸ htype
  | false => exact (h.hidden hshown).2

/-- A stream that an action is run for. -/
theorem Suggests.pair
    {e last : Expression} (h : e.Suggests .stream) (hlast : last.Suggests .action) {info : Info}
    (hinfo : info.schema = none) :
    (Expression.chain info [e, last]).Suggests .action := by
  have hclassify : (Expression.chain info [e, last]).classify =
      if last.classify = .action then .action else e.classify := by
    simp [classify, hinfo, classifyAll]
  refine ⟨hlast.not_query, ?_, ?_⟩
  · intro hshown
    rw [hclassify, if_pos (hlast.shown hshown)]
  · intro hhidden
    have hne := h.ne_action (by decide)
    rw [hclassify, if_neg (hlast.hidden hhidden).1]
    exact ⟨hne, hne⟩

/-- Of the builtin functions, only `say` has a name that the conversion does not know. -/
theorem suggests_call
    {name : String} {schema : Signature} (hfunction : Builtin.function? name = some schema)
    {info : Info} (hinfo : info.schema = none) (params : List Param) :
    (Expression.call info name params).Suggests schema.type := by
  have hmem := List.mem_of_find?_eq_some hfunction
  obtain rfl : schema.name = name := by simpa using List.find?_some hfunction
  have hclassify : (Expression.call info schema.name params).classify =
      if ["timer", "attimer", "ontimer"].contains schema.name then .stream
      else if ["notify", "return"].contains schema.name then .action
      else .query := by
    rw [classify, hinfo]
    rfl
  have hshows : (Expression.call info schema.name params).showsKind = (schema.name != "say") := rfl
  simp only [Builtin.all, List.mem_cons, List.not_mem_nil, or_false] at hmem
  rcases hmem with rfl | rfl | rfl | rfl | rfl
  all_goals
    refine ⟨by decide, ?_, ?_⟩
    · rw [hclassify, hshows]
      decide
    · rw [hclassify, hshows]
      decide

theorem suggests_invocation
    {info : Info} {i : Invocation} (hinfo : info.schema = none) (hschema : i.schema = none)
    {schema : Signature} (hfunction : Builtin.function? i.channel = some schema) :
    (Expression.invocation info i).Suggests schema.type := by
  have hquery : schema.type ≠ .query := (suggests_call hfunction hinfo []).not_query
  have hclassify : (Expression.invocation info i).classify = .query := by
    rw [classify, hinfo, hschema]
    rfl
  refine ⟨hquery, fun hshown => ?_, fun _ => ?_⟩
  · cases hshown
  · rw [hclassify]
    exact ⟨hquery.symm, by decide⟩

end Expression

namespace Checker

open Legacy Expression

variable {σ : Type} {c : Checker σ}

/-- All functions of a scope have taken their names. -/
def Takes (scope : Scope) (taken : List String) : Prop :=
  ∀ name, name ∉ taken → scope.function? name = none

theorem takes_empty :
    Takes .empty [] :=
  fun _ _ => rfl

theorem Takes.addOutputs
    {scope : Scope} {taken : List String} (h : Takes scope taken) (schema : Signature) :
    Takes (scope.addOutputs schema) taken := by
  intro name hname
  rw [Scope.function?, functions_addOutputs]
  exact h name hname

theorem Takes.addFunction
    {scope : Scope} {taken : List String} (h : Takes scope taken) (name : String)
    (schema : Signature) :
    Takes (scope.addFunction name schema) (taken ++ [name]) := by
  intro other hother
  rw [List.mem_append, List.mem_singleton, not_or] at hother
  rw [Scope.function?, Scope.addFunction, Keyed.find?_insert_of_ne hother.2]
  exact h other hother.1

/-- If none of its elements is a query, a chain is a single element, or an action that is run for
a stream. -/
theorem AcceptsChain.single_or_pair
    {scope : Scope} {depth : Nat} {elements elements' : List Expression}
    {schemas : List Signature} (h : c.AcceptsChain scope depth true elements elements' schemas)
    {schema : Signature} {range : Option Range}
    (hschema : Signature.chained schemas range = .ok schema)
    (hsuggest : List.Forall₂ (fun e schema => e.Suggests schema.type) elements schemas) :
    (∃ e, elements = [e] ∧ e.Suggests schema.type) ∨
      ∃ e last, elements = [e, last] ∧ e.Suggests .stream ∧ last.Suggests .action ∧
        schema.type = .action := by
  have hstream := h.stream_first
  have haction := h.action_last
  have htype := Signature.type_of_chained hschema hstream haction
  match hsuggest with
  | .nil => cases hschema
  | .cons (b := only) honly .nil =>
      rw [List.map_singleton, FunctionType.ofChain_cons (List.forall_mem_nil _),
        Option.some_inj] at htype
      exact .inl ⟨_, rfl, htype ▸ honly⟩
  | .cons (b := first) hfirst (.cons (b := last) hlast .nil) =>
      have hfirstType : first.type = .stream := by
        have hne : first.type ≠ .action := fun heq => haction (heq ▸ List.mem_cons_self)
        cases heq : first.type with
        | stream => rfl
        | query => exact absurd heq hfirst.not_query
        | action => exact absurd heq hne
      have hlastType : last.type = .action := by
        have hne : last.type ≠ .stream := fun heq => hstream (heq ▸ List.mem_cons_self)
        cases heq : last.type with
        | stream => exact absurd heq hne
        | query => exact absurd heq hlast.not_query
        | action => rfl
      rw [List.map_cons, List.map_singleton, hfirstType, hlastType] at htype
      exact .inr ⟨_, _, rfl, hfirstType ▸ hfirst, hlastType ▸ hlast, Option.some.inj htype⟩
  | .cons _ (.cons (b := second) hsecond (.cons _ _)) =>
      -- The second of three elements is at neither end.
      have hstart : second.type ≠ .stream := fun heq => hstream (heq ▸ List.mem_cons_self)
      have hend : second.type ≠ .action :=
        fun heq => haction (heq ▸ List.mem_cons_of_mem _ List.mem_cons_self)
      exact absurd (FunctionType.eq_query hstart hend) hsecond.not_query

mutual

theorem AcceptsExpression.suggests
    {scope : Scope} {taken : List String} (hscope : Takes scope taken) {depth : Nat}
    {expression expression' : Expression} {schema : Signature} (hbare : expression.IsBare)
    (hbuiltins : expression.OnlyBuiltins taken) :
    c.AcceptsExpression scope depth expression expression' schema →
      expression.Suggests schema.type
  | .call _ hfunction _ => by
      obtain ⟨htaken, -⟩ := hbuiltins _ (List.mem_singleton_self _)
      rw [hscope _ htaken] at hfunction
      exact suggests_call hfunction hbare.schema_eq_none _
  | .invocation _ hresolve _ => by
      obtain ⟨hselector, -⟩ := hbuiltins _ (List.mem_singleton_self _)
      cases hresolve with
      | builtin hfunction =>
          exact suggests_invocation hbare.schema_eq_none hbare.known_eq_none hfunction
      | device _ _ => cases hselector
  | .clause _ hinner hclause => by
      have hsuggests := hinner.suggests hscope (hbare.of_mem fun _ => List.mem_cons_of_mem _)
        fun e he => hbuiltins e (List.mem_cons_of_mem _ he)
      obtain ⟨htype, hmonitor⟩ := hclause.keeps_type hsuggests.not_query
      rw [htype]
      exact hsuggests.clause hbare.schema_eq_none hmonitor
  | .chain _ _ helements hschema => by
      have hsuggest := helements.suggests hscope
        (fun e he => hbare e (List.mem_cons_of_mem _ he))
        fun e he => hbuiltins e (List.mem_cons_of_mem _ he)
      rcases helements.single_or_pair hschema hsuggest with
        ⟨only, rfl, honly⟩ | ⟨first, last, rfl, hfirst, hlast, htype⟩
      · exact honly.single hbare.schema_eq_none
      · rw [htype]
        exact hfirst.pair hlast hbare.schema_eq_none
  | .join _ _ _ hrhs hright => by
      have hsuggests := hrhs.suggests (hscope.addOutputs _)
        (hbare.of_mem fun x hx => List.mem_cons_of_mem _ (List.mem_append_right _ hx))
        fun e he => hbuiltins e (List.mem_cons_of_mem _ (List.mem_append_right _ he))
      exact absurd (Signature.requireQuery_eq_ok hright) hsuggests.not_query

theorem AcceptsChain.suggests
    {scope : Scope} {taken : List String} (hscope : Takes scope taken) {depth : Nat}
    {isFirst : Bool} {elements elements' : List Expression} {schemas : List Signature}
    (hbare : ∀ e ∈ subexpressionsOf elements, e.outputSchema? = none)
    (hbuiltins : ∀ e ∈ subexpressionsOf elements, e.CallsBuiltin taken) :
    c.AcceptsChain scope depth isFirst elements elements' schemas →
      List.Forall₂ (fun e schema => e.Suggests schema.type) elements schemas
  | .nil => .nil
  | .cons helement _ helements =>
      .cons
        (helement.suggests hscope (fun e he => hbare e (List.mem_append_left _ he))
          fun e he => hbuiltins e (List.mem_append_left _ he))
        (helements.suggests (hscope.addOutputs _)
          (fun e he => hbare e (List.mem_append_right _ he))
          fun e he => hbuiltins e (List.mem_append_right _ he))

end

/-- An accepted chain of several elements is split at its last element if that shows its kind. -/
theorem AcceptsExpression.splitAction?_eq_some_iff
    {scope : Scope} {taken : List String} (hscope : Takes scope taken) {depth : Nat}
    {info : Info} {elements : List Expression} {expression' : Expression} {schema : Signature}
    (h : c.AcceptsExpression scope depth (.chain info elements) expression' schema)
    (hbare : (Expression.chain info elements).IsBare)
    (hbuiltins : (Expression.chain info elements).OnlyBuiltins taken)
    (hlength : 1 < elements.length) {last : Expression} (hlast : elements.getLast? = some last) :
    splitAction? (.chain info elements) = some (elements.dropLast, last) ↔
      (Expression.chain info elements).showsKind = true := by
  cases h with
  | chain _ _ helements hschema =>
      have hsuggest := helements.suggests hscope
        (fun e he => hbare e (List.mem_cons_of_mem _ he))
        fun e he => hbuiltins e (List.mem_cons_of_mem _ he)
      rcases helements.single_or_pair hschema hsuggest with
        ⟨only, rfl, -⟩ | ⟨first, ending, rfl, -, hend, -⟩
      · exact absurd hlength (Nat.lt_irrefl 1)
      obtain rfl : ending = last := Option.some.inj hlast
      rw [splitAction?_several]
      change (if ending.classify = .action then some ([first], ending) else none) =
        some ([first], ending) ↔ ending.showsKind = true
      constructor
      · intro heq
        by_contra hhidden
        rw [if_neg (hend.hidden (Bool.eq_false_of_not_eq_true hhidden)).1] at heq
        cases heq
      · intro hshown
        rw [if_pos (hend.shown hshown)]

/-! ## Statements of a program -/

theorem AcceptsStatement.takes
    {scope next : Scope} {taken : List String} (hscope : Takes scope taken)
    {statement statement' : Statement} {schema : Option Signature}
    (h : c.AcceptsStatement scope statement statement' schema next) :
    Takes next (taken ++ statement.assigned?.toList) := by
  cases h with
  | expression _ | ret _ =>
      rw [Statement.assigned?, Option.toList_none, List.append_nil]
      exact hscope
  | assign _ => exact hscope.addFunction _ _

theorem AcceptsStatement.body
    {scope next : Scope} {statement statement' : Statement} {schema : Option Signature}
    (h : c.AcceptsStatement scope statement statement' schema next) :
    ∃ schema, c.AcceptsExpression scope 0 statement.body statement'.body schema := by
  cases h with
  | expression hbody | ret hbody | assign hbody => exact ⟨_, hbody⟩

/-- Where a statement stands, the assignments before it have taken their names. -/
theorem AcceptsStatements.body_of_getElem?
    {scope : Scope} {taken : List String} (hscope : Takes scope taken)
    {statements statements' : List Statement} {schemas : List Signature}
    (h : c.AcceptsStatements scope statements statements' schemas) {i : Nat}
    {statement : Statement} (hi : statements[i]? = some statement) :
    ∃ before statement' schema,
      Takes before (taken ++ (statements.take i).filterMap Statement.assigned?) ∧
        statements'[i]? = some statement' ∧
        c.AcceptsExpression before 0 statement.body statement'.body schema := by
  induction h generalizing taken i with
  | nil => cases hi
  | @cons scope first first' _ _ rest rest' _ hfirst _ ih =>
      cases i with
      | zero =>
          obtain rfl : first = statement := Option.some.inj hi
          obtain ⟨schema, hbody⟩ := hfirst.body
          exact ⟨scope, first', schema, by simpa using hscope, rfl, hbody⟩
      | succ i =>
          obtain ⟨before, statement', schema, hbefore, hi', hbody⟩ := ih (hfirst.takes hscope) hi
          refine ⟨before, statement', schema, ?_, hi', hbody⟩
          rw [List.append_assoc] at hbefore
          rw [List.take_succ_cons, List.filterMap_cons]
          cases hassigned : first.assigned? with
          | none => simpa [hassigned] using hbefore
          | some name => simpa [hassigned] using hbefore

/-- What the conversion supposes about a statement that has not been checked and calls nothing but
builtin functions is what the check finds, and a chain is split at the action that it ends with, if
and only if what comes last shows its kind. -/
theorem classify_builtins_iff
    {p q : Program} {s : Session σ}
    (h : ((c.check (.program p)).runIn s).1 = .ok (.program q))
    (hdeclarations : p.declarations = []) {i : Nat} {statement : Statement}
    (hi : p.statements[i]? = some statement) (hbare : statement.body.IsBare)
    (hbuiltins :
      statement.body.OnlyBuiltins ((p.statements.take i).filterMap Statement.assigned?)) :
    ∃ statement' schema, q.statements[i]? = some statement' ∧
      statement'.body.schema = some schema ∧
      (statement.body.classify = schema.type ↔ statement.body.showsKind = true) ∧
      ∀ info elements last, statement.body = .chain info elements → 1 < elements.length →
        elements.getLast? = some last →
          (splitAction? statement.body = some (elements.dropLast, last) ↔
            statement.body.showsKind = true) := by
  obtain ⟨classes, declarations, statements, range⟩ := p
  obtain rfl : declarations = [] := hdeclarations
  cases acceptsInput_of_check h with
  | program hnone hstatements =>
      cases hnone
      obtain ⟨before, statement', schema, htakes, hi', hbody⟩ :=
        hstatements.body_of_getElem? takes_empty hi
      have hsuggests := hbody.suggests htakes hbare hbuiltins
      refine ⟨statement', schema, hi', hbody.schema_eq, ⟨?_, hsuggests.shown⟩, ?_⟩
      · intro hclassify
        by_contra hhidden
        exact (hsuggests.hidden (Bool.eq_false_of_not_eq_true hhidden)).1 hclassify
      · intro info elements last hchain hlength hlast
        rw [hchain] at hbody hbare hbuiltins ⊢
        exact hbody.splitAction?_eq_some_iff htakes hbare hbuiltins hlength hlast

/-! ## Every hour -/

namespace Digest

/-- An action is done every hour. -/
def hourly (action : Expression) : Expression :=
  .chain {}
    [.call {} "timer" [⟨"base", .date .now, none⟩, ⟨"interval", .measure 1 "h", none⟩], action]

def running (e : Expression) : Program :=
  ⟨[], [], [.expression ⟨e, none⟩], none⟩

theorem hourly_isBare
    (name : String) (params : List Param) :
    (hourly (.call {} name params)).IsBare := by
  intro e he
  simp only [hourly, subexpressions, subexpressionsOf, List.singleton_append, List.append_nil,
    List.mem_cons, List.not_mem_nil, or_false] at he
  rcases he with rfl | rfl | rfl <;> rfl

theorem hourly_onlyBuiltins
    {name : String} (hname : Builtin.isBuiltin name = true) (params : List Param) :
    (hourly (.call {} name params)).OnlyBuiltins [] := by
  intro e he
  simp only [hourly, subexpressions, subexpressionsOf, List.singleton_append, List.append_nil,
    List.mem_cons, List.not_mem_nil, or_false] at he
  rcases he with rfl | rfl | rfl
  · trivial
  · exact ⟨List.not_mem_nil, rfl⟩
  · exact ⟨List.not_mem_nil, hname⟩

end Digest

theorem notify_seen :
    let e := Digest.hourly (.call {} "notify" [])
    (∃ q, ((Digest.checker.check (.program (Digest.running e))).runIn Digest.session).1 =
        .ok (.program q) ∧
      ∃ statement' schema, q.statements[0]? = some statement' ∧
        statement'.body.schema = some schema ∧
        (e.classify = schema.type ↔ e.showsKind = true) ∧
        ∀ info elements last, e = .chain info elements → 1 < elements.length →
          elements.getLast? = some last →
            (splitAction? e = some (elements.dropLast, last) ↔ e.showsKind = true)) ∧
      e.showsKind = true := by
  intro e
  obtain ⟨q, h⟩ : ∃ q,
      ((Digest.checker.check (.program (Digest.running e))).runIn Digest.session).1 =
        .ok (.program q) :=
    ⟨_, rfl⟩
  have hfirst : (Digest.running e).statements[0]? = some (.expression ⟨e, none⟩) := rfl
  refine ⟨⟨q, h, ?_⟩, rfl⟩
  exact classify_builtins_iff h rfl hfirst (Digest.hourly_isBare _ _)
    (Digest.hourly_onlyBuiltins rfl _)

/-- The check finds the action in what is to be said every hour, and the conversion of what has not
been checked takes it for a query that is joined to a stream. -/
theorem say_not_seen :
    let e := Digest.hourly (.call {} "say" [⟨"message", .string "stand up", none⟩])
    e.IsBare ∧ e.OnlyBuiltins [] ∧
      (∃ q schema,
        ((Digest.checker.check (.program (Digest.running e))).runIn Digest.session).1 =
            .ok (.program q) ∧
          q.statements.map (fun s => s.body.schema) = [some schema] ∧ schema.type = .action) ∧
      e.classify = .stream ∧ splitAction? e = none :=
  ⟨Digest.hourly_isBare _ _, Digest.hourly_onlyBuiltins rfl _, ⟨_, _, rfl, rfl, rfl⟩, rfl, rfl⟩

end Checker

end SkillLang

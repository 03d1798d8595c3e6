import SkillLang.Proofs.Legacy.Conversion

/-!
# Parameters of legacy joins

A chain becomes a row of joins, one for each element after the first.  The calls of a chain
are the calls of what it becomes, in the same order.  A parameter stays with its call or is
passed on by the join that was made for its element: it is passed on if it is a variable
that some earlier element may have returned.
-/

namespace SkillLang

/-! ## Calls -/

/-- A call of a function, in an expression or in the legacy language. -/
inductive Primitive where
  | invocation (i : Invocation)
  | call (name : String) (params : List Param)

namespace Primitive

def params : Primitive → List Param
  | invocation i => i.params
  | call _ params => params

def withParams (p : Primitive) (params : List Param) : Primitive :=
  match p with
  | invocation i => invocation { i with params }
  | call name _ => call name params

theorem withParams_params
    (p : Primitive) :
    p.withParams p.params = p := by
  cases p with
  | invocation i =>
      cases i
      rfl
  | call _ _ => rfl

/-- The call without its parameters. -/
def bare (p : Primitive) : Primitive :=
  p.withParams []

/-- The legacy language has a form of its own for calls of the function. -/
def hasOwnForm : Primitive → Bool
  | invocation _ => false
  | call name _ => ["timer", "attimer", "ontimer", "notify", "return"].contains name

end Primitive

namespace Expression

mutual
/-- The calls of an expression from the left to the right. -/
def primitives : Expression → List Primitive
  | call _ name params => [.call name params]
  | invocation _ i => [.invocation i]
  | clause _ inner _ => inner.primitives
  | chain _ elements => primitivesOf elements
  | join _ lhs rhs => lhs.primitives ++ rhs.primitives

def primitivesOf : List Expression → List Primitive
  | [] => []
  | e :: es => e.primitives ++ primitivesOf es
end

/-- The call inside of all clauses, if there is a single one. -/
def primitive? : Expression → Option Primitive
  | call _ name params => some (.call name params)
  | invocation _ i => some (.invocation i)
  | clause _ inner _ => inner.primitive?
  | chain _ _ | join _ _ _ => none

/-- An element of a chain may return something of the name; nothing is ruled out if its
signature is not known. -/
def mayReturn (e : Expression) (name : String) : Bool :=
  match e.outputSchema? with
  | some schema => schema.outArgs.any fun a => a.name == name
  | none => true

theorem primitivesOf_append
    (es more : List Expression) :
    primitivesOf (es ++ more) = primitivesOf es ++ primitivesOf more := by
  induction es with
  | nil => rfl
  | cons e es ih => rw [List.cons_append, primitivesOf, primitivesOf, ih, List.append_assoc]

theorem callParams_of_primitive?
    {e : Expression} {p : Primitive} (h : e.primitive? = some p) :
    e.callParams = p.params := by
  induction e using primitive?.induct with
  | case1 | case2 =>
      cases h
      rfl
  | case3 _ inner _ ih =>
      rw [callParams]
      exact ih h
  | case4 | case5 => cases h

end Expression

/-- The parameter is a variable that some of these elements may have returned. -/
def Param.refersTo (earlier : List Expression) (p : Param) : Bool :=
  match p.value with
  | .var name _ => earlier.any fun e => e.mayReturn name
  | _ => false

namespace Legacy

def Table.primitives : Table → List Primitive
  | .invocation i => [.invocation i]
  | .call name params => [.call name params]
  | .filter t _ | .projection t _ | .compute t _ _ | .named t _ | .aggregation t _ _
  | .sort t _ _ | .index t _ | .slice t _ _ => t.primitives
  | .join lhs rhs _ => lhs.primitives ++ rhs.primitives

def Stream.primitives : Stream → List Primitive
  | .timer _ _ _ | .atTimer _ _ | .onTimer _ => []
  | .call name params => [.call name params]
  | .monitor t _ => t.primitives
  | .edgeNew s | .edgeFilter s _ | .filter s _ | .projection s _ | .compute s _ _
  | .named s _ => s.primitives
  | .join s t _ => s.primitives ++ t.primitives

def Action.primitives : Action → List Primitive
  | .notify _ => []
  | .invocation i => [.invocation i]
  | .call name params => [.call name params]

def Node.primitives : Node → List Primitive
  | .table t => t.primitives
  | .stream s => s.primitives
  | .action a => a.primitives

def Trigger.primitives : Trigger → List Primitive
  | .now => []
  | .table t => t.primitives
  | .stream s => s.primitives

def Statement.primitives (s : Statement) : List Primitive :=
  s.trigger.primitives ++ s.actions.flatMap Action.primitives

/-! ## Joins -/

/-- The right side of a join. -/
structure Joined where
  table : Table
  passed : List Param

/-- A node with a table joined to it, unless it is an action. -/
def Node.join? (n : Node) (j : Joined) : Option Node :=
  match n with
  | .table lhs => some (.table (.join lhs j.table j.passed))
  | .stream s => some (.stream (.join s j.table j.passed))
  | .action _ => none

/-- A node with tables joined to it one after the other. -/
def Node.joinAll? (n : Node) (joins : List Joined) : Option Node :=
  joins.foldlM Node.join? n

/-- A call has a table to itself, and its parameters are split between the table and the join:
those that refer to earlier elements are passed on. -/
structure Joined.Splits (j : Joined) (earlier : List Expression) (p : Primitive) : Prop where
  passed : j.passed = p.params.filter (Param.refersTo earlier)
  own : j.table.primitives = [p.withParams (p.params.filter fun q => !q.refersTo earlier)]

/-- How the elements of a chain are found in what it becomes. -/
structure Node.Reads (n : Node) (elements : List Expression) : Prop where
  /-- The calls are those of the elements in their order. -/
  calls : n.primitives.map Primitive.bare =
    (Expression.primitivesOf elements).map Primitive.bare
  /-- The first element keeps its parameters, and the others are joined to it one by one. -/
  first : ∀ {first : Expression} {rest : List Expression}, elements = first :: rest →
    ∃ (start : Node) (joins : List Joined),
      first.toLegacy = .ok start ∧ start.joinAll? joins = some n ∧
        joins.length = rest.length ∧ ∀ p, first.primitive? = some p → start.primitives = [p]
  /-- An element that is a single call is joined to what those before it become. -/
  later : ∀ {earlier after : List Expression} {element : Expression},
    elements = earlier ++ element :: after → earlier ≠ [] →
      ∀ p, element.primitive? = some p →
        ∃ (before now : Node) (j : Joined) (joins : List Joined),
          convertChain earlier = .ok before ∧ j.Splits earlier p ∧ before.join? j = some now ∧
            now.joinAll? joins = some n ∧ joins.length = after.length

/-- The results of a node, which an action does not have. -/
def Node.trigger? : Node → Option Trigger
  | .table t => some (.table t)
  | .stream s => some (.stream s)
  | .action _ => none

/-- How the elements of a chain are found in a statement. -/
inductive Statement.Reads (elements : List Expression) (word : String) : Statement → Prop where
  | action {a : Action} :
      Node.Reads (.action a) elements → Reads elements word ⟨.now, [a]⟩
  | results {n : Node} {trigger : Trigger} :
      n.Reads elements → n.trigger? = some trigger →
        Reads elements word ⟨trigger, [.notify word]⟩
  /-- The last element is an action that runs for the results of the others. -/
  | split {earlier : List Expression} {last : Expression} {n : Node} {trigger : Trigger}
      {a : Action} :
      elements = earlier ++ [last] → earlier ≠ [] → n.Reads earlier →
        n.trigger? = some trigger → last.toLegacy = .ok (.action a) →
        (∀ p, last.primitive? = some p → a.primitives = [p]) →
        Reads elements word ⟨trigger, [a]⟩

section Clauses

variable {sound : Prop}

theorem Node.clause_keeps_primitives
    (n : Node) {onTable : Table → Table} {onStream : Stream → Stream}
    (htable : ∀ t, (onTable t).primitives = t.primitives)
    (hstream : ∀ s, (onStream s).primitives = s.primitives) (e : ConversionError) :
    Meets (fun m => m.primitives = n.primitives) False (n.clause onTable onStream e) := by
  cases n with
  | table t => exact htable t
  | stream s => exact hstream s
  | action a => exact meets_error not_false e

theorem Node.table?_keeps_primitives
    (n : Node) (construct : String) :
    Meets (fun t => t.primitives = n.primitives) False (n.table? construct) := by
  cases n with
  | table t => rfl
  | stream s => exact not_false
  | action a => exact not_false

theorem Node.table?_bind_keeps_primitives
    (n : Node) (construct : String) {f : Table → Table}
    (hf : ∀ t, (f t).primitives = t.primitives) :
    Meets (fun m => m.primitives = n.primitives) False
      (do return Node.table (f (← n.table? construct))) := by
  refine (n.table?_keeps_primitives construct).bind id ?_
  intro t ht
  exact (hf t).trans ht

theorem Node.compute_keeps_primitives
    (n : Node) (range : Option Range) (values : List Value) (labels : List (Option String)) :
    Meets (fun m => m.primitives = n.primitives) False (n.compute range values labels) := by
  induction values generalizing n labels with
  | nil => rfl
  | cons value values ih =>
      rw [Node.compute]
      refine (n.clause_keeps_primitives (by intro; rfl) (by intro; rfl) _).bind id ?_
      intro m hm
      rw [← hm]
      exact ih m labels.tail

theorem convertClause_keeps_primitives
    (n : Node) (range : Option Range) (c : Clause) :
    Meets (fun m => m.primitives = n.primitives) False (convertClause n range c) := by
  cases c with
  | filter _ | named _ =>
      exact n.clause_keeps_primitives (by intro; rfl) (by intro; rfl) _
  | monitor _ =>
      refine (n.table?_keeps_primitives _).bind id ?_
      intro t ht
      exact ht
  | projection args computations aliases =>
      refine (n.compute_keeps_primitives range computations aliases).bind id ?_
      intro m hm
      dsimp only
      split
      next => exact hm
      next =>
          refine (m.clause_keeps_primitives (by intro; rfl) (by intro; rfl) _).mono ?_ id
          intro m' hm'
          exact hm'.trans hm
  | aggregation _ _ _ | index _ | slice _ _ =>
      exact n.table?_bind_keeps_primitives _ fun _ => rfl
  | sort value _ =>
      cases value with
      | var _ _ => exact n.table?_bind_keeps_primitives _ fun _ => rfl
      | _ => trivial
  | question _ | selection _ => trivial

end Clauses

theorem convertCall_keeps_primitives
    {name : String} {params : List Param} (h : (Primitive.call name params).hasOwnForm = false)
    (own : List Param) (type : FunctionType) (range : Option Range) :
    Meets (fun n => n.primitives = [.call name own]) False
      (convertCall name own type range) := by
  simp only [Primitive.hasOwnForm, List.contains_cons, List.contains_nil, Bool.or_false,
    Bool.or_eq_false_iff, beq_eq_false_iff_ne, ne_eq] at h
  obtain ⟨htimer, hattimer, hontimer, hnotify, hreturn⟩ := h
  unfold convertCall
  rw [if_neg htimer, if_neg hattimer, if_neg hontimer,
    if_neg (not_or.mpr ⟨hnotify, hreturn⟩)]
  cases type <;> rfl

theorem convertInvocation_keeps_primitives
    (i : Invocation) (type : FunctionType) (range : Option Range) :
    Meets (fun n => n.primitives = [.invocation i]) False (convertInvocation i type range) := by
  cases type with
  | action | query => rfl
  | stream => exact not_false

/-! ## Chains -/

theorem Node.joinTable_meets
    (n : Node) (t : Table) (passed : List Param) (range : Option Range) :
    Meets (fun m => n.join? ⟨t, passed⟩ = some m) False (n.joinTable t passed range) := by
  cases n with
  | table lhs => rfl
  | stream s => rfl
  | action a => exact not_false

theorem Node.primitives_of_join?
    {n m : Node} {j : Joined} (h : n.join? j = some m) :
    m.primitives = n.primitives ++ j.table.primitives := by
  cases n with
  | table _ | stream _ =>
      cases h
      rfl
  | action _ => cases h

mutual

/-- A conversion keeps the calls of an expression, and a single call keeps its own parameters. -/
theorem convert_keeps_primitives
    (own : Param → Bool) :
    (e : Expression) → (∀ p ∈ e.primitives, p.hasOwnForm = false) →
      Meets
        (fun n => n.primitives.map Primitive.bare = e.primitives.map Primitive.bare ∧
          ∀ p, e.primitive? = some p → n.primitives = [p.withParams (p.params.filter own)])
        False (convert own e)
  | .call info name params, hplain => by
      rw [convert]
      refine (convertCall_keeps_primitives (hplain _ (List.mem_singleton_self _)) _ _ _).mono ?_ id
      intro n hn
      rw [hn]
      exact ⟨rfl, fun p hp => by cases hp; rfl⟩
  | .invocation info i, _ => by
      rw [convert]
      refine (convertInvocation_keeps_primitives _ _ _).mono ?_ id
      intro n hn
      rw [hn]
      exact ⟨rfl, fun p hp => by cases hp; rfl⟩
  | .clause info inner c, hplain => by
      rw [convert]
      refine (Checker.rejectClause_meets _ _).bind id fun _ _ => ?_
      refine (convert_keeps_primitives own inner hplain).bind id fun n hn => ?_
      refine (convertClause_keeps_primitives n _ c).mono ?_ id
      intro m hm
      rw [hm]
      exact hn
  | .chain _ elements, hplain => by
      rw [convert]
      refine (convertChain_keeps_primitives elements hplain).mono ?_ id
      intro n hn
      exact ⟨hn, nofun⟩
  | .join _ _ _, _ => by
      rw [convert]
      trivial

theorem convertChain_keeps_primitives :
    (elements : List Expression) →
      (∀ p ∈ Expression.primitivesOf elements, p.hasOwnForm = false) →
        Meets
          (fun n => n.primitives.map Primitive.bare =
            (Expression.primitivesOf elements).map Primitive.bare)
          False (convertChain elements)
  | [], _ => by
      rw [convertChain]
      exact not_false
  | first :: rest, hplain => by
      rw [Expression.primitivesOf, List.forall_mem_append] at hplain
      rw [convertChain]
      refine (convert_keeps_primitives _ first hplain.1).bind id fun n hn => ?_
      refine (convertRest_keeps_primitives n _ rest hplain.2).mono ?_ id
      intro m hm
      rw [hm, hn.1, Expression.primitivesOf, List.map_append]

theorem convertRest_keeps_primitives
    (n : Node) (bound : Bound) :
    (elements : List Expression) →
      (∀ p ∈ Expression.primitivesOf elements, p.hasOwnForm = false) →
        Meets
          (fun m => m.primitives.map Primitive.bare =
            n.primitives.map Primitive.bare ++
              (Expression.primitivesOf elements).map Primitive.bare)
          False (convertRest n bound elements)
  | [], _ => by
      rw [convertRest]
      exact (List.append_nil _).symm
  | element :: elements, hplain => by
      rw [Expression.primitivesOf, List.forall_mem_append] at hplain
      rw [convertRest]
      refine (convert_keeps_primitives _ element hplain.1).bind id fun joined hjoined => ?_
      refine (joined.table?_keeps_primitives _).bind id fun t ht => ?_
      refine (n.joinTable_meets t _ _).bind id fun m hm => ?_
      refine (convertRest_keeps_primitives m _ elements hplain.2).mono ?_ id
      intro last hlast
      rw [hlast, Node.primitives_of_join? hm, ht, Expression.primitivesOf, List.map_append,
        List.map_append, hjoined.1, List.append_assoc]

end

/-- An expression that is not joined to anything keeps all of its parameters. -/
theorem toLegacy_keeps_primitives
    {e : Expression} (hplain : ∀ p ∈ e.primitives, p.hasOwnForm = false) :
    Meets
      (fun n => n.primitives.map Primitive.bare = e.primitives.map Primitive.bare ∧
        ∀ p, e.primitive? = some p → n.primitives = [p])
      False e.toLegacy := by
  refine (convert_keeps_primitives (fun _ => true) e hplain).mono ?_ id
  rintro n ⟨hcalls, hsingle⟩
  refine ⟨hcalls, fun p hp => ?_⟩
  rw [hsingle p hp, List.filter_true, Primitive.withParams_params]

/-- What is bound after the elements of a chain. -/
def Bound.extendAll (bound : Bound) (elements : List Expression) : Bound :=
  elements.foldl (fun bound e => bound.extend e.outputSchema?) bound

theorem Bound.binds_extend
    (bound : Bound) (e : Expression) (name : String) :
    (bound.extend e.outputSchema?).binds name = (bound.binds name || e.mayReturn name) := by
  rw [Expression.mayReturn]
  cases bound with
  | none => simp [extend, binds]
  | some names =>
      cases e.outputSchema? with
      | none => simp [extend, binds]
      | some schema =>
          simp only [extend, binds, List.contains_eq_any_beq, BEq.comm (a := name),
            List.any_append, List.any_map, Function.comp_def]

theorem Bound.binds_extendAll
    (bound : Bound) (elements : List Expression) (name : String) :
    (bound.extendAll elements).binds name =
      (bound.binds name || elements.any fun e => e.mayReturn name) := by
  induction elements generalizing bound with
  | nil => exact (Bool.or_false _).symm
  | cons e elements ih =>
      rw [List.any_cons, ← Bool.or_assoc, ← Bound.binds_extend]
      exact ih _

/-- The join of an element passes on what refers to the elements before it. -/
theorem Bound.passes_extendAll
    (elements : List Expression) (p : Param) :
    Bound.passes (Bound.extendAll (some []) elements) p = p.refersTo elements := by
  unfold Bound.passes Param.refersTo
  cases p.value with
  | var name _ => exact Bound.binds_extendAll (some []) elements name
  | _ => rfl

theorem convertRest_append
    (n : Node) (bound : Bound) (elements more : List Expression) :
    convertRest n bound (elements ++ more) =
      (do convertRest (← convertRest n bound elements) (bound.extendAll elements) more) := by
  induction elements generalizing n bound with
  | nil =>
      rw [convertRest]
      rfl
  | cons element elements ih =>
      simp only [List.cons_append, convertRest, ih, bind_assoc]
      rfl

theorem convertChain_append
    {elements : List Expression} (hne : elements ≠ []) (more : List Expression) :
    convertChain (elements ++ more) =
      (do convertRest (← convertChain elements) (Bound.extendAll (some []) elements) more) := by
  cases elements with
  | nil => exact absurd rfl hne
  | cons first rest =>
      simp only [List.cons_append, convertChain, convertRest_append, bind_assoc]
      rfl

theorem meets_self
    {α : Type} (result : Except ConversionError α) :
    Meets (fun a => result = .ok a) False result := by
  cases result with
  | ok a => rfl
  | error e => exact meets_error not_false e

/-- The next element is converted without what is passed on to it, and joined to the node. -/
theorem convertRest_cons_meets
    (n : Node) (bound : Bound) (element : Expression) (elements : List Expression) :
    Meets
      (fun m => ∃ (converted : Node) (t : Table) (now : Node),
        convert (fun p => !bound.passes p) element = .ok converted ∧
          t.primitives = converted.primitives ∧
          n.join? ⟨t, element.callParams.filter bound.passes⟩ = some now ∧
          convertRest now (bound.extend element.outputSchema?) elements = .ok m)
      False (convertRest n bound (element :: elements)) := by
  rw [convertRest]
  refine (meets_self _).bind id fun converted hconverted => ?_
  refine (converted.table?_keeps_primitives _).bind id fun t ht => ?_
  refine (n.joinTable_meets t _ _).bind id fun now hnow => ?_
  refine (meets_self _).mono ?_ id
  intro m hm
  exact ⟨converted, t, now, hconverted, ht, hnow, hm⟩

theorem convertRest_joins
    (n : Node) (bound : Bound) (elements : List Expression) :
    Meets (fun m => ∃ joins, n.joinAll? joins = some m ∧ joins.length = elements.length) False
      (convertRest n bound elements) := by
  induction elements generalizing n bound with
  | nil =>
      rw [convertRest]
      exact ⟨[], rfl, rfl⟩
  | cons element elements ih =>
      refine (convertRest_cons_meets n bound element elements).mono ?_ id
      rintro m ⟨_, t, now, _, _, hnow, hrest⟩
      obtain ⟨joins, hjoins, hlength⟩ := (ih now _).of_eq_ok hrest
      refine ⟨⟨t, element.callParams.filter bound.passes⟩ :: joins, ?_, congrArg (· + 1) hlength⟩
      rw [Node.joinAll?, List.foldlM_cons, hnow]
      exact hjoins

/-- The first element is converted as it stands, and the others are joined to it. -/
theorem convertChain_cons_meets
    (first : Expression) (rest : List Expression) :
    Meets
      (fun n => ∃ (start : Node) (joins : List Joined),
        first.toLegacy = .ok start ∧ start.joinAll? joins = some n ∧ joins.length = rest.length)
      False (convertChain (first :: rest)) := by
  rw [convertChain]
  refine (meets_self _).bind id fun start hstart => ?_
  refine (convertRest_joins start _ rest).mono ?_ id
  rintro n ⟨joins, hjoins, hlength⟩
  exact ⟨start, joins, hstart, hjoins, hlength⟩

/-- The join of an element holds what refers to the elements before it. -/
theorem convertChain_append_cons_meets
    {earlier : List Expression} (hne : earlier ≠ []) {element : Expression}
    (hplain : ∀ p ∈ element.primitives, p.hasOwnForm = false) {p : Primitive}
    (hp : element.primitive? = some p) (after : List Expression) :
    Meets
      (fun n => ∃ (before now : Node) (j : Joined) (joins : List Joined),
        convertChain earlier = .ok before ∧ j.Splits earlier p ∧ before.join? j = some now ∧
          now.joinAll? joins = some n ∧ joins.length = after.length)
      False (convertChain (earlier ++ element :: after)) := by
  rw [convertChain_append hne]
  refine (meets_self _).bind id fun before hbefore => ?_
  refine (convertRest_cons_meets before _ element after).mono ?_ id
  rintro n ⟨converted, t, now, hconverted, ht, hnow, hrest⟩
  obtain ⟨joins, hjoins, hlength⟩ := (convertRest_joins now _ after).of_eq_ok hrest
  have hpasses : Bound.passes (Bound.extendAll (some []) earlier) = Param.refersTo earlier :=
    funext (Bound.passes_extendAll earlier)
  rw [hpasses] at hconverted hnow
  have hown : converted.primitives =
      [p.withParams (p.params.filter fun q => !q.refersTo earlier)] :=
    ((convert_keeps_primitives _ element hplain).of_eq_ok hconverted).2 p hp
  refine ⟨before, now, _, joins, hbefore, ⟨?_, ht.trans hown⟩, hnow, hjoins, hlength⟩
  rw [Expression.callParams_of_primitive? hp]

theorem convertChain_meets_reads
    (elements : List Expression)
    (hplain : ∀ p ∈ Expression.primitivesOf elements, p.hasOwnForm = false) :
    Meets (fun n => n.Reads elements) False (convertChain elements) := by
  refine ((convertChain_keeps_primitives elements hplain).and_eq).mono ?_ id
  rintro n ⟨hcalls, hn⟩
  refine ⟨hcalls, ?_, ?_⟩
  · rintro first rest rfl
    rw [Expression.primitivesOf, List.forall_mem_append] at hplain
    obtain ⟨start, joins, hstart, hjoins, hlength⟩ :=
      (convertChain_cons_meets first rest).of_eq_ok hn
    exact ⟨start, joins, hstart, hjoins, hlength,
      ((toLegacy_keeps_primitives hplain.1).of_eq_ok hstart).2⟩
  · rintro earlier after element rfl hne p hp
    rw [Expression.primitivesOf_append, Expression.primitivesOf, List.forall_mem_append,
      List.forall_mem_append] at hplain
    exact (convertChain_append_cons_meets hne hplain.2.1 hp after).of_eq_ok hn

/-! ## Statements -/

theorem Node.statement_runs
    (n : Node) (a : Action) (range : Option Range) :
    Meets (fun s => ∃ trigger, n.trigger? = some trigger ∧ s = ⟨trigger, [a]⟩) False
      (n.statement a range) := by
  cases n with
  | table t => exact ⟨_, rfl, rfl⟩
  | stream s => exact ⟨_, rfl, rfl⟩
  | action _ => exact not_false

theorem Node.primitives_of_trigger?
    {n : Node} {trigger : Trigger} (h : n.trigger? = some trigger) :
    trigger.primitives = n.primitives := by
  cases n with
  | table _ | stream _ =>
      cases h
      rfl
  | action _ => cases h

theorem splitAction?_chain
    {info : Info} {elements earlier : List Expression} {last : Expression}
    (h : splitAction? (.chain info elements) = some (earlier, last)) :
    elements = earlier ++ [last] ∧ earlier ≠ [] := by
  unfold splitAction? at h
  dsimp only at h
  split at h
  next e hlast =>
      split at h
      next hseveral =>
          cases h
          refine ⟨(List.dropLast_append_getLast? _ hlast).symm, ?_⟩
          rw [← List.length_pos_iff, List.length_dropLast]
          omega
      next => cases h
  next => cases h

theorem convertBody_meets_reads
    (info : Info) (elements : List Expression)
    (hplain : ∀ p ∈ Expression.primitivesOf elements, p.hasOwnForm = false) (word : String) :
    Meets
      (fun s => s.primitives.map Primitive.bare =
          (Expression.primitivesOf elements).map Primitive.bare ∧
        s.Reads elements word)
      False (convertBody (.chain info elements) word) := by
  unfold convertBody
  split
  next earlier last hsplit =>
      -- The action at the end is converted by itself, and runs for the results of the others.
      obtain ⟨rfl, hne⟩ := splitAction?_chain hsplit
      rw [Expression.primitivesOf_append, Expression.primitivesOf, Expression.primitivesOf,
        List.append_nil] at hplain ⊢
      rw [List.forall_mem_append] at hplain
      refine (toLegacy_keeps_primitives hplain.2).and_eq.bind id ?_
      rintro node ⟨⟨hcalls, hsingle⟩, hlast⟩
      cases node with
      | table _ | stream _ => exact not_false
      | action a =>
          refine (convertChain_meets_reads earlier hplain.1).bind id fun n hn => ?_
          refine (n.statement_runs a _).mono ?_ id
          rintro s ⟨trigger, htrigger, rfl⟩
          refine ⟨?_, .split rfl hne hn htrigger hlast hsingle⟩
          rw [Statement.primitives, Node.primitives_of_trigger? htrigger, List.flatMap_singleton,
            List.map_append, List.map_append, hn.calls]
          exact congrArg _ hcalls
  next hwhole =>
      -- The chain is converted as a whole, and what is no action hands its results to `word`.
      rw [convert]
      refine (convertChain_meets_reads elements hplain).bind id fun n hn => ?_
      cases n with
      | action a =>
          refine ⟨?_, .action hn⟩
          rw [← hn.calls]
          simp [Statement.primitives, Trigger.primitives, Node.primitives]
      | table _ | stream _ =>
          refine (Node.statement_runs _ _ _).mono ?_ id
          rintro s ⟨trigger, htrigger, rfl⟩
          refine ⟨?_, .results hn htrigger⟩
          rw [← hn.calls, ← Node.primitives_of_trigger? htrigger]
          simp [Statement.primitives, Action.primitives]

/-- A conversion of a chain loses, repeats and misplaces no parameter. -/
theorem chain_keeps_params
    (info : Info) (elements : List Expression)
    (hplain : ∀ p ∈ Expression.primitivesOf elements, p.hasOwnForm = false) :
    (∀ n, (Expression.chain info elements).toLegacy = .ok n → n.Reads elements) ∧
      ∀ word s, convertBody (.chain info elements) word = .ok s →
        s.primitives.map Primitive.bare =
            (Expression.primitivesOf elements).map Primitive.bare ∧
          s.Reads elements word := by
  refine ⟨fun n hn => ?_, fun word s hs => ?_⟩
  · rw [Expression.toLegacy, convert] at hn
    exact (convertChain_meets_reads elements hplain).of_eq_ok hn
  · exact (convertBody_meets_reads info elements hplain word).of_eq_ok hs

/-- News in another language, which are found in this one. -/
def Digest.translated : List Expression :=
  [.clause {}
      (.invocation { schema := some Checker.Digest.search }
        ⟨.device (.ofKind "com.news"), "search", [⟨"topic", .string "Lean", none⟩], none,
          some Checker.Digest.search⟩)
      (.named "news"),
    .invocation {}
      ⟨.device (.ofKind "com.translator"), "translate",
        [⟨"target", .var "language" none, none⟩, ⟨"text", .var "title" none, none⟩], none, none⟩]

theorem translated_keeps_params :
    ∃ n s,
      (Expression.chain {} Digest.translated).toLegacy = .ok n ∧
        convertBody (.chain {} Digest.translated) "notify" = .ok s ∧
        n.Reads Digest.translated ∧
        s.primitives.map Primitive.bare =
          (Expression.primitivesOf Digest.translated).map Primitive.bare ∧
        s.Reads Digest.translated "notify" := by
  have hplain : ∀ p ∈ Expression.primitivesOf Digest.translated, p.hasOwnForm = false := by
    decide
  obtain ⟨hnode, hstatement⟩ := chain_keeps_params {} Digest.translated hplain
  obtain ⟨n, s, hn, hs⟩ : ∃ n s,
      (Expression.chain {} Digest.translated).toLegacy = .ok n ∧
        convertBody (.chain {} Digest.translated) "notify" = .ok s :=
    ⟨_, _, rfl, rfl⟩
  obtain ⟨hcalls, hreads⟩ := hstatement "notify" s hs
  exact ⟨n, s, hn, hs, hnode n hn, hcalls, hreads⟩

end Legacy

end SkillLang

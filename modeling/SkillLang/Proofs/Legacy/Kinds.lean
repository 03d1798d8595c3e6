import SkillLang.Proofs.Legacy.Conversion

/-!
# Kinds of legacy statements

A statement keeps its kind in the legacy language.  A query becomes a table and a stream a
stream, whose results are shown or returned.  An action stays an action, and if it ends a
chain, it runs for the results of what comes before it.
-/

namespace SkillLang

namespace Expression

mutual
/-- An expression and all that are inside of it. -/
def subexpressions : Expression → List Expression
  | .call info name params => [.call info name params]
  | .invocation info i => [.invocation info i]
  | .clause info inner c => .clause info inner c :: inner.subexpressions
  | .chain info elements => .chain info elements :: subexpressionsOf elements
  | .join info lhs rhs => .join info lhs rhs :: (lhs.subexpressions ++ rhs.subexpressions)

def subexpressionsOf : List Expression → List Expression
  | [] => []
  | e :: es => e.subexpressions ++ subexpressionsOf es
end

/-- What comes last in a chain of several elements; other expressions are their own end. -/
def ending : Expression → Expression
  | .chain _ (_ :: second :: rest) => (second :: rest).getLast (List.cons_ne_nil _ _)
  | e => e

/-- The kind of what comes first in a chain of several elements. -/
def beginning? : Expression → Option FunctionType
  | .chain _ (first :: _ :: _) => first.functionType
  | _ => none

/-- What a statement with this expression is in the legacy language.  The word tells what is done
with results that no action takes. -/
def BecomesStatement (word : String) (e : Expression) (l : Legacy.Statement) : Prop :=
  match e.functionType with
  | some .query => ∃ t, l = ⟨.table t, [.notify word]⟩
  | some .stream => ∃ s, l = ⟨.stream s, [.notify word]⟩
  | some .action =>
    (∃ a, e.ending.toLegacy = .ok (.action a) ∧ l.actions = [a]) ∧
      match e.beginning? with
      | some .stream => ∃ s, l.trigger = .stream s
      | some .query => ∃ t, l.trigger = .table t
      | _ => l.trigger = .now
  | none => False

/-- A chain is a statement also if it ends with an action. -/
def SeparatesAsStatement : Expression → Prop
  | .chain _ elements => AllSeparate elements
  | e => e.Separates

end Expression

/-- All expressions of a program with those inside of them. -/
def Program.subexpressions (p : Program) : List Expression :=
  (p.declarations.flatMap FunctionDeclaration.statements ++ p.statements).flatMap
    fun statement => statement.body.subexpressions

/-- What is done with the results of a statement. -/
def Statement.word : Statement → String
  | .ret _ _ => "return"
  | .expression _ | .assign _ _ _ => "notify"

namespace Checker

open Legacy

variable {σ : Type} {c : Checker σ}

/-- An expression comes out of a check where only builtin functions are known. -/
def AcceptsPlainly (c : Checker σ) (expression' : Expression) (schema : Signature) : Prop :=
  ∃ scope depth expression, scope.functions = [] ∧
    c.AcceptsExpression scope depth expression expression' schema

theorem AcceptsPlainly.schema_eq
    {e : Expression} {schema : Signature} (h : c.AcceptsPlainly e schema) :
    e.schema = some schema := by
  obtain ⟨_, _, _, _, h⟩ := h
  exact h.schema_eq

theorem AcceptsPlainly.toLegacy_meets
    {e : Expression} {schema : Signature} (h : c.AcceptsPlainly e schema) :
    Meets (fun n => n.functionType = schema.type ∧ e.Separates) e.Separates e.toLegacy := by
  obtain ⟨scope, depth, _, hscope, h⟩ := h
  exact (h.convert_meets hscope _).mono (fun _ => id) fun hs => ⟨hs, fun _ _ => rfl⟩

/-! ## Chains -/

theorem AcceptsChain.plainly
    {scope : Scope} (hscope : scope.functions = []) {depth : Nat} {isFirst : Bool}
    {elements elements' : List Expression} {schemas : List Signature}
    (h : c.AcceptsChain scope depth isFirst elements elements' schemas) :
    ∀ e ∈ elements', ∃ schema, c.AcceptsPlainly e schema := by
  induction elements generalizing scope isFirst elements' schemas with
  | nil =>
      cases h
      intro e hmem
      cases hmem
  | cons element elements ih =>
      cases h with
      | @cons _ _ _ _ schema _ _ _ _ helement _ hrest =>
          rw [List.forall_mem_cons]
          refine ⟨⟨schema, scope, depth, element, hscope, helement⟩, ih ?_ hrest⟩
          exact (functions_addOutputs _ _).trans hscope

theorem isMisplaced_of_not_last
    {type : FunctionType} {isFirst : Bool} (h : isMisplaced type isFirst false = false)
    (isLast : Bool) :
    isMisplaced type isFirst isLast = false := by
  cases type with
  | stream => exact h
  | query => rfl
  | action => cases h

theorem AcceptsChain.dropLast
    {scope : Scope} {depth : Nat} {isFirst : Bool} {elements elements' : List Expression}
    {schemas : List Signature}
    (h : c.AcceptsChain scope depth isFirst elements elements' schemas) :
    c.AcceptsChain scope depth isFirst elements.dropLast elements'.dropLast schemas.dropLast := by
  induction elements generalizing scope isFirst elements' schemas with
  | nil =>
      cases h
      exact .nil
  | cons element elements ih =>
      cases h with
      | cons helement hplace hrest =>
          cases hrest with
          | nil => exact .nil
          | cons hsecond hsecondPlace hmore =>
              -- The element before the last one may be the last one now.
              refine .cons helement ?_ (ih (.cons hsecond hsecondPlace hmore))
              exact isMisplaced_of_not_last hplace _

end Checker

theorem FunctionType.ofChain_of_not_mem
    {types : List FunctionType} (h : .action ∉ types) :
    ofChain types = types.head? := by
  rw [ofChain, if_neg]
  intro hlast
  exact h (List.mem_of_getLast? hlast)

theorem Expression.allSeparate_iff
    (es : List Expression) :
    AllSeparate es ↔ ∀ e ∈ es, e.Separates := by
  induction es with
  | nil => simp [AllSeparate]
  | cons e es ih => rw [AllSeparate, ih, List.forall_mem_cons]

theorem Expression.allSeparate_of_dropLast
    {es : List Expression} {last : Expression} (hlast : es.getLast? = some last)
    (h : AllSeparate es.dropLast) (hseparates : last.Separates) :
    AllSeparate es := by
  rw [allSeparate_iff] at h ⊢
  rw [← List.dropLast_append_getLast? last hlast]
  intro e he
  rcases List.mem_append.mp he with hinit | hend
  · exact h e hinit
  · rw [List.mem_singleton.mp hend]
    exact hseparates

namespace Legacy

theorem Node.statement_meets
    {n : Node} {P : Statement → Prop} {sound : Prop} (a : Action) (range : Option Range)
    (htable : ∀ t, n = .table t → P ⟨.table t, [a]⟩)
    (hstream : ∀ s, n = .stream s → P ⟨.stream s, [a]⟩) (hne : n.functionType ≠ .action) :
    Meets P sound (n.statement a range) := by
  cases n with
  | table t => exact htable t rfl
  | stream s => exact hstream s rfl
  | action _ => exact absurd rfl hne

end Legacy

/-- An expression is a chain of several elements, or it is converted as a whole. -/
theorem Expression.several_or_whole (e : Expression) :
    (∃ info first second rest, e = .chain info (first :: second :: rest)) ∨
      Legacy.splitAction? e = none ∧ e.ending = e ∧ e.beginning? = none ∧
        (e.SeparatesAsStatement ↔ e.Separates) := by
  match e with
  | .chain info (first :: second :: rest) => exact .inl ⟨info, first, second, rest, rfl⟩
  | .chain _ [] =>
      exact .inr ⟨rfl, rfl, rfl, fun h => ⟨h, fun hlength => nomatch hlength⟩, And.left⟩
  | .chain _ [_] =>
      refine .inr ⟨?_, rfl, rfl, fun h => ⟨h, fun hlength => ?_⟩, And.left⟩
      · simp [Legacy.splitAction?]
      · exact absurd hlength (Nat.lt_irrefl 1)
  | .call _ _ _ | .invocation _ _ | .clause _ _ _ | .join _ _ _ =>
      exact .inr ⟨rfl, rfl, rfl, .rfl⟩

namespace Checker

open Legacy

variable {σ : Type} {c : Checker σ}

/-! ## Statements -/

theorem becomesStatement_of_results
    {e : Expression} {schema : Signature} (hschema : e.schema = some schema) {n : Legacy.Node}
    (hn : n.functionType = schema.type) (hne : schema.type ≠ .action) {sound : Prop}
    (word : String) (range : Option Range) :
    Meets (e.BecomesStatement word) sound (n.statement (.notify word) range) := by
  have htype : e.functionType = some n.functionType := by
    rw [Expression.functionType, hschema, Option.map_some, hn]
  refine Node.statement_meets _ _ ?_ ?_ (hn ▸ hne)
  · rintro t rfl
    rw [Expression.BecomesStatement, htype]
    exact ⟨t, rfl⟩
  · rintro s rfl
    rw [Expression.BecomesStatement, htype]
    exact ⟨s, rfl⟩

theorem becomesStatement_of_action
    {e : Expression} {a : Legacy.Action} (hfunction : e.functionType = some .action)
    (hending : e.ending.toLegacy = .ok (.action a)) {n : Legacy.Node}
    (hbeginning : e.beginning? = some n.functionType) (hne : n.functionType ≠ .action)
    {sound : Prop} (word : String) (range : Option Range) :
    Meets (e.BecomesStatement word) sound (n.statement a range) := by
  refine Node.statement_meets _ _ ?_ ?_ hne
  · rintro t rfl
    rw [Expression.BecomesStatement, hfunction]
    refine ⟨⟨a, hending, rfl⟩, ?_⟩
    rw [hbeginning]
    exact ⟨t, rfl⟩
  · rintro s rfl
    rw [Expression.BecomesStatement, hfunction]
    refine ⟨⟨a, hending, rfl⟩, ?_⟩
    rw [hbeginning]
    exact ⟨s, rfl⟩

theorem AcceptsPlainly.whole_meets
    {e : Expression} {schema : Signature} (h : c.AcceptsPlainly e schema)
    (hsplit : splitAction? e = none)
    (haction : schema.type = .action → e.ending = e ∧ e.beginning? = none) (word : String) :
    Meets (fun l => e.BecomesStatement word l ∧ e.Separates) e.Separates (convertBody e word) := by
  rw [convertBody, hsplit]
  refine h.toLegacy_meets.and_eq.bind id ?_
  rintro n ⟨⟨hn, hseparates⟩, hconvert⟩
  -- The node and the signature are of one kind, so the cases of one are those of the other.
  by_cases htype : schema.type = .action
  · obtain ⟨hending, hbeginning⟩ := haction htype
    cases n with
    | table _ | stream _ => exact nomatch hn.trans htype
    | action a =>
        have hfunction : e.functionType = some .action := by
          rw [Expression.functionType, h.schema_eq, Option.map_some, htype]
        refine ⟨?_, hseparates⟩
        rw [Expression.BecomesStatement, hfunction]
        dsimp only
        rw [hending, hbeginning]
        exact ⟨⟨a, hconvert, rfl⟩, rfl⟩
  · have hresults : Meets (e.BecomesStatement word) e.Separates
        (n.statement (.notify word) e.range) :=
      becomesStatement_of_results h.schema_eq hn htype word e.range
    cases n with
    | table _ | stream _ => exact hresults.mono (fun _ hl => ⟨hl, hseparates⟩) id
    | action _ => exact absurd hn.symm htype

theorem getLast?_eq_ending
    (info : Info) (first second : Expression) (rest : List Expression) :
    (first :: second :: rest).getLast? =
      some (Expression.chain info (first :: second :: rest)).ending := by
  rw [List.getLast?_cons_cons, List.getLast?_eq_some_getLast (List.cons_ne_nil _ _)]
  rfl

theorem splitAction?_several
    (info : Info) (first second : Expression) (rest : List Expression) :
    splitAction? (.chain info (first :: second :: rest)) =
      if (Expression.chain info (first :: second :: rest)).ending.classify = .action then
        some ((first :: second :: rest).dropLast,
          (Expression.chain info (first :: second :: rest)).ending)
      else none := by
  have hlength : 1 < (first :: second :: rest).length := by simp
  rw [splitAction?, getLast?_eq_ending info]
  dsimp only
  simp only [hlength, true_and]

theorem ending_mem
    (info : Info) (first second : Expression) (rest : List Expression) :
    (Expression.chain info (first :: second :: rest)).ending ∈ first :: second :: rest :=
  List.mem_cons_of_mem _ (List.getLast_mem _)

/-- The conversion and the check agree on which chains end with an action. -/
theorem AcceptsPlainly.ending_isAction
    {info : Info} {first second : Expression} {rest : List Expression} {schema : Signature}
    (h : c.AcceptsPlainly (.chain info (first :: second :: rest)) schema) :
    (Expression.chain info (first :: second :: rest)).ending.classify = .action ↔
      schema.type = .action := by
  obtain ⟨scope, depth, _, hscope, h⟩ := h
  cases h with
  | @chain _ _ _ _ schemas range _ _ _ _ hchain hchained =>
      obtain ⟨last, hlast⟩ := hchain.plainly hscope _ (ending_mem ⟨range, some schema⟩ _ _ _)
      have hof := Signature.type_of_chained hchained hchain.stream_first hchain.action_last
      have hends := congrArg List.getLast? hchain.functionTypes_eq
      rw [List.getLast?_map, List.getLast?_map, getLast?_eq_ending ⟨range, some schema⟩,
        Option.map_some, Expression.functionType, hlast.schema_eq, Option.map_some] at hends
      have hlastType : (schemas.map Signature.type).getLast? = some last.type := by
        cases htypes : (schemas.map Signature.type).getLast? with
        | none =>
            rw [htypes] at hends
            cases hends
        | some type =>
            rw [htypes] at hends
            cases hends
            rfl
      have hiff := FunctionType.ofChain_eq_action_iff hchain.action_last
      rw [← hof, hlastType, Option.some_inj, Option.some_inj] at hiff
      rw [Expression.classify_eq hlast.schema_eq]
      exact hiff.symm

theorem AcceptsChain.convert_dropLast_meets
    {scope : Scope} (hscope : scope.functions = []) {depth : Nat} {elements : List Expression}
    {first second : Expression} {rest : List Expression} {schemas : List Signature}
    (h : c.AcceptsChain scope depth true elements (first :: second :: rest) schemas) :
    Meets
      (fun n => first.functionType = some n.functionType ∧ n.functionType ≠ .action ∧
        Expression.AllSeparate (first :: second :: rest).dropLast)
      (Expression.AllSeparate (first :: second :: rest))
      (convertChain (first :: second :: rest).dropLast) := by
  match schemas, h with
  | schema :: next :: schemas, h =>
      have htypes := h.functionTypes_eq
      have haction := h.action_last
      have hof := FunctionType.ofChain_of_not_mem haction
      rw [← List.map_dropLast] at haction hof
      refine (h.dropLast.convertChain_meets hscope (List.cons_ne_nil _ _)).mono ?_ ?_
      · rintro n ⟨hn, hseparate, -⟩
        have hfirst : schema.type = n.functionType := Option.some.inj (hof.symm.trans hn)
        rw [← hfirst]
        refine ⟨(List.cons.inj htypes).1, ?_, hseparate⟩
        intro htype
        exact haction (htype ▸ List.mem_cons_self)
      · intro hseparate
        rw [Expression.allSeparate_iff] at hseparate ⊢
        exact ⟨fun e he => hseparate e (List.dropLast_subset _ he), fun _ => haction⟩

theorem AcceptsPlainly.split_meets
    {info : Info} {first second : Expression} {rest : List Expression} {schema : Signature}
    (h : c.AcceptsPlainly (.chain info (first :: second :: rest)) schema)
    (htype : schema.type = .action) (word : String) :
    Meets
      (fun l => Expression.BecomesStatement word (.chain info (first :: second :: rest)) l ∧
        Expression.AllSeparate (first :: second :: rest))
      (Expression.AllSeparate (first :: second :: rest))
      (convertBody (.chain info (first :: second :: rest)) word) := by
  have hfunction : (Expression.chain info (first :: second :: rest)).functionType =
      some .action := by
    rw [Expression.functionType, h.schema_eq, Option.map_some, htype]
  have hclassify := h.ending_isAction.mpr htype
  obtain ⟨scope, depth, _, hscope, h⟩ := h
  cases h with
  | @chain _ _ _ _ _ range _ _ _ _ hchain _ =>
      have hmem := ending_mem ⟨range, some schema⟩ first second rest
      obtain ⟨last, hlast⟩ := hchain.plainly hscope _ hmem
      have hkind : last.type = .action :=
        (Expression.classify_eq hlast.schema_eq).symm.trans hclassify
      rw [convertBody, splitAction?_several, if_pos hclassify]
      refine hlast.toLegacy_meets.and_eq.bind ?_ ?_
      · intro hseparate
        exact (Expression.allSeparate_iff _).mp hseparate _ hmem
      rintro n ⟨⟨hn, hseparates⟩, hconvert⟩
      cases n with
      | table _ | stream _ => cases hn.trans hkind
      | action a =>
          refine (hchain.convert_dropLast_meets hscope).bind id ?_
          rintro m ⟨hfirst, hne, hbefore⟩
          have hall := Expression.allSeparate_of_dropLast
            (getLast?_eq_ending ⟨range, some schema⟩ first second rest) hbefore hseparates
          refine (becomesStatement_of_action hfunction hconvert hfirst hne word _).mono ?_ id
          exact fun _ hl => ⟨hl, hall⟩

theorem AcceptsPlainly.convertBody_meets
    {e : Expression} {schema : Signature} (h : c.AcceptsPlainly e schema) (word : String) :
    Meets (fun l => e.BecomesStatement word l ∧ e.SeparatesAsStatement) e.SeparatesAsStatement
      (convertBody e word) := by
  rcases e.several_or_whole with ⟨info, first, second, rest, rfl⟩ | hwhole
  · by_cases htype : schema.type = .action
    · exact h.split_meets htype word
    · have hsplit : splitAction? (.chain info (first :: second :: rest)) = none := by
        rw [splitAction?_several, if_neg]
        exact fun hclassify => htype (h.ending_isAction.mp hclassify)
      refine (h.whole_meets hsplit (fun haction => absurd haction htype) word).mono ?_ ?_
      · rintro l ⟨hl, hseparate, -⟩
        exact ⟨hl, hseparate⟩
      · intro hseparate
        refine ⟨hseparate, fun _ haction => htype ?_⟩
        rw [show info.schema = some schema from h.schema_eq] at haction
        exact Option.some.inj haction
  · obtain ⟨hsplit, hending, hbeginning, hiff⟩ := hwhole
    rw [hiff]
    exact h.whole_meets hsplit (fun _ => ⟨hending, hbeginning⟩) word

/-- A converted statement had only builtin functions to call, and keeps its kind. -/
def Converts (c : Checker σ) (statement : Statement) (l : Legacy.Statement) : Prop :=
  (∃ schema, c.AcceptsPlainly statement.body schema) ∧
    statement.body.BecomesStatement statement.word l ∧ statement.body.SeparatesAsStatement

theorem Converts.cons_meets
    (statement : Statement) {rest : List Statement} {schema : Signature}
    (hbody : c.AcceptsPlainly statement.body schema)
    (hfirst : Meets
      (fun l => statement.body.BecomesStatement statement.word l ∧
        statement.body.SeparatesAsStatement)
      statement.body.SeparatesAsStatement statement.toLegacy)
    (hrest : Meets (List.Forall₂ c.Converts rest)
      (∀ statement ∈ rest, statement.body.SeparatesAsStatement) (rest.mapM Statement.toLegacy)) :
    Meets (List.Forall₂ c.Converts (statement :: rest))
      (∀ other ∈ statement :: rest, other.body.SeparatesAsStatement)
      ((statement :: rest).mapM Statement.toLegacy) := by
  rw [List.mapM_cons]
  refine hfirst.bind (fun hs => hs _ List.mem_cons_self) fun l hl => ?_
  refine hrest.bind (fun hs other hmem => hs other (List.mem_cons_of_mem _ hmem)) fun ls hls => ?_
  exact .cons ⟨⟨schema, hbody⟩, hl⟩ hls

theorem AcceptsStatements.toLegacy_meets
    {scope : Scope} (hscope : scope.functions = []) {statements statements' : List Statement}
    {schemas : List Signature} (h : c.AcceptsStatements scope statements statements' schemas) :
    Meets (List.Forall₂ c.Converts statements')
      (∀ statement ∈ statements', statement.body.SeparatesAsStatement)
      (statements'.mapM Statement.toLegacy) := by
  induction h with
  | nil => exact .nil
  | cons hstatement hrest ih =>
      have hplain : ∀ {e e' : Expression} {schema : Signature},
          c.AcceptsExpression _ 0 e e' schema → c.AcceptsPlainly e' schema :=
        fun hbody => ⟨_, _, _, hscope, hbody⟩
      cases hstatement with
      | @expression e e' _ range hbody =>
          exact Converts.cons_meets (.expression ⟨e', range⟩) (hplain hbody)
            ((hplain hbody).convertBody_meets "notify") (ih hscope)
      | @ret e e' _ range hbody =>
          exact Converts.cons_meets (.ret e' range) (hplain hbody)
            ((hplain hbody).convertBody_meets "return") (ih hscope)
      | assign _ =>
          -- The functions that come into scope here are never seen: there is no equivalent.
          rw [List.mapM_cons]
          trivial

/-! ## Subexpressions -/

mutual

theorem AcceptsExpression.subexpressions_plainly
    {scope : Scope} (hscope : scope.functions = []) {depth : Nat}
    {expression expression' : Expression} {schema : Signature} :
    c.AcceptsExpression scope depth expression expression' schema →
      ∀ e ∈ expression'.subexpressions, ∃ schema, c.AcceptsPlainly e schema
  | h@(.call _ _ _) | h@(.invocation _ _ _) => by
      rw [Expression.subexpressions, List.forall_mem_singleton]
      exact ⟨_, _, _, _, hscope, h⟩
  | h@(.clause _ hinner _) => by
      rw [Expression.subexpressions, List.forall_mem_cons]
      exact ⟨⟨_, _, _, _, hscope, h⟩, hinner.subexpressions_plainly hscope⟩
  | h@(.chain _ _ helements _) => by
      rw [Expression.subexpressions, List.forall_mem_cons]
      exact ⟨⟨_, _, _, _, hscope, h⟩, helements.subexpressions_plainly hscope⟩
  | h@(.join _ hlhs _ hrhs _) => by
      rw [Expression.subexpressions, List.forall_mem_cons, List.forall_mem_append]
      exact ⟨⟨_, _, _, _, hscope, h⟩, hlhs.subexpressions_plainly hscope,
        hrhs.subexpressions_plainly ((functions_addOutputs _ _).trans hscope)⟩

theorem AcceptsChain.subexpressions_plainly
    {scope : Scope} (hscope : scope.functions = []) {depth : Nat} {isFirst : Bool}
    {elements elements' : List Expression} {schemas : List Signature} :
    c.AcceptsChain scope depth isFirst elements elements' schemas →
      ∀ e ∈ Expression.subexpressionsOf elements', ∃ schema, c.AcceptsPlainly e schema
  | .nil => fun _ h => nomatch h
  | .cons helement _ helements => by
      rw [Expression.subexpressionsOf, List.forall_mem_append]
      exact ⟨helement.subexpressions_plainly hscope,
        helements.subexpressions_plainly ((functions_addOutputs _ _).trans hscope)⟩

end

/-! ## Programs -/

theorem AcceptsInput.toLegacy_meets
    {p q : Program} (h : c.AcceptsInput (.program p) (.program q)) :
    Meets
      (fun l => q.declarations = [] ∧
        List.Forall₂ (c.forProgram p).Converts q.statements l.statements)
      (∀ statement ∈ q.statements, statement.body.SeparatesAsStatement) q.toLegacy := by
  obtain ⟨classes, declarations, statements, range⟩ := p
  cases h with
  | program hdeclarations hstatements =>
      rw [Program.toLegacy]
      cases hdeclarations with
      | cons _ _ => trivial
      | nil =>
          refine (hstatements.toLegacy_meets rfl).bind id fun ls hls => ?_
          exact ⟨rfl, hls⟩

/-- A checked program that has a legacy form keeps the kinds of its statements, and so do all of
its subexpressions that have one, whatever the source of signatures answers. -/
theorem toLegacy_keeps_kinds
    {p q : Program} {s : Session σ} {l : Legacy.Program}
    (h : ((c.check (.program p)).runIn s).1 = .ok (.program q)) (hl : q.toLegacy = .ok l) :
    List.Forall₂ (fun statement => statement.body.BecomesStatement statement.word)
        q.statements l.statements ∧
      ∀ e ∈ q.subexpressions, ∀ n, e.toLegacy = .ok n → e.functionType = some n.functionType := by
  obtain ⟨hdeclarations, hstatements⟩ := (acceptsInput_of_check h).toLegacy_meets.of_eq_ok hl
  obtain ⟨hplain, hbecome⟩ := (List.forall₂_and_left _ _).mp hstatements
  refine ⟨hbecome.imp fun _ _ => And.left, ?_⟩
  intro e he n hn
  rw [Program.subexpressions, hdeclarations, List.flatMap_nil, List.nil_append,
    List.mem_flatMap] at he
  obtain ⟨statement, hstatement, he⟩ := he
  obtain ⟨_, _, _, _, hscope, hbody⟩ := hplain statement hstatement
  obtain ⟨schema, haccepts⟩ := hbody.subexpressions_plainly hscope e he
  rw [Expression.functionType, haccepts.schema_eq, Option.map_some]
  exact congrArg some (haccepts.toLegacy_meets.of_eq_ok hn).1.symm

theorem digest_keeps_kinds :
    ∃ q l,
      ((Digest.checker.check (.program (Digest.program []))).runIn Digest.session).1 =
          .ok (.program q) ∧
        q.toLegacy = .ok l ∧
        List.Forall₂ (fun statement => statement.body.BecomesStatement statement.word)
          q.statements l.statements ∧
        ∀ e ∈ q.subexpressions, ∀ n, e.toLegacy = .ok n →
          e.functionType = some n.functionType := by
  obtain ⟨q, l, h, hl⟩ : ∃ q l,
      ((Digest.checker.check (.program (Digest.program []))).runIn Digest.session).1 =
          .ok (.program q) ∧
        q.toLegacy = .ok l :=
    ⟨_, _, rfl, rfl⟩
  exact ⟨q, l, h, hl, toLegacy_keeps_kinds h hl⟩

end Checker

end SkillLang

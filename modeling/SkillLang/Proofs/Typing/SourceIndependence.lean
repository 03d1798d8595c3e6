import SkillLang.Proofs.ActionAgreement
import SkillLang.Proofs.Insertion
import SkillLang.Proofs.Syntax.Parts
import SkillLang.Proofs.Syntax.Referenced
import SkillLang.Proofs.Typing.CheckOfAcceptance
import SkillLang.Proofs.Typing.Selectors

/-!
# What a check asks its source

A checker asks its source of signatures about the functions that an input refers to and
does not define itself, and about no others.  So two sources that answer these alike
cannot be told apart by checking the input: the result is the same, and so is the error
if there is one.  The proof follows two runs of the checker side by side.
-/

namespace SkillLang

def LookupKey.qualifiedName (key : LookupKey) : String :=
  "@" ++ key.device ++ "." ++ key.channel

/-- The function that a program defines for a key, in the last of its classes of that name. -/
def Program.function? (p : Program) (key : LookupKey) : Option Signature :=
  (p.classes.reverse.find? fun d => d.kind == key.device).bind fun d =>
    d.function? key.channel key.kind.functionType?

def Input.Defines (input : Input) (key : LookupKey) : Prop :=
  ∃ p, input = .program p ∧ (p.function? key).isSome = true

theorem Device.kind_of_normalize
    {d normal : Device} (h : d.normalize = .ok normal) :
    normal.kind = d.kind := by
  rw [Device.normalize_eq_folded h]
  rfl

namespace Checker

open SkillLang.Action SkillLang.Tree

variable {σ : Type} {c : Checker σ} {other : SchemaSource σ}

/-- The checker with another source of signatures. -/
def withSource (c : Checker σ) (other : SchemaSource σ) : Checker σ :=
  { c with source := other }

/-- For the function that a node refers to, if any, both sources lead to the same signature. -/
def AnswersAlike (c : Checker σ) (other : SchemaSource σ) (label : Node) : Prop :=
  ∀ name, label.referenced? = some name → ∀ key : LookupKey, key.qualifiedName = name →
    (c.deviceSignature key).Agree ((c.withSource other).deviceSignature key)

/-! ## Lookups -/

theorem agree_guardDepth (depth : Nat) :
    (guardDepth depth : Check σ Unit).Agree (guardDepth depth) :=
  (agree_throw _).ite (agree_pure ())

theorem agree_overload
    (table : OperatorTable) (op : String) (types : List Ty) (range : Option Range) :
    (c.overload table op types range).Agree
      ((c.withSource other).overload table op types range) := by
  have hlenient : (c.withSource other).lenient = c.lenient := rfl
  unfold overload
  rw [hlenient]
  cases table.resolve? op types c.lenient with
  | none => exact (agree_record _ _).bind fun _ => agree_throw _
  | some chosen => exact agree_pure chosen

theorem agree_lookup
    {key : LookupKey} (h : ∀ s t, (c.source key s).1 = (other key t).1) :
    (c.lookup key).Agree ((c.withSource other).lookup key) := by
  intro s t
  rw [lookup_result, lookup_result]
  exact congrArg (Except.mapError TypeError.schema) (h s.state t.state)

/-- The function of a class is found without a question to the source. -/
theorem agree_deviceSignature
    {key : LookupKey}
    (h : ((Keyed.find? key.device c.classes).bind fun found =>
        found.function? key.channel key.kind.functionType?) = none →
      ∀ s t, (c.source key s).1 = (other key t).1) :
    (c.deviceSignature key).Agree ((c.withSource other).deviceSignature key) := by
  have hclasses : (c.withSource other).classes = c.classes := rfl
  unfold deviceSignature
  rw [hclasses]
  cases hfound : (Keyed.find? key.device c.classes).bind fun found =>
      found.function? key.channel key.kind.functionType? with
  | none => exact agree_lookup (h hfound)
  | some found => exact agree_pure found

/-- A selector keeps its class when it is brought into normal form, so the source is asked about
the function that the call names. -/
theorem agree_resolve
    {selector : Selector} {channel : String} {kind : LookupKind} {range : Option Range}
    (h : ∀ d, selector = .device d →
      (c.deviceSignature ⟨d.kind, channel, kind⟩).Agree
        ((c.withSource other).deviceSignature ⟨d.kind, channel, kind⟩)) :
    (c.resolve selector channel kind range).Agree
      ((c.withSource other).resolve selector channel kind range) := by
  cases selector with
  | builtin =>
      simp only [resolve]
      cases Builtin.function? channel with
      | none => exact agree_throw _
      | some found => exact agree_pure _
  | device d =>
      simp only [resolve]
      refine agree_ofExcept_bind fun normal hnormal => ?_
      have hanswers := h d rfl
      rw [← Device.kind_of_normalize hnormal] at hanswers
      exact hanswers.bind fun _ => agree_pure _

theorem AnswersAlike.resolve
    {label : Node} {selector : Selector} {channel : String} {kind : LookupKind}
    {range : Option Range} (h : c.AnswersAlike other label)
    (hname : ∀ d, selector = .device d →
      label.referenced? = some ("@" ++ d.kind ++ "." ++ channel)) :
    (c.resolve selector channel kind range).Agree
      ((c.withSource other).resolve selector channel kind range) := by
  apply agree_resolve
  intro d hd
  exact h _ (hname d hd) ⟨d.kind, channel, kind⟩ rfl

/-! ## Values and filters -/

mutual

theorem agree_checkValue
    (value : Value) {scope : Scope} {depth : Nat}
    (h : value.tree.Every (c.AnswersAlike other)) :
    (c.checkValue scope depth value).Agree
      ((c.withSource other).checkValue scope depth value) := by
  cases value with
  | var name known =>
      simp only [checkValue]
      refine (agree_guardDepth depth).bind fun _ => ?_
      cases scope.var? name with
      | none => exact agree_throw _
      | some type => exact agree_pure _
  | computation op operands noted known =>
      have hoperands := h.below rfl
      simp only [checkValue]
      exact (agree_guardDepth depth).bind fun _ =>
        (agree_checkValues operands hoperands).bind fun _ =>
          (agree_overload _ _ _ _).bind fun _ => agree_pure _
  | field inner name known =>
      have hinner := ((everyOf_cons _ _).mp (h.below rfl)).1
      simp only [checkValue]
      refine (agree_guardDepth depth).bind fun _ =>
        (agree_checkValue inner hinner).bind fun ⟨inner', type⟩ => ?_
      cases type.recordFields?.bind (Keyed.find? name) with
      | none => exact agree_throw _
      | some found => exact agree_pure _
  | filtered inner filter known =>
      obtain ⟨hinner, hrest⟩ := (everyOf_cons _ _).mp (h.below rfl)
      have hfilter := ((everyOf_cons _ _).mp hrest).1
      simp only [checkValue]
      refine (agree_guardDepth depth).bind fun _ =>
        (agree_checkValue inner hinner).bind fun ⟨inner', type⟩ => ?_
      cases type.recordFields? with
      | none => exact agree_throw _
      | some fields => exact (agree_checkFilter filter hfilter).bind fun _ => agree_pure _
  | array values known =>
      have hvalues := h.below rfl
      simp only [checkValue]
      exact (agree_guardDepth depth).bind fun _ =>
        (agree_checkElements values hvalues).bind fun _ => agree_pure _
  | object fields =>
      have hfields := h.below rfl
      simp only [checkValue]
      exact (agree_guardDepth depth).bind fun _ =>
        (agree_checkFields fields hfields).bind fun _ => agree_pure _
  | undefined _ | context _ _ | boolean _ | string _ | number _ | measure _ _
  | currency _ _ | place _ | date _ | time _ | entity _ | enum _ | event _ | argMap _ =>
      simp only [checkValue]
      exact (agree_guardDepth depth).bind fun _ => agree_pure _
termination_by structural value

theorem agree_checkValues
    (values : List Value) {scope : Scope} {depth : Nat}
    (h : EveryOf (c.AnswersAlike other) (Value.trees values)) :
    (c.checkValues scope depth values).Agree
      ((c.withSource other).checkValues scope depth values) := by
  cases values with
  | nil =>
      simp only [checkValues]
      exact agree_pure _
  | cons value values =>
      obtain ⟨hvalue, hvalues⟩ := (everyOf_cons _ _).mp h
      simp only [checkValues]
      exact (agree_checkValue value hvalue).bind fun _ =>
        (agree_checkValues values hvalues).bind fun _ => agree_pure _
termination_by structural values

theorem agree_checkElements
    (values : List Value) {scope : Scope} {depth : Nat} {first : Option Ty}
    (h : EveryOf (c.AnswersAlike other) (Value.trees values)) :
    (c.checkElements scope depth first values).Agree
      ((c.withSource other).checkElements scope depth first values) := by
  cases values with
  | nil =>
      simp only [checkElements]
      exact agree_pure _
  | cons value values =>
      obtain ⟨hvalue, hvalues⟩ := (everyOf_cons _ _).mp h
      simp only [checkElements]
      refine (agree_checkValue value hvalue).bind fun ⟨value', type⟩ => ?_
      exact Agree.ite (agree_throw_bind _ _ _) <|
        (agree_checkElements values hvalues).bind fun _ => agree_pure _
termination_by structural values

theorem agree_checkFields
    (fields : List (String × Value)) {scope : Scope} {depth : Nat}
    (h : EveryOf (c.AnswersAlike other) (Value.fieldTrees fields)) :
    (c.checkFields scope depth fields).Agree
      ((c.withSource other).checkFields scope depth fields) := by
  cases fields with
  | nil =>
      simp only [checkFields]
      exact agree_pure _
  | cons field fields =>
      obtain ⟨name, value⟩ := field
      obtain ⟨hvalue, hfields⟩ := (everyOf_cons _ _).mp h
      simp only [checkFields]
      exact (agree_checkValue value hvalue).bind fun _ =>
        (agree_checkFields fields hfields).bind fun _ => agree_pure _
termination_by structural fields

theorem agree_checkFilter
    (filter : Filter) {schema : Signature} {scope : Scope} {depth : Nat}
    (h : filter.tree.Every (c.AnswersAlike other)) :
    (c.checkFilter schema scope depth filter).Agree
      ((c.withSource other).checkFilter schema scope depth filter) := by
  cases filter with
  | always | never =>
      simp only [checkFilter]
      exact (agree_guardDepth depth).bind fun _ => agree_pure _
  | conj range operands | disj range operands =>
      have hoperands := h.below rfl
      simp only [checkFilter]
      exact (agree_guardDepth depth).bind fun _ =>
        (agree_checkFilters operands hoperands).bind fun _ => agree_pure _
  | neg range operand =>
      have hoperand := ((everyOf_cons _ _).mp (h.below rfl)).1
      simp only [checkFilter]
      exact (agree_guardDepth depth).bind fun _ =>
        (agree_checkFilter operand hoperand).bind fun _ => agree_pure _
  | dontCare range name =>
      simp only [checkFilter]
      exact (agree_guardDepth depth).bind fun _ =>
        agree_ofExcept_bind fun _ _ => agree_pure _
  | atom range name op value noted =>
      have hvalue := ((everyOf_cons _ _).mp (h.below rfl)).1
      simp only [checkFilter]
      refine (agree_guardDepth depth).bind fun _ => ?_
      cases (schema.arg? name).map Argument.type <|> scope.var? name with
      | none => exact agree_throw _
      | some type =>
          exact (agree_checkValue value hvalue).bind fun _ =>
            (agree_overload _ _ _ _).bind fun _ => agree_pure _
  | compute range lhs op rhs noted =>
      obtain ⟨hlhs, hrest⟩ := (everyOf_cons _ _).mp (h.below rfl)
      have hrhs := ((everyOf_cons _ _).mp hrest).1
      simp only [checkFilter]
      exact (agree_guardDepth depth).bind fun _ =>
        (agree_checkValue lhs hlhs).bind fun _ =>
          (agree_checkValue rhs hrhs).bind fun _ =>
            (agree_overload _ _ _ _).bind fun _ => agree_pure _
  | external call filter =>
      obtain ⟨selector, channel, params, range, known⟩ := call
      -- This is the one filter that asks a source, about the function that its node refers to.
      obtain ⟨hlabel, hbelow⟩ := (every_node rfl _).mp h
      obtain ⟨hparts, hrest⟩ := (everyOf_append _ _).mp hbelow
      have hparams := ((everyOf_cons _ _).mp hparts).2
      have hfilter := ((everyOf_cons _ _).mp hrest).1
      have hresolve : (c.resolve selector channel .query range).Agree
          ((c.withSource other).resolve selector channel .query range) :=
        hlabel.resolve (by rintro d rfl; rfl)
      simp only [checkFilter]
      refine (agree_guardDepth depth).bind fun _ =>
        hresolve.bind fun ⟨selector', external⟩ => ?_
      exact agree_ofExcept_bind fun _ _ =>
        (agree_checkParams params hparams).bind fun _ =>
          agree_ofExcept_bind fun _ _ =>
            (agree_checkFilter filter hfilter).bind fun _ => agree_pure _
termination_by structural filter

theorem agree_checkFilters
    (filters : List Filter) {schema : Signature} {scope : Scope} {depth : Nat}
    (h : EveryOf (c.AnswersAlike other) (Filter.trees filters)) :
    (c.checkFilters schema scope depth filters).Agree
      ((c.withSource other).checkFilters schema scope depth filters) := by
  cases filters with
  | nil =>
      simp only [checkFilters]
      exact agree_pure _
  | cons filter filters =>
      obtain ⟨hfilter, hfilters⟩ := (everyOf_cons _ _).mp h
      simp only [checkFilters]
      exact (agree_checkFilter filter hfilter).bind fun _ =>
        (agree_checkFilters filters hfilters).bind fun _ => agree_pure _
termination_by structural filters

theorem agree_checkParams
    (params : List Param) {schema : Signature} {scope : Scope} {depth : Nat}
    {seen : List String} (h : EveryOf (c.AnswersAlike other) (Param.trees params)) :
    (c.checkParams schema scope depth seen params).Agree
      ((c.withSource other).checkParams schema scope depth seen params) := by
  cases params with
  | nil =>
      simp only [checkParams]
      exact agree_pure _
  | cons param params =>
      obtain ⟨name, value, range⟩ := param
      obtain ⟨hparam, hparams⟩ := (everyOf_cons _ _).mp h
      have hvalue := ((everyOf_cons _ _).mp (hparam.below rfl)).1
      simp only [checkParams]
      cases (schema.arg? name).filter Argument.isInput with
      | none => exact agree_throw _
      | some arg =>
          refine Agree.ite (agree_throw_bind _ _ _) <|
            (agree_checkValue value hvalue).bind fun ⟨value', type⟩ => ?_
          exact Agree.ite (agree_throw_bind _ _ _) <|
            (agree_checkParams params hparams).bind fun _ => agree_pure _
termination_by structural params

end

/-! ## Expressions -/

theorem agree_checkCall
    {params : List Param} (h : EveryOf (c.AnswersAlike other) (Param.trees params))
    (schema : Signature) (scope : Scope) (range : Option Range) (depth : Nat) :
    (c.checkCall schema params scope range depth).Agree
      ((c.withSource other).checkCall schema params scope range depth) := by
  unfold checkCall
  exact (agree_checkParams params h).bind fun _ =>
    agree_ofExcept_bind fun _ _ => agree_pure _

theorem agree_checkColumns
    {columns : List Value} (h : EveryOf (c.AnswersAlike other) (Value.trees columns))
    (scope : Scope) (depth : Nat) (labels : List (Option String)) :
    (c.checkColumns scope depth columns labels).Agree
      ((c.withSource other).checkColumns scope depth columns labels) := by
  induction columns generalizing labels with
  | nil =>
      simp only [checkColumns]
      exact agree_pure _
  | cons column columns ih =>
      obtain ⟨hcolumn, hcolumns⟩ := (everyOf_cons _ _).mp h
      simp only [checkColumns]
      exact (agree_checkValue column hcolumn).bind fun _ =>
        (ih hcolumns labels.tail).bind fun _ => agree_pure _

theorem agree_checkSelected
    {element : Selected} (h : EveryOf (c.AnswersAlike other) element.column.trees)
    (schema : Signature) (scope : Scope) (range : Option Range) (depth : Nat) :
    (c.checkSelected schema scope range depth element).Agree
      ((c.withSource other).checkSelected schema scope range depth element) := by
  obtain ⟨column, label, types⟩ := element
  cases column with
  | path path =>
      simp only [checkSelected]
      exact agree_ofExcept_bind fun _ _ => agree_pure _
  | value value =>
      have hvalue := ((everyOf_cons _ _).mp h).1
      simp only [checkSelected]
      exact (agree_checkValue value hvalue).bind fun _ => agree_pure _

theorem agree_checkIndex
    {index : Value} (h : index.tree.Every (c.AnswersAlike other))
    (scope : Scope) (range : Option Range) (depth : Nat) :
    (c.checkIndex scope range depth index).Agree
      ((c.withSource other).checkIndex scope range depth index) := by
  unfold checkIndex
  exact (agree_checkValue index h).bind fun _ => (agree_pure _).ite (agree_throw _)

theorem agree_checkNumber
    {value : Value} (h : value.tree.Every (c.AnswersAlike other))
    (name : String) (scope : Scope) (range : Option Range) (depth : Nat) :
    (c.checkNumber name scope range depth value).Agree
      ((c.withSource other).checkNumber name scope range depth value) := by
  unfold checkNumber
  exact (agree_checkValue value h).bind fun _ => (agree_pure _).ite (agree_throw _)

theorem agree_checkClause
    {clause : Clause} (h : EveryOf (c.AnswersAlike other) clause.trees)
    (schema : Signature) (scope : Scope) (range : Option Range) (depth : Nat) :
    (c.checkClause schema scope range depth clause).Agree
      ((c.withSource other).checkClause schema scope range depth clause) := by
  cases clause with
  | filter test | question test =>
      have htest := ((everyOf_cons _ _).mp h).1
      simp only [checkClause]
      exact agree_ofExcept_bind fun _ _ =>
        (agree_checkFilter test htest).bind fun _ => agree_pure _
  | monitor args =>
      simp only [checkClause]
      exact agree_ofExcept_bind fun _ _ => agree_pure _
  | projection args columns labels =>
      simp only [checkClause]
      exact agree_ofExcept_bind fun _ _ => agree_ofExcept_bind fun _ _ =>
        (agree_checkColumns h _ _ _).bind fun _ => agree_pure _
  | selection elements =>
      have hchecked : (elements.mapM
          (c.checkSelected schema (scope.addArguments schema) range depth)).Agree
            (elements.mapM ((c.withSource other).checkSelected schema
              (scope.addArguments schema) range depth)) :=
        agree_mapM fun element helement =>
          agree_checkSelected ((everyOf_flatMap _ _).mp h element helement) _ _ _ _
      simp only [checkClause]
      exact agree_ofExcept_bind fun _ _ => hchecked.bind fun _ => agree_pure _
  | named name =>
      simp only [checkClause]
      exact agree_pure _
  | aggregation field op known =>
      simp only [checkClause]
      refine agree_ofExcept_bind fun _ _ =>
        Agree.ite ((agree_pure _).bind fun _ => ?_) (agree_ofExcept_bind fun _ _ => ?_)
      all_goals
        exact Agree.ite
          ((agree_record _ _).bind fun _ => agree_throw_bind _ _ _)
          ((agree_overload _ _ _ _).bind fun _ => agree_pure _)
  | sort value direction =>
      have hvalue := ((everyOf_cons _ _).mp h).1
      simp only [checkClause]
      exact agree_ofExcept_bind fun _ _ =>
        (agree_checkValue value hvalue).bind fun _ => (agree_pure _).ite (agree_throw _)
  | index indices =>
      rw [Clause.trees, Value.trees_eq_map, everyOf_iff, List.forall_mem_map] at h
      have hchecked : (indices.mapM (c.checkIndex scope range depth)).Agree
          (indices.mapM ((c.withSource other).checkIndex scope range depth)) :=
        agree_mapM fun index hindex => agree_checkIndex (h index hindex) _ _ _
      simp only [checkClause]
      exact agree_ofExcept_bind fun _ _ => hchecked.bind fun _ => agree_pure _
  | slice base limit =>
      obtain ⟨hbase, hrest⟩ := (everyOf_cons _ _).mp h
      have hlimit := ((everyOf_cons _ _).mp hrest).1
      simp only [checkClause]
      exact agree_ofExcept_bind fun _ _ =>
        (agree_checkNumber hbase _ _ _ _).bind fun _ =>
          (agree_checkNumber hlimit _ _ _ _).bind fun _ => agree_pure _

mutual

theorem agree_checkExpression
    (expression : Expression) {scope : Scope} {depth : Nat}
    (h : expression.tree.Every (c.AnswersAlike other)) :
    (c.checkExpression scope depth expression).Agree
      ((c.withSource other).checkExpression scope depth expression) := by
  cases expression with
  | call info name params =>
      simp only [checkExpression]
      refine (agree_guardDepth depth).bind fun _ => ?_
      cases scope.function? name <|> Builtin.function? name with
      | none => exact agree_throw _
      | some schema =>
          exact (agree_checkCall (h.below rfl) _ _ _ _).bind fun _ => agree_pure _
  | invocation info call =>
      obtain ⟨selector, channel, params, range, known⟩ := call
      have hcall := ((everyOf_cons _ _).mp (h.below rfl)).1
      obtain ⟨hlabel, hparts⟩ := (every_node rfl _).mp hcall
      have hparams := ((everyOf_cons _ _).mp hparts).2
      have hresolve : (c.resolve selector channel .both range).Agree
          ((c.withSource other).resolve selector channel .both range) :=
        hlabel.resolve (by rintro d rfl; rfl)
      simp only [checkExpression]
      exact (agree_guardDepth depth).bind fun _ => hresolve.bind fun _ =>
        (agree_checkCall hparams _ _ _ _).bind fun _ => agree_pure _
  | clause info inner clause =>
      obtain ⟨hinner, hclause⟩ := (everyOf_cons _ _).mp (h.below rfl)
      simp only [checkExpression]
      exact (agree_guardDepth depth).bind fun _ =>
        (agree_checkExpression inner hinner).bind fun _ =>
          (agree_checkClause hclause _ _ _ _).bind fun _ => agree_pure _
  | chain info elements =>
      simp only [checkExpression]
      exact (agree_guardDepth depth).bind fun _ =>
        Agree.ite (agree_throw_bind _ _ _) <|
          (agree_checkElementsOf elements (h.below rfl)).bind fun _ =>
            agree_ofExcept_bind fun _ _ => agree_pure _
  | join info lhs rhs =>
      obtain ⟨hlhs, hrest⟩ := (everyOf_cons _ _).mp (h.below rfl)
      have hrhs := ((everyOf_cons _ _).mp hrest).1
      simp only [checkExpression]
      exact (agree_guardDepth depth).bind fun _ =>
        (agree_checkExpression lhs hlhs).bind fun _ =>
          agree_ofExcept_bind fun _ _ =>
            (agree_checkExpression rhs hrhs).bind fun _ =>
              agree_ofExcept_bind fun _ _ => agree_pure _
termination_by structural expression

theorem agree_checkElementsOf
    (elements : List Expression) {scope : Scope} {depth : Nat} {isFirst : Bool}
    (h : EveryOf (c.AnswersAlike other) (Expression.trees elements)) :
    (c.checkElementsOf scope depth isFirst elements).Agree
      ((c.withSource other).checkElementsOf scope depth isFirst elements) := by
  cases elements with
  | nil =>
      simp only [checkElementsOf]
      exact agree_pure _
  | cons element elements =>
      obtain ⟨helement, helements⟩ := (everyOf_cons _ _).mp h
      simp only [checkElementsOf]
      refine (agree_checkExpression element helement).bind fun ⟨checked, schema⟩ => ?_
      exact Agree.ite (agree_throw_bind _ _ _) <|
        (agree_checkElementsOf elements helements).bind fun _ => agree_pure _
termination_by structural elements

end

/-! ## Inputs -/

theorem agree_checkStatements
    {statements : List Statement}
    (h : EveryOf (c.AnswersAlike other) (statements.map Statement.tree)) (scope : Scope) :
    (c.checkStatements scope statements).Agree
      ((c.withSource other).checkStatements scope statements) := by
  induction statements generalizing scope with
  | nil => exact agree_pure _
  | cons statement rest ih =>
      obtain ⟨hstatement, hrest⟩ := (everyOf_cons _ _).mp h
      have hbody := ((everyOf_cons _ _).mp (hstatement.below rfl)).1
      have hfirst : (c.checkStatement scope statement).Agree
          ((c.withSource other).checkStatement scope statement) := by
        cases statement with
        | expression s | ret body range | assign name body range =>
            simp only [checkStatement]
            exact (agree_checkExpression _ hbody).bind fun _ => agree_pure _
      simp only [checkStatements]
      refine hfirst.bind ?_
      rintro ⟨checked, schema, next⟩
      exact (ih hrest next).bind fun _ => agree_pure _

theorem agree_checkDeclarations
    {declarations : List FunctionDeclaration}
    (h : EveryOf (c.AnswersAlike other) (declarations.map FunctionDeclaration.tree))
    (scope : Scope) :
    (c.checkDeclarations scope declarations).Agree
      ((c.withSource other).checkDeclarations scope declarations) := by
  induction declarations generalizing scope with
  | nil => exact agree_pure _
  | cons d rest ih =>
      obtain ⟨hfirst, hrest⟩ := (everyOf_cons _ _).mp h
      have hbody := agree_checkStatements (hfirst.below rfl) (scope.addAll d.args)
      simp only [checkDeclarations, checkDeclaration, bind_assoc, pure_bind]
      exact hbody.bind fun _ => (ih hrest _).bind fun _ => agree_pure _

theorem agree_checkPermissionFunction
    {function : PermissionFunction}
    (h : function.tree.Every (c.AnswersAlike other)) (scope : Scope) (isAction : Bool) :
    (c.checkPermissionFunction scope isAction function).Agree
      ((c.withSource other).checkPermissionFunction scope isAction function) := by
  cases function with
  | specified f =>
      obtain ⟨hlabel, hbelow⟩ := (every_node rfl _).mp h
      have hfilter := ((everyOf_cons _ _).mp hbelow).1
      have hanswer := hlabel _ rfl
        ⟨f.kind, f.channel, if isAction then .action else .query⟩ rfl
      simp only [checkPermissionFunction, checkSpecified, bind_assoc]
      refine hanswer.bind fun schema => Agree.bind ?_ fun _ => agree_pure _
      exact Agree.ite (agree_throw_bind _ _ _) <|
        (agree_checkFilter f.filter hfilter).bind fun _ => agree_pure _
  | builtin | classStar _ | star => exact agree_pure _

theorem agree_checkItem
    {item : HistoryItem} (h : item.tree.Every (c.AnswersAlike other)) :
    (c.checkItem item).Agree ((c.withSource other).checkItem item) := by
  have hstatement := ((everyOf_cons _ _).mp (h.below rfl)).1
  have hbody := ((everyOf_cons _ _).mp (hstatement.below rfl)).1
  unfold checkItem
  refine (agree_checkExpression _ hbody).bind fun ⟨body, schema⟩ => ?_
  simp only
  split
  · exact agree_ofExcept_bind fun _ _ => agree_pure _
  · exact agree_pure _

theorem agree_checkParts
    {input : Input} (h : input.tree.Every ((c.forInput input).AnswersAlike other)) :
    (c.checkParts input).Agree ((c.withSource other).checkParts input) := by
  cases input with
  | program p =>
      obtain ⟨hbefore, hstatements⟩ := (everyOf_append _ _).mp (h.below rfl)
      have hdeclarations := ((everyOf_append _ _).mp hbefore).2
      simp only [checkParts, checkProgram]
      refine Agree.bind ?_ fun _ => agree_pure _
      refine (agree_checkDeclarations hdeclarations _).bind ?_
      rintro ⟨declarations, scope⟩
      exact (agree_checkStatements hstatements scope).bind fun _ =>
        (agree_record _ _).bind fun _ => agree_pure _
  | permission r =>
      have hrule := h.below rfl
      simp only [everyOf_cons] at hrule
      obtain ⟨hprincipal, hquery, haction, -⟩ := hrule
      simp only [checkParts, checkPermission]
      refine Agree.bind ?_ fun _ => agree_pure _
      exact (agree_checkFilter r.principal hprincipal).bind fun _ =>
        (agree_checkPermissionFunction hquery _ _).bind fun _ =>
          (agree_checkPermissionFunction haction _ _).bind fun _ => agree_pure _
  | dialogue s =>
      have hhistory := h.below rfl
      rw [everyOf_iff, List.forall_mem_map] at hhistory
      have hitems := agree_mapM fun item hitem => agree_checkItem (hhistory item hitem)
      simp only [checkParts, checkDialogue]
      exact Agree.bind (hitems.bind fun _ => agree_pure _) fun _ => agree_pure _
  | control command =>
      obtain ⟨intent, range⟩ := command
      cases intent with
      | answer value =>
          have hvalue := ((everyOf_cons _ _).mp (h.below rfl)).1
          simp only [checkParts, checkControl]
          exact Agree.bind ((agree_checkValue value hvalue).bind fun _ => agree_pure _)
            fun _ => agree_pure _
      | special _ | choice _ => exact agree_pure _

theorem function?_forProgram
    (p : Program) (key : LookupKey) :
    ((Keyed.find? key.device (c.forProgram p).classes).bind fun found =>
        found.function? key.channel key.kind.functionType?) = p.function? key := by
  unfold forProgram Program.function?
  rw [Keyed.find?_ofList, ← List.map_reverse, List.find?_map, Option.map_map]
  simp [Function.comp_def]

/-- What an input defines itself is not asked for. -/
theorem answersAlike_of_agree
    {input : Input} {key : LookupKey}
    (h : ¬ input.Defines key → ∀ s t, (c.source key s).1 = (other key t).1) :
    ((c.forInput input).deviceSignature key).Agree
      (((c.forInput input).withSource other).deviceSignature key) := by
  apply agree_deviceSignature
  intro hnone
  cases input with
  | program p =>
      apply h
      rintro ⟨_, ⟨⟩, hdefined⟩
      have hmissing := (function?_forProgram p key).symm.trans hnone
      rw [hmissing] at hdefined
      cases hdefined
  | permission _ | dialogue _ | control _ => exact h (by simp [Input.Defines])

/-- Two sources that answer alike about the functions that an input refers to and does not define
itself lead to the same result of checking it. -/
theorem check_eq_of_answers
    {input : Input}
    (h : ∀ key : LookupKey, key.qualifiedName ∈ input.tree.referencedFunctions →
      ¬ input.Defines key → ∀ s t, (c.source key s).1 = (other key t).1)
    (s t : Session σ) :
    ((c.check input).runIn s).1 = (((c.withSource other).check input).runIn t).1 := by
  have hanswers : input.tree.Every ((c.forInput input).AnswersAlike other) := by
    apply every_of_referencedFunctions
    rintro name hname key rfl
    exact answersAlike_of_agree (h key hname)
  rw [check_result, check_result]
  exact agree_checkParts hanswers (started input s) (started input t)

namespace Digest

/-- The digest of a program that brings its own mail. -/
def withOwnMail : Input :=
  .program { program [] with classes := [(ClassDef.empty "com.mail").withFunction send] }

/-- A source that is of no use for mail and for weather. -/
def newsOnly : SchemaSource Unit := fun key =>
  if key.device = "com.mail" ∧ key.channel = "send" ∧ key.kind ≠ .query ∨
      key.device = "com.weather" then pure (.error (.malformed "EOF while parsing a list"))
  else (SchemaLibrary.ofList [search, send]).source key

theorem referencedFunctions_withOwnMail :
    withOwnMail.tree.referencedFunctions = ["@com.news.search", "@com.mail.send"] := by
  decide

theorem answers_newsOnly
    {key : LookupKey} (hname : key.qualifiedName ∈ withOwnMail.tree.referencedFunctions)
    (hdefines : ¬ withOwnMail.Defines key) (s t : Unit) :
    (checker.source key s).1 = (newsOnly key t).1 := by
  have hmail : ¬ (key.device = "com.mail" ∧ key.channel = "send" ∧ key.kind ≠ .query) := by
    obtain ⟨device, channel, kind⟩ := key
    rintro ⟨rfl, rfl, hkind⟩
    apply hdefines
    refine ⟨_, rfl, ?_⟩
    cases kind with
    | query => exact absurd rfl hkind
    | action => rfl
    | both => rfl
  have hweather : key.device ≠ "com.weather" := by
    intro hdevice
    rw [referencedFunctions_withOwnMail] at hname
    simp [LookupKey.qualifiedName, hdevice, ← String.toList_inj] at hname
  unfold newsOnly
  rw [if_neg (by simp [hmail, hweather])]
  rfl

end Digest

theorem digest_eq_of_answers :
    ∃ output,
      ((Digest.checker.check Digest.withOwnMail).runIn Digest.session).1 = .ok output ∧
        (((Digest.checker.withSource Digest.newsOnly).check Digest.withOwnMail).runIn
          Digest.session).1 = .ok output := by
  obtain ⟨output, h⟩ : ∃ output,
      ((Digest.checker.check Digest.withOwnMail).runIn Digest.session).1 = .ok output :=
    ⟨_, rfl⟩
  have heq : ((Digest.checker.check Digest.withOwnMail).runIn Digest.session).1 =
      (((Digest.checker.withSource Digest.newsOnly).check Digest.withOwnMail).runIn
        Digest.session).1 :=
    check_eq_of_answers (fun _ hname hdefines => Digest.answers_newsOnly hname hdefines)
      Digest.session Digest.session
  exact ⟨output, h, heq.symm.trans h⟩

end Checker

end SkillLang

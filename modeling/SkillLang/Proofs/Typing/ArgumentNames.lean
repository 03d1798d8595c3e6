import SkillLang.Proofs.Syntax.Parts
import SkillLang.Proofs.Typing.CheckOfAcceptance
import SkillLang.Proofs.Typing.DeclaredInputs

/-!
# Names of arguments

A check makes new signatures at every level of an expression: outputs are left out,
computed columns and labels are added, the two sides of a join are put together, and the
inputs of a declaration meet the outputs of its body.  If the arguments had different
names in the signatures that it started from, they have different names in every
signature that it writes down.
-/

namespace SkillLang

/-! ## What an input names -/

def ClassDef.HasDistinctArgs (d : ClassDef) : Prop :=
  ∀ s ∈ d.queries.values ++ d.actions.values, s.HasDistinctArgs

/-- The output that is kept by an element of a selection: one with neither a label nor a path that
leads into another output. -/
def Selected.bareField? : Selected → Option String
  | ⟨.path path, none, _⟩ => if path.contains '.' then none else some path
  | _ => none

/-- The outputs that a projection names. -/
def Clause.bareFields : Clause → List String
  | .projection args _ _ => args
  | .selection elements => elements.filterMap Selected.bareField?
  | _ => []

/-- What a node names itself has different names: the arguments of a function or of a declaration
and the fields of a projection. -/
def Node.NamesDistinctly : Node → Prop
  | .function s => s.HasDistinctArgs
  | .declaration d => (d.args.map Argument.name).Nodup
  | .expression (.clause _ _ applied) => applied.bareFields.Nodup
  | _ => True

instance (label : Node) : Decidable label.NamesDistinctly :=
  match label with
  | .function s => inferInstanceAs (Decidable s.HasDistinctArgs)
  | .declaration d => inferInstanceAs (Decidable (d.args.map Argument.name).Nodup)
  | .expression (.clause _ _ applied) => inferInstanceAs (Decidable applied.bareFields.Nodup)
  | .expression (.call _ _ _) | .expression (.invocation _ _) | .expression (.chain _ _)
  | .expression (.join _ _ _) | .program _ | .classDef _ | .statement _ | .permissionRule _
  | .permissionFunction _ | .control _ | .dialogue _ | .historyItem _ | .builtinSelector
  | .device _ | .param _ | .invocation _ | .value _ | .filter _ => .isTrue trivial

/-- The signatures that a check leaves at a node; at an assignment this is the one of the function
that is brought into scope. -/
def Node.schemas : Node → List Signature
  | .expression e => e.schema.toList
  | .invocation i => i.schema.toList
  | .filter (.external call _) => call.schema.toList
  | .permissionFunction (.specified f) => f.schema.toList
  | .declaration d => d.schema.toList
  | .statement (.assign name body _) =>
    (body.schema.map fun schema => schema.assigned name).toList
  | _ => []

def Node.SchemasDistinct (label : Node) : Prop :=
  ∀ schema ∈ label.schemas, schema.HasDistinctArgs

/-- Values and filters and what they are made of. -/
def Node.isOperand : Node → Bool
  | .value _ | .filter _ | .param _ | .device _ | .builtinSelector => true
  | _ => false

theorem Invocation.isOperand_parts
    (call : Invocation) :
    ∀ part ∈ call.parts, part.isOperand = true := by
  obtain ⟨selector, channel, params, range, schema⟩ := call
  cases selector with
  | builtin => simp [parts, Selector.node, Node.isOperand]
  | device d => simp [parts, Selector.node, Node.isOperand]

theorem Clause.isOperand_parts
    (applied : Clause) :
    ∀ part ∈ applied.parts, part.isOperand = true := by
  cases applied with
  | selection elements =>
      rw [parts, List.forall_mem_flatMap]
      intro element _
      cases element.column <;> simp [Column.parts, Node.isOperand]
  | _ => simp [parts, Node.isOperand]

theorem Node.isOperand_parts
    {n : Node} (h : n.isOperand = true) :
    ∀ part ∈ n.parts, part.isOperand = true := by
  cases n with
  | value v =>
      cases v with
      | object fields =>
          rw [parts, Value.parts, List.forall_mem_map]
          exact fun _ _ => rfl
      | _ => simp [parts, Value.parts, isOperand]
  | filter f =>
      cases f with
      | external call test =>
          rw [parts, Filter.parts, List.forall_mem_append]
          exact ⟨call.isOperand_parts, by simp [isOperand]⟩
      | _ => simp [parts, Filter.parts, isOperand]
  | param _ | device _ | builtinSelector => simp [parts, isOperand]
  | _ => cases h

open SkillLang.Tree in
/-- No call is found below a value or a filter. -/
theorem Node.every_isOperand
    (n : Node) : n.isOperand = true → n.tree.Every fun label => label.isOperand = true := by
  induction n using Node.induction with
  | h n ih =>
      intro hn
      rw [Node.tree_eq]
      cases n with
      | device d => exact (every_device d _).mpr rfl
      | value _ | filter _ | param _ | builtinSelector =>
          refine (every_node rfl _).mpr ⟨hn, ?_⟩
          rw [everyOf_iff, List.forall_mem_map]
          intro part hpart
          exact ih part hpart (isOperand_parts hn part hpart)
      | _ => cases hn

theorem ClassDef.mem_of_function?
    {d : ClassDef} {channel : String} {type : Option FunctionType} {s : Signature}
    (h : d.function? channel type = some s) :
    s ∈ d.queries.values ++ d.actions.values := by
  have hvalue {functions : Keyed Signature} (hfind : Keyed.find? channel functions = some s) :
      s ∈ functions.values :=
    List.mem_map_of_mem (Keyed.mem_of_find? hfind)
  rw [List.mem_append]
  cases type with
  | none =>
      rw [function?, Option.or_eq_some_iff] at h
      rcases h with hquery | ⟨-, haction⟩
      · exact .inl (hvalue hquery)
      · exact .inr (hvalue haction)
  | some type =>
      cases type with
      | action => exact .inr (hvalue h)
      | query | stream => exact .inl (hvalue h)

/-- A library answers with the functions of its classes. -/
theorem SchemaLibrary.hasDistinctArgs_of_answer
    {l : SchemaLibrary} (h : ∀ entry ∈ l.classes, entry.2.HasDistinctArgs) {key : LookupKey}
    {schema : Signature} (hanswer : l.answer key = .ok schema) :
    schema.HasDistinctArgs := by
  unfold answer at hanswer
  cases hlookup : l.lookup? key with
  | none =>
      rw [hlookup] at hanswer
      cases hanswer
  | some found =>
      rw [hlookup] at hanswer
      cases hanswer
      obtain ⟨d, hclass, hfunction⟩ := Option.bind_eq_some_iff.mp hlookup
      exact h _ (Keyed.mem_of_find? hclass) _ (ClassDef.mem_of_function? hfunction)

namespace Signature.HasDistinctArgs

theorem joined
    {left : Signature} (h : left.HasDistinctArgs) (right : Signature) :
    (left.joined right).HasDistinctArgs := by
  have hboth (type : FunctionType) :
      ((left.withType type).addArguments right.outArgs).HasDistinctArgs :=
    HasDistinctArgs.addArguments (s := left.withType type) h right.outArgs
  exact hboth _

theorem assigned
    {s : Signature} (h : s.HasDistinctArgs) (name : String) :
    (s.assigned name).HasDistinctArgs :=
  h.of_sublist List.filter_sublist

end Signature.HasDistinctArgs

theorem Builtin.hasDistinctArgs
    {name : String} {schema : Signature} (h : function? name = some schema) :
    schema.HasDistinctArgs := by
  have hall : ∀ s ∈ all, s.HasDistinctArgs := by decide
  exact hall schema (List.mem_of_find?_eq_some h)

namespace Checker

open SkillLang.Tree

variable {σ : Type} {c : Checker σ}

/-! ## Signatures that are found -/

/-- Classes and source of the checker have only signatures whose arguments have different names. -/
structure KnowsDistinctly (c : Checker σ) : Prop where
  classes : ∀ kind found, Keyed.find? kind c.classes = some found → found.HasDistinctArgs
  source : ∀ key state schema, (c.source key state).1 = .ok schema → schema.HasDistinctArgs

theorem KnowsDistinctly.of_answers
    (h : c.KnowsDistinctly) {key : LookupKey} {schema : Signature}
    (hanswer : c.Answers key schema) :
    schema.HasDistinctArgs := by
  obtain ⟨s, hs⟩ := hanswer
  unfold deviceSignature at hs
  cases hfound : (Keyed.find? key.device c.classes).bind fun found =>
      found.function? key.channel key.kind.functionType? with
  | some found =>
      simp only [hfound] at hs
      rw [Action.runIn_pure] at hs
      cases hs
      obtain ⟨d, hclass, hfunction⟩ := Option.bind_eq_some_iff.mp hfound
      exact h.classes key.device d hclass _ (ClassDef.mem_of_function? hfunction)
  | none =>
      simp only [hfound] at hs
      rw [lookup_result] at hs
      cases hsource : (c.source key s.state).1 with
      | error e =>
          rw [hsource] at hs
          cases hs
      | ok answer =>
          rw [hsource] at hs
          cases hs
          exact h.source key s.state _ hsource

theorem Resolves.hasDistinctArgs
    (h : c.KnowsDistinctly) {selector selector' : Selector} {channel : String} {kind : LookupKind}
    {schema : Signature} (hresolve : c.Resolves selector channel kind selector' schema) :
    schema.HasDistinctArgs := by
  cases hresolve with
  | builtin hfunction => exact Builtin.hasDistinctArgs hfunction
  | device _ hanswer => exact h.of_answers hanswer

/-- What is left at a value or a filter is a signature that was looked up. -/
theorem Accepted.schemasDistinct
    (h : c.KnowsDistinctly) {label : Node} (haccepted : c.Accepted label)
    (hoperand : label.isOperand = true) :
    label.SchemasDistinct := by
  cases haccepted with
  | filter hfilter =>
      cases hfilter with
      | external _ hresolve _ _ _ _ =>
          intro schema hschema
          obtain rfl := Option.some.inj (Option.mem_toList.mp hschema)
          exact hresolve.hasDistinctArgs h
      | _ => exact List.forall_mem_nil _
  | value _ => exact List.forall_mem_nil _
  | expression _ | invocation _ | declaration _ | permissionFunction _ | permissionRule _ =>
      cases hoperand
  | plain hplain =>
      cases label with
      | value _ | filter _ => cases hplain
      | param _ | device _ | builtinSelector => exact List.forall_mem_nil _
      | _ => cases hoperand

theorem every_schemasDistinct_of_isOperand
    (h : c.KnowsDistinctly) {n : Node} (hoperand : n.isOperand = true)
    (haccepted : n.tree.Every c.Accepted) :
    n.tree.Every Node.SchemasDistinct := by
  intro label hlabel
  exact (haccepted label hlabel).schemasDistinct h (n.every_isOperand hoperand label hlabel)

theorem everyOf_schemasDistinct
    (h : c.KnowsDistinctly) {trees : List Tree} {parts : List Node}
    (htrees : trees = parts.map Node.tree) (hoperands : ∀ part ∈ parts, part.isOperand = true)
    (haccepted : EveryOf c.Accepted trees) :
    EveryOf Node.SchemasDistinct trees := by
  subst htrees
  rw [everyOf_iff, List.forall_mem_map] at haccepted ⊢
  intro part hpart
  exact every_schemasDistinct_of_isOperand h (hoperands part hpart) (haccepted part hpart)

theorem AcceptsParams.schemasDistinct
    (h : c.KnowsDistinctly) {schema : Signature} {scope : Scope} {depth : Nat}
    {seen : List String} {params params' : List Param}
    (hparams : c.AcceptsParams schema scope depth seen params params') :
    EveryOf Node.SchemasDistinct (Param.trees params') := by
  have htrees : Param.trees params' = (params'.map Node.param).map Node.tree := by
    rw [Param.trees_eq_map, List.map_map]
    rfl
  refine everyOf_schemasDistinct h htrees ?_ hparams.every_accepted
  rw [List.forall_mem_map]
  exact fun _ _ => rfl

theorem AcceptsParams.partsDistinct
    (h : c.KnowsDistinctly) {schema : Signature} {scope : Scope} {depth : Nat}
    {seen : List String} {params params' : List Param}
    (hparams : c.AcceptsParams schema scope depth seen params params') (call : Invocation) :
    EveryOf Node.SchemasDistinct { call with params := params' }.partTrees := by
  have haccepted : EveryOf c.Accepted { call with params := params' }.partTrees :=
    (everyOf_cons _ _).mpr ⟨every_accepted_selector call.selector, hparams.every_accepted⟩
  exact everyOf_schemasDistinct h (Invocation.partTrees_eq _) (Invocation.isOperand_parts _)
    haccepted

theorem AcceptsValue.schemasDistinct
    (h : c.KnowsDistinctly) {scope : Scope} {depth : Nat} {value value' : Value} {type : Ty}
    (hvalue : c.AcceptsValue scope depth value value' type) :
    value'.tree.Every Node.SchemasDistinct :=
  every_schemasDistinct_of_isOperand h (n := .value value') rfl hvalue.every_accepted

theorem AcceptsFilter.schemasDistinct
    (h : c.KnowsDistinctly) {schema : Signature} {scope : Scope} {depth : Nat}
    {filter filter' : Filter} (hfilter : c.AcceptsFilter schema scope depth filter filter') :
    filter'.tree.Every Node.SchemasDistinct :=
  every_schemasDistinct_of_isOperand h (n := .filter filter') rfl hfilter.every_accepted

theorem AcceptsClause.schemasDistinct
    (h : c.KnowsDistinctly) {base schema : Signature} {scope : Scope} {range : Option Range}
    {depth : Nat} {clause clause' : Clause}
    (hclause : c.AcceptsClause base scope range depth clause clause' schema) :
    EveryOf Node.SchemasDistinct clause'.trees :=
  everyOf_schemasDistinct h clause'.trees_eq clause'.isOperand_parts hclause.every_accepted

/-! ## Scopes -/

/-- The functions in scope have arguments of different names. -/
def DeclaresDistinctly (scope : Scope) : Prop :=
  ∀ name schema, scope.function? name = some schema → schema.HasDistinctArgs

theorem declaresDistinctly_empty :
    DeclaresDistinctly .empty := by
  intro name schema h
  cases h

theorem DeclaresDistinctly.addAll
    {scope : Scope} (h : DeclaresDistinctly scope) (args : List Argument) :
    DeclaresDistinctly (scope.addAll args) := by
  intro name schema hschema
  rw [Scope.function?, Scope.functions_addAll] at hschema
  exact h name schema hschema

theorem DeclaresDistinctly.addFunction
    {scope : Scope} (h : DeclaresDistinctly scope) (name : String) {schema : Signature}
    (hschema : schema.HasDistinctArgs) :
    DeclaresDistinctly (scope.addFunction name schema) := by
  intro other found hfound
  by_cases hname : other = name
  · subst hname
    rw [Scope.function?, Scope.addFunction, Keyed.find?_insert_self, Option.some.injEq] at hfound
    rw [← hfound]
    exact hschema
  · rw [Scope.function?, Scope.addFunction, Keyed.find?_insert_of_ne hname] at hfound
    exact h other found hfound

/-! ## Clauses -/

theorem kept?_of_selectPath
    {schema : Signature} {path : String} {label : Option String} {types : List Ty}
    {range : Option Range} {selection : Selection}
    (h : c.selectPath schema path label types range = .ok selection) :
    selection.kept? = Selected.bareField? ⟨.path path, label, types⟩ := by
  have hselect (type : Ty) :
      (selectPath.select path label type).kept? =
        Selected.bareField? ⟨.path path, label, types⟩ := by
    cases label with
    | some label => rfl
    | none =>
        simp only [selectPath.select, Selected.bareField?]
        by_cases hdot : path.contains '.' = true
        · rw [if_pos hdot, if_pos hdot, Selection.kept?]
        · rw [if_neg hdot, if_neg hdot, Selection.kept?]
  unfold selectPath at h
  cases htype : schema.pathType? path with
  | none => simp [htype] at h
  | some type =>
      cases hexpected : types.head? with
      | none =>
          simp only [htype, hexpected, Except.ok.injEq] at h
          rw [← h]
          exact hselect type
      | some expected =>
          simp only [htype, hexpected] at h
          by_cases hfits : types.any (c.assignable type) = true
          · rw [if_pos hfits, Except.ok.injEq] at h
            rw [← h]
            exact hselect type
          · rw [if_neg hfits] at h
            cases h

theorem AcceptsSelected.kept?_eq
    {schema : Signature} {scope : Scope} {range : Option Range} {depth : Nat}
    {element : Selected} {checked : Selected × Selection}
    (h : c.AcceptsSelected schema scope range depth element checked) :
    checked.2.kept? = element.bareField? := by
  cases h with
  | value _ => rfl
  | path hselect => exact kept?_of_selectPath hselect

/-- A selection keeps its bare fields. -/
theorem filterMap_kept?
    {schema : Signature} {scope : Scope} {range : Option Range} {depth : Nat}
    {elements : List Selected} {checked : List (Selected × Selection)}
    (h : List.Forall₂ (c.AcceptsSelected schema scope range depth) elements checked) :
    (checked.map Prod.snd).filterMap Selection.kept? =
      elements.filterMap Selected.bareField? := by
  induction h with
  | nil => rfl
  | cons helement _ ih =>
      rw [List.map_cons, List.filterMap_cons, List.filterMap_cons, helement.kept?_eq, ih]

theorem AcceptsClause.hasDistinctArgs
    {base schema : Signature} {scope : Scope} {range : Option Range} {depth : Nat}
    {clause clause' : Clause}
    (h : c.AcceptsClause base scope range depth clause clause' schema)
    (hbase : base.HasDistinctArgs) (hfields : clause.bareFields.Nodup) :
    schema.HasDistinctArgs := by
  have honly (name : String) (type : Ty) : (base.withOnlyOutput name type).HasDistinctArgs :=
    (hbase.filterOutputs List.nodup_nil).addArguments _
  cases h with
  | filter _ _ | named | sort _ _ | slice _ _ _ => exact hbase
  | monitor hresult =>
      obtain ⟨-, -, rfl⟩ := Signature.eq_of_monitored hresult
      exact hbase
  | projection _ _ _ => exact (hbase.filterOutputs hfields).addArguments _
  | selection _ helements =>
      rw [Clause.bareFields, ← filterMap_kept? helements] at hfields
      exact (hbase.filterOutputs hfields).addArguments _
  | question _ _ => exact honly _ _
  | aggregation _ _ _ _ => exact honly _ _
  | @index _ indices' _ _ =>
      by_cases hone : picksOne indices' = true
      · rw [if_pos hone]
        exact hbase
      · rw [if_neg hone]
        exact hbase

theorem hasDistinctArgs_of_chained
    {schemas : List Signature} {schema : Signature} {range : Option Range}
    (h : Signature.chained schemas range = .ok schema)
    (hschemas : ∀ s ∈ schemas, s.HasDistinctArgs) :
    schema.HasDistinctArgs := by
  unfold Signature.chained at h
  cases hlast : schemas.getLast? with
  | none => simp [hlast] at h
  | some last =>
      have hdistinct : last.HasDistinctArgs := hschemas last (List.mem_of_getLast? hlast)
      simp only [hlast] at h
      by_cases hstream : (schemas.head?.map Signature.type) = some .stream ∧ last.type = .query
      · rw [if_pos hstream, Except.ok.injEq] at h
        exact hdistinct.of_args_eq (by rw [← h]; rfl)
      · rw [if_neg hstream, Except.ok.injEq] at h
        rw [← h]
        exact hdistinct

/-! ## Expressions -/

theorem every_schemasDistinct
    {label : Node} {children : List Tree} {schema : Signature}
    (hlabel : label.isDevice = false) (hschemas : label.schemas = [schema])
    (hschema : schema.HasDistinctArgs) (hchildren : EveryOf Node.SchemasDistinct children) :
    (node label children).Every Node.SchemasDistinct := by
  refine (every_node hlabel children).mpr ⟨?_, hchildren⟩
  intro found hfound
  rw [hschemas, List.mem_singleton] at hfound
  rw [hfound]
  exact hschema

mutual

theorem AcceptsExpression.hasDistinctArgs
    (hknows : c.KnowsDistinctly) {scope : Scope} (hscope : DeclaresDistinctly scope)
    {depth : Nat} {expression expression' : Expression} {schema : Signature} :
    c.AcceptsExpression scope depth expression expression' schema →
      expression.tree.Every Node.NamesDistinctly →
        schema.HasDistinctArgs ∧ expression'.tree.Every Node.SchemasDistinct
  | .call _ hfunction hcall, _ => by
      have hschema : schema.HasDistinctArgs := by
        rw [Option.orElse_eq_orElse, Option.orElse_eq_or, Option.or_eq_some_iff] at hfunction
        rcases hfunction with hdeclared | ⟨-, hbuiltin⟩
        · exact hscope _ _ hdeclared
        · exact Builtin.hasDistinctArgs hbuiltin
      exact ⟨hschema, every_schemasDistinct rfl rfl hschema (hcall.params.schemasDistinct hknows)⟩
  | .invocation _ hresolve hcall, _ => by
      have hschema : schema.HasDistinctArgs := hresolve.hasDistinctArgs hknows
      have hparts := hcall.params.partsDistinct hknows
      refine ⟨hschema, every_schemasDistinct rfl rfl hschema ?_⟩
      refine (everyOf_cons _ _).mpr ⟨?_, everyOf_nil⟩
      exact every_schemasDistinct rfl rfl hschema (hparts ⟨_, _, [], _, _⟩)
  | .clause _ hinner hclause, hnames => by
      obtain ⟨hfields, hbelow⟩ := (every_node rfl _).mp hnames
      obtain ⟨hbase, hinner⟩ :=
        hinner.hasDistinctArgs hknows hscope ((everyOf_cons _ _).mp hbelow).1
      have hschema : schema.HasDistinctArgs := hclause.hasDistinctArgs hbase hfields
      exact ⟨hschema, every_schemasDistinct rfl rfl hschema
        ((everyOf_cons _ _).mpr ⟨hinner, hclause.schemasDistinct hknows⟩)⟩
  | .chain _ _ helements hchained, hnames => by
      obtain ⟨hschemas, helements⟩ :=
        helements.hasDistinctArgs hknows hscope (hnames.below rfl)
      have hschema : schema.HasDistinctArgs := hasDistinctArgs_of_chained hchained hschemas
      exact ⟨hschema, every_schemasDistinct rfl rfl hschema helements⟩
  | .join _ hlhs _ hrhs _, hnames => by
      obtain ⟨hleftNames, hrightNames⟩ := (everyOf_cons _ _).mp (hnames.below rfl)
      obtain ⟨hleft, hlhs⟩ := hlhs.hasDistinctArgs hknows hscope hleftNames
      obtain ⟨-, hrhs⟩ := hrhs.hasDistinctArgs hknows (hscope.addAll _)
        ((everyOf_cons _ _).mp hrightNames).1
      refine ⟨hleft.joined _, every_schemasDistinct rfl rfl (hleft.joined _) ?_⟩
      exact (everyOf_cons _ _).mpr ⟨hlhs, (everyOf_cons _ _).mpr ⟨hrhs, everyOf_nil⟩⟩

theorem AcceptsChain.hasDistinctArgs
    (hknows : c.KnowsDistinctly) {scope : Scope} (hscope : DeclaresDistinctly scope)
    {depth : Nat} {isFirst : Bool} {elements elements' : List Expression}
    {schemas : List Signature} :
    c.AcceptsChain scope depth isFirst elements elements' schemas →
      EveryOf Node.NamesDistinctly (Expression.trees elements) →
        (∀ schema ∈ schemas, schema.HasDistinctArgs) ∧
          EveryOf Node.SchemasDistinct (Expression.trees elements')
  | .nil, _ => ⟨List.forall_mem_nil _, everyOf_nil⟩
  | .cons helement _ helements, hnames => by
      obtain ⟨hfirst, hrest⟩ := (everyOf_cons _ _).mp hnames
      have helement := helement.hasDistinctArgs hknows hscope hfirst
      have helements := helements.hasDistinctArgs hknows (hscope.addAll _) hrest
      exact ⟨List.forall_mem_cons.mpr ⟨helement.1, helements.1⟩,
        (everyOf_cons _ _).mpr ⟨helement.2, helements.2⟩⟩

end

/-! ## Inputs -/

theorem AcceptsStatement.schemasDistinct
    (hknows : c.KnowsDistinctly) {scope next : Scope} (hscope : DeclaresDistinctly scope)
    {statement statement' : Statement} {schema : Option Signature}
    (h : c.AcceptsStatement scope statement statement' schema next)
    (hnames : statement.tree.Every Node.NamesDistinctly) :
    DeclaresDistinctly next ∧ statement'.tree.Every Node.SchemasDistinct := by
  have hbody := ((everyOf_cons _ _).mp (hnames.below rfl)).1
  cases h with
  | expression haccepted | ret haccepted =>
      obtain ⟨-, hevery⟩ := haccepted.hasDistinctArgs hknows hscope hbody
      exact ⟨hscope, (every_node rfl _).mpr
        ⟨List.forall_mem_nil _, (everyOf_cons _ _).mpr ⟨hevery, everyOf_nil⟩⟩⟩
  | @assign _ _ found name _ haccepted =>
      obtain ⟨hfound, hevery⟩ := haccepted.hasDistinctArgs hknows hscope hbody
      have hassigned : (found.assigned name).HasDistinctArgs := hfound.assigned name
      refine ⟨hscope.addFunction name hassigned, every_schemasDistinct rfl ?_ hassigned
        ((everyOf_cons _ _).mpr ⟨hevery, everyOf_nil⟩)⟩
      rw [Node.schemas, haccepted.schema_eq]
      rfl

theorem AcceptsStatements.schemasDistinct
    (hknows : c.KnowsDistinctly) {scope : Scope} (hscope : DeclaresDistinctly scope)
    {statements statements' : List Statement} {schemas : List Signature}
    (h : c.AcceptsStatements scope statements statements' schemas)
    (hnames : EveryOf Node.NamesDistinctly (statements.map Statement.tree)) :
    EveryOf Node.SchemasDistinct (statements'.map Statement.tree) := by
  induction h with
  | nil => exact everyOf_nil
  | cons hstatement _ ih =>
      obtain ⟨hfirst, hrest⟩ := (everyOf_cons _ _).mp hnames
      obtain ⟨hnext, hevery⟩ := hstatement.schemasDistinct hknows hscope hfirst
      exact (everyOf_cons _ _).mpr ⟨hevery, ih hnext hrest⟩

theorem AcceptsDeclarations.schemasDistinct
    (hknows : c.KnowsDistinctly) {scope final : Scope} (hscope : DeclaresDistinctly scope)
    {declarations declarations' : List FunctionDeclaration}
    (h : c.AcceptsDeclarations scope declarations declarations' final)
    (hnames : EveryOf Node.NamesDistinctly (declarations.map FunctionDeclaration.tree)) :
    DeclaresDistinctly final ∧
      EveryOf Node.SchemasDistinct (declarations'.map FunctionDeclaration.tree) := by
  induction h with
  | nil => exact ⟨hscope, everyOf_nil⟩
  | @cons _ body _ _ _ _ d hbody _ ih =>
      obtain ⟨hfirst, hrest⟩ := (everyOf_cons _ _).mp hnames
      obtain ⟨hargs, hbelow⟩ := (every_node rfl _).mp hfirst
      have hdeclared : (declaredSignature d body).HasDistinctArgs :=
        hasDistinctArgs_declaredSignature hargs body
      have hstatements := hbody.schemasDistinct hknows (hscope.addAll d.args) hbelow
      obtain ⟨hfinal, hdeclarations⟩ := ih (hscope.addFunction d.name hdeclared) hrest
      exact ⟨hfinal, (everyOf_cons _ _).mpr
        ⟨every_schemasDistinct rfl rfl hdeclared hstatements, hdeclarations⟩⟩

theorem AcceptsPermission.schemasDistinct
    (hknows : c.KnowsDistinctly) {scope : Scope} {isAction : Bool}
    {function function' : PermissionFunction} {schema : Option Signature}
    (h : c.AcceptsPermission scope isAction function function' schema) :
    function'.tree.Every Node.SchemasDistinct := by
  cases h with
  | specified hanswer _ hfilter =>
      exact every_schemasDistinct rfl rfl (hknows.of_answers hanswer)
        ((everyOf_cons _ _).mpr ⟨hfilter.schemasDistinct hknows, everyOf_nil⟩)
  | builtin | classStar | star =>
      exact (every_node rfl _).mpr ⟨List.forall_mem_nil _, everyOf_nil⟩

/-- The classes of a program come before the source, and are part of what names its arguments. -/
theorem KnowsDistinctly.forProgram
    (h : c.KnowsDistinctly) {p : Program}
    (hclasses : EveryOf Node.NamesDistinctly (p.classes.map ClassDef.tree)) :
    (c.forProgram p).KnowsDistinctly := by
  rw [everyOf_iff, List.forall_mem_map] at hclasses
  refine ⟨?_, h.source⟩
  intro kind found hfound s hs
  have hmem : found ∈ p.classes := by
    rw [Checker.forProgram, Keyed.find?_ofList] at hfound
    obtain ⟨pair, hpair, rfl⟩ := Option.map_eq_some_iff.mp hfound
    have hpair := List.mem_reverse.mp (List.mem_of_find?_eq_some hpair)
    obtain ⟨d, hd, rfl⟩ := List.mem_map.mp hpair
    exact hd
  have hbelow := (hclasses found hmem).below rfl
  rw [everyOf_iff, List.forall_mem_map] at hbelow
  exact ((every_node rfl _).mp (hbelow s hs)).1

theorem everyOf_schemasDistinct_history
    (hknows : c.KnowsDistinctly) {history history' : List HistoryItem}
    (h : List.Forall₂ c.AcceptsItem history history')
    (hnames : EveryOf Node.NamesDistinctly
      ((history.map HistoryItem.withoutResults).map HistoryItem.tree)) :
    EveryOf Node.SchemasDistinct
      ((history'.map HistoryItem.withoutResults).map HistoryItem.tree) := by
  induction h with
  | nil => exact everyOf_nil
  | cons hitem _ ih =>
      obtain ⟨hfirst, hrest⟩ := (everyOf_cons _ _).mp hnames
      have hstatement := ((everyOf_cons _ _).mp (hfirst.below rfl)).1
      cases hitem with
      | mk hbody _ =>
          obtain ⟨-, hevery⟩ :=
            AcceptsStatement.schemasDistinct hknows declaresDistinctly_empty
              (.expression hbody) hstatement
          exact (everyOf_cons _ _).mpr ⟨(every_node rfl _).mpr
            ⟨List.forall_mem_nil _, (everyOf_cons _ _).mpr ⟨hevery, everyOf_nil⟩⟩, ih hrest⟩

theorem AcceptsInput.schemasDistinct
    (hknows : c.KnowsDistinctly) {input output : Input} (h : c.AcceptsInput input output)
    (hnames : input.visitedTree.Every Node.NamesDistinctly) :
    output.visitedTree.Every Node.SchemasDistinct := by
  cases h with
  | program hdeclarations hstatements =>
      have hbelow := hnames.below rfl
      simp only [everyOf_append] at hbelow
      obtain ⟨⟨hclasses, hdeclared⟩, hlast⟩ := hbelow
      have hknows := hknows.forProgram hclasses
      obtain ⟨hscope, hdeclarations⟩ :=
        hdeclarations.schemasDistinct hknows declaresDistinctly_empty hdeclared
      have hstatements := hstatements.schemasDistinct hknows hscope hlast
      refine (every_node rfl _).mpr ⟨List.forall_mem_nil _, ?_⟩
      simp only [everyOf_append]
      refine ⟨⟨?_, hdeclarations⟩, hstatements⟩
      exact everyOf_classes (fun _ => List.forall_mem_nil _) (fun _ => List.forall_mem_nil _) _
  | permission hprincipal hquery haction =>
      refine (every_node rfl _).mpr ⟨List.forall_mem_nil _, ?_⟩
      refine (everyOf_cons _ _).mpr ⟨hprincipal.schemasDistinct hknows, ?_⟩
      refine (everyOf_cons _ _).mpr ⟨hquery.schemasDistinct hknows, ?_⟩
      exact (everyOf_cons _ _).mpr ⟨haction.schemasDistinct hknows, everyOf_nil⟩
  | dialogue hhistory =>
      exact (every_node rfl _).mpr ⟨List.forall_mem_nil _,
        everyOf_schemasDistinct_history hknows hhistory (hnames.below rfl)⟩
  | answer hvalue =>
      exact (every_node rfl _).mpr ⟨List.forall_mem_nil _,
        (everyOf_cons _ _).mpr ⟨hvalue.schemasDistinct hknows, everyOf_nil⟩⟩
  | special | choice => exact (every_node rfl []).mpr ⟨List.forall_mem_nil _, everyOf_nil⟩

/-- If all arguments have different names to start from, they have different names in all signatures
that a check writes down.  What is found under a name does not depend then on whether the
arguments are searched or brought into scope. -/
theorem check_schemasDistinct
    (hknows : c.KnowsDistinctly) {input output : Input} {s : Session σ}
    (hnames : ∀ label ∈ input.visited, label.NamesDistinctly)
    (h : ((c.check input).runIn s).1 = .ok output) :
    ∀ label ∈ output.visited, ∀ schema ∈ label.schemas,
      schema.HasDistinctArgs ∧ ∀ (scope : Scope) (name : String),
        (scope.addArguments schema).var? name =
          ((schema.arg? name).map Argument.type).or (scope.var? name) := by
  have haccepted : c.AcceptsInput input output := acceptsInput_of_check h
  intro label hlabel schema hschema
  have hdistinct : schema.HasDistinctArgs :=
    haccepted.schemasDistinct hknows hnames label hlabel schema hschema
  exact ⟨hdistinct, hdistinct.var?_addArguments⟩

/-- News are searched under a declared name, and their titles are kept under an assigned one. -/
def Digest.keeping : Program :=
  { declaring "about" with
    statements :=
      [.assign "titles"
        (.clause {}
          (.call {} "find" [⟨"about", .string "Lean", none⟩])
          (.projection ["title"] [.computation "+" [.var "title" none, .string "!"] none none]
            [some "loud"])) none] }

theorem knowsDistinctly_digest :
    Digest.checker.KnowsDistinctly := by
  have hclasses : ∀ entry ∈ (SchemaLibrary.ofList [Digest.search, Digest.send]).classes,
      entry.2.HasDistinctArgs := by
    unfold ClassDef.HasDistinctArgs
    decide
  refine ⟨?_, ?_⟩
  · intro kind found h
    cases h
  · intro key state schema h
    exact SchemaLibrary.hasDistinctArgs_of_answer hclasses h

theorem keeping_schemasDistinct :
    ∃ output,
      ((Digest.checker.check (.program Digest.keeping)).runIn Digest.session).1 = .ok output ∧
      ∀ label ∈ output.visited, ∀ schema ∈ label.schemas,
        schema.HasDistinctArgs ∧ ∀ (scope : Scope) (name : String),
          (scope.addArguments schema).var? name =
            ((schema.arg? name).map Argument.type).or (scope.var? name) := by
  obtain ⟨output, houtput⟩ :
      ∃ output, ((Digest.checker.check (.program Digest.keeping)).runIn Digest.session).1 =
        .ok output :=
    ⟨_, rfl⟩
  have hnames : ∀ label ∈ (Input.program Digest.keeping).visited, label.NamesDistinctly := by
    decide
  exact ⟨output, houtput, check_schemasDistinct knowsDistinctly_digest hnames houtput⟩

end Checker

end SkillLang

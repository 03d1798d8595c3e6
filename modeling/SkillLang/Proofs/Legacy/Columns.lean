import SkillLang.Proofs.Legacy.Conversion
import SkillLang.Proofs.Typing.AcceptanceOfCheck

/-!
# Columns of legacy projections

A projection becomes a computation for each of its computed columns, and around them a projection
if there are plain columns.  Without plain columns nothing drops what was there before, and with
them a computed column is kept by its label only.  The signature of the projection has the plain
and the computed columns in either case, so that both agree under some conditions only.
-/

namespace SkillLang

/-- The names of computed columns: their labels, or what is told by the values. -/
def columnNames : List (Option String) → List Value → List String
  | labels, value :: values =>
    labels.head?.join.getD value.outputName :: columnNames labels.tail values
  | _, [] => []

namespace Legacy

/-! ## Columns -/

-- What the functions that are called by name return.
variable (outputs : String → List String)

/-- The columns of a table: what its functions return, unless a projection picks some of it, and
what is computed or counted for every result. -/
def Table.columns : Table → List String
  | .invocation i => (i.schema.map Signature.outNames).getD []
  | .call name _ => outputs name
  | .filter t _ | .named t _ | .sort t _ _ | .index t _ | .slice t _ _ => t.columns
  | .projection _ args => args
  | .compute t value label => t.columns ++ [label.getD value.outputName]
  | .aggregation _ field op => [if op = "count" then "count" else field]
  | .join lhs rhs _ => lhs.columns ++ rhs.columns

def Stream.columns : Stream → List String
  | .timer _ _ _ | .atTimer _ _ | .onTimer _ => []
  | .call name _ => outputs name
  | .monitor t _ => t.columns outputs
  | .edgeNew s | .edgeFilter s _ | .filter s _ | .named s _ => s.columns
  | .projection _ args => args
  | .compute s value label => s.columns ++ [label.getD value.outputName]
  | .join s t _ => s.columns ++ t.columns outputs

def Node.columns : Node → List String
  | .table t => t.columns outputs
  | .stream s => s.columns outputs
  | .action _ => []

/-- The columns of the node are the outputs of a signature. -/
def Node.HasColumns (n : Node) (schema : Signature) : Prop :=
  ∀ name, name ∈ n.columns outputs ↔ name ∈ schema.outNames

/-! ## Conversion -/

theorem Node.clause_columns
    (n : Node) (columns : List String) {onTable : Table → Table} {onStream : Stream → Stream}
    (htable : ∀ t, n = .table t → (onTable t).columns outputs = columns)
    (hstream : ∀ s, n = .stream s → (onStream s).columns outputs = columns)
    (e : ConversionError) :
    Meets (fun m => m.columns outputs = columns) False (n.clause onTable onStream e) := by
  cases n with
  | table t => exact htable t rfl
  | stream s => exact hstream s rfl
  | action a => exact meets_error not_false e

theorem Node.compute_columns
    (n : Node) (range : Option Range) (values : List Value) (labels : List (Option String)) :
    Meets (fun m => m.columns outputs = n.columns outputs ++ columnNames labels values) False
      (n.compute range values labels) := by
  induction values generalizing n labels with
  | nil => exact (List.append_nil _).symm
  | cons value values ih =>
      let name := labels.head?.join.getD value.outputName
      rw [Node.compute]
      refine (n.clause_columns outputs (n.columns outputs ++ [name]) ?_ ?_ _).bind id ?_
      · rintro t rfl
        rfl
      · rintro s rfl
        rfl
      · intro m hm
        refine (ih m labels.tail).mono ?_ id
        intro k hk
        rw [hk, hm, List.append_assoc]
        rfl

/-- Plain columns replace all that were there before. -/
theorem convertClause_projection_columns
    (n : Node) (range : Option Range) (args : List String) (values : List Value)
    (labels : List (Option String)) :
    Meets
      (fun m => m.columns outputs =
        if args = [] then n.columns outputs ++ columnNames labels values
        else args ++ labels.filterMap id)
      False (convertClause n range (.projection args values labels)) := by
  refine (n.compute_columns outputs range values labels).bind id fun m hm => ?_
  dsimp only
  by_cases hargs : args = []
  · subst hargs
    exact hm
  · simp only [if_neg hargs]
    rw [if_neg (by simpa using hargs)]
    exact m.clause_columns outputs (args ++ labels.filterMap id) (fun _ _ => rfl)
      (fun _ _ => rfl) _

theorem toLegacy_projection
    {inner : Expression} {m : Node} (h : inner.toLegacy = .ok m) (info : Info)
    (args : List String) (values : List Value) (labels : List (Option String)) :
    (Expression.clause info inner (.projection args values labels)).toLegacy =
      convertClause m info.range (.projection args values labels) := by
  have hinner : convert (fun _ => true) inner = .ok m := h
  rw [Expression.toLegacy, convert, hinner]
  rfl

end Legacy

namespace Checker

open Legacy

variable {σ : Type} {c : Checker σ} {outputs : String → List String}

/-! ## Signatures -/

theorem isInput_of_mem_columnOutputs
    {labels : List (Option String)} {values : List Value} {types : List Ty} :
    ∀ a ∈ columnOutputs labels values types, a.isInput = false := by
  induction values generalizing labels types with
  | nil => exact List.forall_mem_nil _
  | cons value values ih =>
      cases types with
      | nil => exact List.forall_mem_nil _
      | cons type types => exact List.forall_mem_cons.mpr ⟨rfl, ih⟩

theorem AcceptsValues.map_name_columnOutputs
    {scope : Scope} {depth : Nat} {values values' : List Value} {types : List Ty}
    (h : c.AcceptsValues scope depth values values' types) (labels : List (Option String)) :
    (columnOutputs labels values' types).map Argument.name = columnNames labels values' := by
  induction values generalizing values' types labels with
  | nil =>
      cases h
      rfl
  | cons value values ih =>
      cases h with
      | cons _ hvalues =>
          rw [columnOutputs, columnNames, List.map_cons, ih hvalues]

/-- The outputs of a projection are its plain columns, apart from inputs, and the computed ones. -/
theorem AcceptsClause.mem_outNames_projection
    {base schema : Signature} {scope : Scope} {range : Option Range} {depth : Nat}
    {args args' : List String} {values values' : List Value} {labels labels' : List (Option String)}
    (h : c.AcceptsClause base scope range depth (.projection args values labels)
      (.projection args' values' labels') schema)
    (name : String) :
    name ∈ schema.outNames ↔
      (name ∈ args' ∧ name ∈ base.outNames) ∨ name ∈ columnNames labels' values' := by
  cases h with
  | projection _ _ hcolumns =>
      rw [Signature.mem_outNames_addArguments isInput_of_mem_columnOutputs,
        Signature.mem_outNames_filterOutputs, hcolumns.map_name_columnOutputs]

/-- Plain columns and labels are the outputs that are kept and those that are computed. -/
theorem forall_mem_append_iff
    {args named outs computed : List String} :
    (∀ name, name ∈ args ++ named ↔ name ∈ args ∧ name ∈ outs ∨ name ∈ computed) ↔
      args ⊆ outs ++ computed ∧ named ⊆ args ++ computed ∧ computed ⊆ args ++ named := by
  simp only [List.subset_def, List.mem_append]
  constructor
  · intro hsame
    refine ⟨@fun name hmem => ?_, @fun name hmem => ?_, @fun name hmem => ?_⟩
    · exact ((hsame name).mp (.inl hmem)).imp_left And.right
    · exact ((hsame name).mp (.inr hmem)).imp_left And.left
    · exact (hsame name).mpr (.inr hmem)
  · rintro ⟨hplain, hnamed, hcomputed⟩ name
    have hkept : name ∈ args → name ∈ args ∧ name ∈ outs ∨ name ∈ computed :=
      fun hmem => (hplain hmem).imp_left fun hout => ⟨hmem, hout⟩
    constructor
    · rintro (hmem | hmem)
      · exact hkept hmem
      · exact (hnamed hmem).elim hkept .inr
    · rintro (⟨hmem, -⟩ | hmem)
      · exact .inl hmem
      · exact hcomputed hmem

/-- The legacy form of a projection has the columns of its signature if and only if all columns of
what it is applied to are computed anew, or if its plain columns are outputs, its labels belong to
columns and no computed column goes without a label. -/
theorem toLegacy_projection_hasColumns_iff
    {s : Session σ} {scope : Scope} {depth : Nat} {info info' : Info} {inner inner' : Expression}
    {args args' : List String} {values values' : List Value} {labels labels' : List (Option String)}
    {base schema : Signature} {m n : Legacy.Node}
    (hcheck : ((c.checkExpression scope depth
      (.clause info inner (.projection args values labels))).runIn s).1 =
        .ok (.clause info' inner' (.projection args' values' labels'), schema))
    (hbase : inner'.schema = some base) (hinner : inner'.toLegacy = .ok m)
    (hcolumns : m.HasColumns outputs base)
    (hconvert : (Expression.clause info' inner' (.projection args' values' labels')).toLegacy =
      .ok n) :
    let computed := columnNames labels' values'
    let named := labels'.filterMap id
    n.HasColumns outputs schema ↔
      if args' = [] then base.outNames ⊆ computed
      else args' ⊆ base.outNames ++ computed ∧ named ⊆ args' ++ computed ∧
        computed ⊆ args' ++ named := by
  intro computed named
  have haccepts := acceptsExpression_of_mayReturn _ ⟨s, hcheck⟩
  cases haccepts with
  | clause _ hinnerAccepts hclause =>
      obtain rfl := Option.some.inj (hbase.symm.trans hinnerAccepts.schema_eq)
      have houts := hclause.mem_outNames_projection
      rw [toLegacy_projection hinner] at hconvert
      have hn := (convertClause_projection_columns outputs m _ _ _ _).of_eq_ok hconvert
      rw [Legacy.Node.HasColumns, hn]
      simp only [houts]
      split
      next hargs =>
          simp only [hargs, List.mem_append, List.not_mem_nil, false_and, false_or,
            or_iff_right_iff_imp]
          exact forall_congr' fun name => imp_congr_left (hcolumns name)
      next => exact forall_mem_append_iff

/-! ### News with emphasis -/

namespace Digest

/-- The titles of news, each of them with a form that has more emphasis. -/
def emphasis (label : Option String) : Expression :=
  .clause {}
    (.invocation {}
      ⟨.device (.ofKind "com.news"), "search", [⟨"topic", .string "Lean", none⟩], none, none⟩)
    (.projection ["title"] [.computation "+" [.var "title" none, .string "!"] none none] [label])

def checkEmphasis (label : Option String) : Except TypeError (Expression × Signature) :=
  ((checker.checkExpression .empty 0 (emphasis label)).runIn session).1

end Digest

/-- The signature has a column for the titles with emphasis, the legacy form does not. -/
theorem emphasis_dropped :
    ∃ info' inner' values' base schema m n,
      Digest.checkEmphasis none =
          .ok (.clause info' inner' (.projection ["title"] values' [none]), schema) ∧
        inner'.schema = some base ∧ inner'.toLegacy = .ok m ∧
        m.HasColumns (fun _ => []) base ∧
        (Expression.clause info' inner' (.projection ["title"] values' [none])).toLegacy = .ok n ∧
        schema.outNames = ["title", "+"] ∧ n.columns (fun _ => []) = ["title"] :=
  ⟨_, _, _, _, _, _, _, rfl, rfl, rfl, fun _ => Iff.rfl, rfl, rfl, rfl⟩

theorem emphasis_kept :
    ∃ info' inner' values' base schema m n,
      Digest.checkEmphasis (some "emphatic") =
          .ok (.clause info' inner' (.projection ["title"] values' [some "emphatic"]), schema) ∧
        inner'.schema = some base ∧ inner'.toLegacy = .ok m ∧
        m.HasColumns (fun _ => []) base ∧
        (Expression.clause info' inner'
          (.projection ["title"] values' [some "emphatic"])).toLegacy = .ok n ∧
        n.HasColumns (fun _ => []) schema := by
  obtain ⟨info', inner', values', base, schema, m, n, hcheck, hbase, hinner, hcolumns, hconvert,
      hlabels⟩ : ∃ info' inner' values' base schema m n,
        Digest.checkEmphasis (some "emphatic") =
            .ok (.clause info' inner' (.projection ["title"] values' [some "emphatic"]), schema) ∧
          inner'.schema = some base ∧ inner'.toLegacy = .ok m ∧
          m.HasColumns (fun _ => []) base ∧
          (Expression.clause info' inner'
            (.projection ["title"] values' [some "emphatic"])).toLegacy = .ok n ∧
          base.outNames = ["title"] ∧ columnNames [some "emphatic"] values' = ["emphatic"] :=
    ⟨_, _, _, _, _, _, _, rfl, rfl, rfl, fun _ => Iff.rfl, rfl, rfl, rfl⟩
  refine ⟨info', inner', values', base, schema, m, n, hcheck, hbase, hinner, hcolumns, hconvert, ?_⟩
  refine (toLegacy_projection_hasColumns_iff hcheck hbase hinner hcolumns hconvert).mpr ?_
  rw [hlabels.1, hlabels.2]
  decide

end Checker

end SkillLang

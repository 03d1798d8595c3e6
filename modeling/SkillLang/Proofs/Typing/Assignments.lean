import SkillLang.Proofs.Typing.AcceptanceOfCheck
import SkillLang.Proofs.Typing.FunctionTypes

/-!
# Calls of assigned names

An assigned name stands for a function without inputs, but not without requirements: it
keeps the groups of inputs of which one each has to be given, and no call can give any
of them.  A program that ends in an assignment can therefore go on with a call of the
assigned name if and only if the assigned expression has no such groups.
-/

namespace SkillLang

/-! ## Requirements -/

namespace Signature

/-- A call without parameters meets no group of alternatives. -/
theorem requireParams_nil
    {s : Signature} (hargs : s.inArgs = []) (range : Option Range) :
    s.requireParams [] range =
      match s.requireEither with
      | [] => .ok ()
      | names :: _ => .error (.requireEither s.qualifiedName names range) := by
  unfold requireParams
  rw [hargs]
  cases hgroups : s.requireEither with
  | nil => rfl
  | cons names groups => rfl

theorem inArgs_assigned
    (s : Signature) (name : String) :
    (s.assigned name).inArgs = [] := by
  unfold inArgs assigned outArgs
  rw [List.filter_filter, List.filter_eq_nil_iff]
  intro a _
  simp

end Signature

namespace Checker

variable {σ : Type} {c : Checker σ}

/-! ## Statements one after the other -/

/-- Checks statements like `checkStatements`, and tells the scope after them as well. -/
def checkStatementsInto (c : Checker σ) (scope : Scope) :
    List Statement → Check σ (List Statement × List Signature × Scope)
  | [] => return ([], [], scope)
  | s :: rest => do
    let (s, schema, scope) ← c.checkStatement scope s
    let (rest, schemas, scope) ← c.checkStatementsInto scope rest
    return (s :: rest, schema.toList ++ schemas, scope)

theorem checkStatements_append
    (scope : Scope) (front rest : List Statement) :
    c.checkStatements scope (front ++ rest) = do
      let (front, schemas, scope) ← c.checkStatementsInto scope front
      let (rest, more) ← c.checkStatements scope rest
      return (front ++ rest, schemas ++ more) := by
  induction front generalizing scope with
  | nil => simp [checkStatementsInto]
  | cons statement front ih =>
      simp [checkStatementsInto, checkStatements, ih, List.append_assoc]

/-! ## The call of an assigned name -/

/-- A call of a name without parameters, as a statement. -/
def callOf (name : String) (range : Option Range) (schema : Option Signature) : Statement :=
  .expression ⟨.call ⟨range, schema⟩ name [], range⟩

/-- The only thing that can be wrong with a call of an assigned name is a group of alternatives. -/
theorem checkStatement_callOf
    (scope : Scope) (name : String) (schema : Signature) (range : Option Range) :
    c.checkStatement (scope.addFunction name (schema.assigned name)) (callOf name range none) = do
      ofExcept ((schema.assigned name).requireParams [] range)
      return (callOf name range (schema.assigned name), some (schema.assigned name),
        scope.addFunction name (schema.assigned name)) := by
  have hfunction :
      (scope.addFunction name (schema.assigned name)).function? name =
        some (schema.assigned name) :=
    Keyed.find?_insert_self name _ scope.functions
  have hdepth : (guardDepth 0 : Check σ Unit) = pure () := rfl
  have hcall (s : Signature) (scope : Scope) :
      c.checkCall s [] scope range 0 = do
        ofExcept (s.requireParams [] range)
        return [] := by
    simp [checkCall, checkParams]
  simp [checkStatement, callOf, checkExpression, hfunction, hdepth, hcall]

theorem checkStatements_assign
    (scope : Scope) (front : List Statement) (name : String) (body : Expression)
    (range : Option Range) :
    c.checkStatements scope (front ++ [.assign name body range]) = do
      let (front, schemas, scope) ← c.checkStatementsInto scope front
      let (body, _) ← c.checkExpression scope 0 body
      return (front ++ [.assign name body range], schemas) := by
  simp [checkStatements_append, checkStatements, checkStatement]

theorem checkStatements_assign_callOf
    (scope : Scope) (front : List Statement) (name : String) (body : Expression)
    (range callRange : Option Range) :
    c.checkStatements scope (front ++ [.assign name body range, callOf name callRange none]) = do
      let (front, schemas, scope) ← c.checkStatementsInto scope front
      let (body, schema) ← c.checkExpression scope 0 body
      ofExcept ((schema.assigned name).requireParams [] callRange)
      return (front ++ [.assign name body range, callOf name callRange (schema.assigned name)],
        schemas ++ [schema.assigned name]) := by
  have hassign (scope : Scope) :
      c.checkStatement scope (.assign name body range) = do
        let (body, schema) ← c.checkExpression scope 0 body
        return (.assign name body range, none, scope.addFunction name (schema.assigned name)) :=
    rfl
  simp [checkStatements_append, checkStatements, hassign, checkStatement_callOf]

/-- Statements that end in an assignment, and then a call of the assigned name. -/
theorem runIn_checkStatements_callOf
    {scope : Scope} {front : List Statement} {name : String} {body : Expression}
    {range : Option Range} {statements' : List Statement} {schemas : List Signature}
    {s next : Session σ}
    (h : (c.checkStatements scope (front ++ [.assign name body range])).runIn s =
      (.ok (statements', schemas), next))
    (callRange : Option Range) :
    ∃ front' body' schema, statements' = front' ++ [.assign name body' range] ∧
      body'.schema = some schema ∧
      (c.checkStatements scope
          (front ++ [.assign name body range, callOf name callRange none])).runIn s =
        match schema.requireEither with
        | [] =>
            (.ok (statements' ++ [callOf name callRange (schema.assigned name)],
              schemas ++ [schema.assigned name]), next)
        | names :: _ => (.error (.requireEither name names callRange), next) := by
  rw [checkStatements_assign] at h
  obtain ⟨⟨front', before, scope'⟩, middle, hfront, h⟩ := Action.exists_of_runIn_bind h
  obtain ⟨⟨body', schema⟩, last, hbody, h⟩ := Action.exists_of_runIn_bind h
  cases h
  have haccepted : c.AcceptsExpression scope' 0 body body' schema :=
    acceptsExpression_of_mayReturn body ⟨middle, by rw [hbody]⟩
  refine ⟨front', body', schema, rfl, haccepted.schema_eq, ?_⟩
  rw [checkStatements_assign_callOf, Action.runIn_bind_of_ok hfront]
  simp only
  rw [Action.runIn_bind_of_ok hbody]
  simp only
  have hrequired := Signature.requireParams_nil (schema.inArgs_assigned name) callRange
  have hgroups : (schema.assigned name).requireEither = schema.requireEither := rfl
  rw [Action.runIn_bind, Action.runIn_ofExcept, hrequired, hgroups]
  cases schema.requireEither with
  | nil =>
      rw [List.append_assoc]
      rfl
  | cons names groups => rfl

/-! ## Programs -/

/-- A program that goes on with a call of a name. -/
def calling (p : Program) (name : String) (range : Option Range) : Program :=
  { p with statements := p.statements ++ [callOf name range none] }

/-- Once its declarations are checked, how a program ends is up to its statements. -/
theorem runIn_checkParts_program
    (p : Program) (s : Session σ) :
    ((c.checkParts (.program p)).runIn s).1 =
      match ((c.forProgram p).checkDeclarations .empty p.declarations).runIn s with
      | (.error e, _) => .error e
      | (.ok (declarations, scope), next) =>
          (((c.forProgram p).checkStatements scope p.statements).runIn next).1.map
            fun checked => .program { p with declarations, statements := checked.1 } := by
  change ((((c.forProgram p).checkDeclarations .empty p.declarations >>= _) >>= _).runIn s).1 = _
  rw [bind_assoc, Action.runIn_bind]
  rcases ((c.forProgram p).checkDeclarations .empty p.declarations).runIn s with ⟨result, next⟩
  cases result with
  | error e => rfl
  | ok before =>
      obtain ⟨declarations, scope⟩ := before
      change ((((c.forProgram p).checkStatements scope p.statements >>= _) >>= _).runIn next).1 = _
      rw [bind_assoc, Action.runIn_bind]
      dsimp only
      rcases ((c.forProgram p).checkStatements scope p.statements).runIn next with ⟨result, last⟩
      cases result with
      | error e => rfl
      | ok checked => rfl

/-- A program that ends in an assignment is accepted together with a call of the assigned name if
the signature of the assigned expression asks for no alternatives, and otherwise refused for the
first group of them. -/
theorem check_calling_assigned
    {p : Program} {front : List Statement} {name : String} {body : Expression}
    {range : Option Range} (hlast : p.statements = front ++ [.assign name body range])
    {output : Input} {s : Session σ}
    (h : ((c.check (.program p)).runIn s).1 = .ok output)
    (callRange : Option Range) :
    ∃ checked front' body' schema, output = .program checked ∧
      checked.statements = front' ++ [.assign name body' range] ∧
      body'.schema = some schema ∧
      ((c.check (.program (calling p name callRange))).runIn s).1 =
        match schema.requireEither with
        | [] =>
            .ok (.program { checked with
              statements := checked.statements ++
                [callOf name callRange (schema.assigned name)] })
        | names :: _ => .error (.requireEither name names callRange) := by
  have hstarted : started (.program (calling p name callRange)) s = started (.program p) s := rfl
  have hclasses : c.forProgram (calling p name callRange) = c.forProgram p := rfl
  have hdeclared : (calling p name callRange).declarations = p.declarations := rfl
  have hcalling : (calling p name callRange).statements =
      front ++ [.assign name body range, callOf name callRange none] := by
    rw [calling, hlast, List.append_assoc]
    rfl
  rw [check_result, runIn_checkParts_program] at h ⊢
  rw [hstarted, hclasses, hdeclared, hcalling]
  rw [hlast] at h
  -- Both checks take the same course up to the last statement, which is the call.
  rcases hdeclarations : ((c.forProgram p).checkDeclarations .empty p.declarations).runIn
    (started (.program p) s) with ⟨result, middle⟩
  rw [hdeclarations] at h
  cases result with
  | error e => cases h
  | ok before =>
      obtain ⟨declarations, scope⟩ := before
      rcases hstatements : ((c.forProgram p).checkStatements scope
        (front ++ [.assign name body range])).runIn middle with ⟨result, last⟩
      simp only [hstatements] at h
      cases result with
      | error e => cases h
      | ok after =>
          cases h
          obtain ⟨statements', schemas⟩ := after
          obtain ⟨front', body', schema, hstatements', hschema, hrun⟩ :=
            runIn_checkStatements_callOf hstatements callRange
          refine ⟨_, front', body', schema, rfl, hstatements', hschema, ?_⟩
          simp only [hrun]
          cases schema.requireEither with
          | nil => rfl
          | cons names groups => rfl

/-- News about a topic get a name. -/
def Digest.naming : Program where
  classes := []
  declarations := []
  statements :=
    [.assign "news"
      (.invocation {} ⟨.device (.ofKind "com.news"), "search",
        [⟨"topic", .string "Lean", none⟩], none, none⟩) none]
  range := none

theorem naming_callable :
    ∃ checked front' body' schema,
      ((Digest.checker.check (.program Digest.naming)).runIn Digest.session).1 =
        .ok (.program checked) ∧
      checked.statements = front' ++ [.assign "news" body' none] ∧
      body'.schema = some schema ∧
      ((Digest.checker.check (.program (calling Digest.naming "news" none))).runIn
          Digest.session).1 =
        match schema.requireEither with
        | [] =>
            .ok (.program { checked with
              statements := checked.statements ++ [callOf "news" none (schema.assigned "news")] })
        | names :: _ => .error (.requireEither "news" names none) := by
  obtain ⟨output, houtput⟩ :
      ∃ output, ((Digest.checker.check (.program Digest.naming)).runIn Digest.session).1 =
        .ok output :=
    ⟨_, rfl⟩
  have hlast : Digest.naming.statements = [] ++ Digest.naming.statements := rfl
  obtain ⟨checked, front', body', schema, rfl, hstatements, hschema, hrun⟩ :=
    check_calling_assigned hlast houtput none
  exact ⟨checked, front', body', schema, houtput, hstatements, hschema, hrun⟩

/-- The news are to be searched by topic or by author. -/
def Digest.choosing : Checker Unit :=
  let search : Signature :=
    { Digest.search with
      args :=
        [{ name := "topic", direction := .inOpt, type := .string },
          { name := "author", direction := .inOpt, type := .string },
          { name := "title", direction := .out, type := .string }]
      requireEither := [["topic", "author"]] }
  { source := (SchemaLibrary.ofList [search]).source }

-- The topic is given where the name is assigned, and cannot be given where it is called.
theorem choosing_not_callable :
    (∃ output,
      ((Digest.choosing.check (.program Digest.naming)).runIn Digest.session).1 = .ok output) ∧
      ((Digest.choosing.check (.program (calling Digest.naming "news" none))).runIn
          Digest.session).1 =
        .error (.requireEither "news" ["topic", "author"] none) :=
  ⟨⟨_, rfl⟩, rfl⟩

end Checker

end SkillLang

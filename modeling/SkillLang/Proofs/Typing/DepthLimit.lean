import SkillLang.Proofs.ActionStates
import SkillLang.Proofs.Syntax.Parts
import SkillLang.Proofs.Typing.AcceptanceOfCheck
import SkillLang.Proofs.Typing.Depths

/-!
# The depth limit

A check stops where it goes too deep.  It does so at every node of a tree that is deeper than the
limit, and at no others.  Each part of the checker is told by the trees that it goes through and
their depths; where it goes two deeper there is another node one deeper, so that a check that stops
has a node right behind the limit.
-/

namespace SkillLang

namespace Checker

open SkillLang.Action SkillLang.Tree

variable {σ α β : Type} {c : Checker σ}

/-! ## Actions that check trees -/

/-- What the end of an action tells about trees at their depths: after a result all of them fit,
and after a refusal for depth one of them goes beyond the limit. -/
def Tells (forest : List (Nat × Tree)) : Except TypeError α → Prop
  | .ok _ => ∀ p ∈ forest, p.2.Fits p.1
  | .error e => e = .depthLimitExceeded → ∃ p ∈ forest, p.2.Passes p.1

/-- The action goes through trees at their depths. -/
def Checks (action : Check σ α) (forest : List (Nat × Tree)) : Prop :=
  ∀ state, action.Ends state fun result _ => Tells forest result

theorem checks_pure
    (a : α) :
    Checks (pure a : Check σ α) [] :=
  fun _ => ends_pure (List.forall_mem_nil _)

theorem checks_throw
    {e : TypeError} (he : e ≠ .depthLimitExceeded) (forest : List (Nat × Tree)) :
    Checks (throw e : Check σ α) forest :=
  fun _ => ends_throw fun h => absurd h he

theorem Checks.imp
    {action : Check σ α} {forest forest' : List (Nat × Tree)} (h : Checks action forest)
    (hfits : (∀ p ∈ forest, p.2.Fits p.1) → ∀ p ∈ forest', p.2.Fits p.1)
    (hpasses : ∀ p ∈ forest, p.2.Passes p.1 → ∃ p ∈ forest', p.2.Passes p.1) :
    Checks action forest' := by
  refine fun state => (h state).mono fun result _ htells => ?_
  cases result with
  | ok a => exact hfits htells
  | error e =>
      intro he
      obtain ⟨p, hp, hpass⟩ := htells he
      exact hpasses p hp hpass

theorem Checks.bind
    {action : Check σ α} {f : α → Check σ β} {forest rest : List (Nat × Tree)}
    (hfirst : Checks action forest) (hrest : ∀ a, Checks (f a) rest) :
    Checks (action >>= f) (forest ++ rest) := by
  refine fun state => (hfirst state).bind ?_ ?_
  · intro a next hfits
    refine Checks.imp (hrest a) ?_ ?_ next
    · exact fun h => List.forall_mem_append.mpr ⟨hfits, h⟩
    · exact fun p hp hpass => ⟨p, List.mem_append_right _ hp, hpass⟩
  · intro e next hpasses he
    obtain ⟨p, hp, hpass⟩ := hpasses he
    exact ⟨p, List.mem_append_left _ hp, hpass⟩

/-- A step that goes into no tree. -/
theorem Checks.skip
    {action : Check σ α} {f : α → Check σ β} {forest : List (Nat × Tree)}
    (hfirst : Checks action []) (hrest : ∀ a, Checks (f a) forest) :
    Checks (action >>= f) forest :=
  hfirst.bind hrest

/-- What follows goes into no tree. -/
theorem Checks.map
    {action : Check σ α} {f : α → Check σ β} {forest : List (Nat × Tree)}
    (hfirst : Checks action forest) (hrest : ∀ a, Checks (f a) []) :
    Checks (action >>= f) forest :=
  List.append_nil forest ▸ hfirst.bind hrest

theorem Checks.record_bind
    {event : Event} {f : Unit → Check σ α} {forest : List (Nat × Tree)}
    (h : Checks (f ()) forest) :
    Checks (record event >>= f) forest :=
  fun state => ends_record_bind (h state)

theorem checks_throw_bind
    {e : TypeError} (he : e ≠ .depthLimitExceeded) (f : α → Check σ β)
    (forest : List (Nat × Tree)) :
    Checks (throw e >>= f) forest := by
  intro state s _
  rw [runIn_bind, runIn_throw]
  exact fun h => absurd h he

theorem Checks.ite_throw_bind
    {p : Prop} [Decidable p] {e : TypeError} (he : e ≠ .depthLimitExceeded)
    {f : α → Check σ β} {action : Check σ β} {forest : List (Nat × Tree)}
    (h : Checks action forest) :
    Checks (if p then throw e >>= f else action) forest := by
  split
  next => exact checks_throw_bind he f forest
  next => exact h

theorem checks_test
    {p : Prop} [Decidable p] {e : TypeError} (he : e ≠ .depthLimitExceeded) {a : α} :
    Checks (if p then pure a else throw e : Check σ α) [] := by
  split
  next => exact checks_pure a
  next => exact checks_throw he []

theorem checks_mapM
    {f : α → Check σ β} {forest : α → List (Nat × Tree)} (h : ∀ x, Checks (f x) (forest x))
    (xs : List α) :
    Checks (xs.mapM f) (xs.flatMap forest) := by
  induction xs with
  | nil => exact checks_pure []
  | cons x xs ih =>
      rw [List.mapM_cons, List.flatMap_cons]
      exact (h x).bind fun _ => ih.map fun _ => checks_pure _

/-- In the first tree there is nothing to check. -/
theorem Checks.beside
    {action : Check σ α} {forest : List (Nat × Tree)} (h : Checks action forest) {t : Tree}
    (ht : t.Every fun label => label.isNested = false) (depth : Nat) :
    Checks action ((depth, t) :: forest) := by
  refine h.imp ?_ ?_
  · exact fun hfits => List.forall_mem_cons.mpr ⟨fits_of_not_nested ht depth, hfits⟩
  · exact fun p hp hpass => ⟨p, List.mem_cons_of_mem _ hp, hpass⟩

/-- A node that is not nested is at the depth of its parts. -/
theorem Checks.within
    {action : Check σ α} {label : Node} (hlabel : label.isNested = false)
    (hdevice : label.isDevice = false) {depth : Nat} {children : List Tree}
    (h : Checks action (children.map (Prod.mk depth))) :
    Checks action [(depth, .node label children)] := by
  have hparts : parts label depth children = children.map (Prod.mk depth) := by
    refine List.map_congr_left fun t _ => ?_
    rw [Node.descent_of_not_nested hlabel]
    rfl
  rw [← hparts] at h
  refine h.imp ?_ ?_
  · intro hfits
    rw [List.forall_mem_singleton, fits_node hdevice]
    exact ⟨fun hnested => absurd hnested (Bool.eq_false_iff.mp hlabel), hfits⟩
  · intro p hp hpass
    obtain ⟨t, ht, rfl⟩ := List.mem_map.mp hp
    refine ⟨_, List.mem_cons_self, hpass.imp ?_ ?_⟩
    · intro hbeyond
      dsimp only at hbeyond
      rwa [Node.descent_of_not_nested hlabel] at hbeyond
    · rintro ⟨q, hq, hnested⟩
      exact ⟨q, depths_subset_of_part hdevice ht hq, hnested⟩

/-! ## Nested nodes -/

theorem runIn_guardDepth_bind
    (depth : Nat) (f : Unit → Check σ α) (s : Session σ) :
    (guardDepth depth >>= f).runIn s =
      if Limits.maxDepth < depth then (.error .depthLimitExceeded, s) else (f ()).runIn s := by
  unfold guardDepth
  split
  next => rw [runIn_bind, runIn_throw]
  next => rw [pure_bind]

theorem checks_guardDepth_bind
    {depth : Nat} {f : Unit → Check σ α} {forest : List (Nat × Tree)}
    (hbeyond : Limits.maxDepth < depth → ∃ p ∈ forest, p.2.Passes p.1)
    (hwithin : depth ≤ Limits.maxDepth → Checks (f ()) forest) :
    Checks (guardDepth depth >>= f) forest := by
  intro state s hs
  rw [runIn_guardDepth_bind]
  split
  next hdepth => exact fun _ => hbeyond hdepth
  next hdepth => exact hwithin (Nat.not_lt.mp hdepth) state s hs

/-- A nested node is refused if it is deeper than the limit; otherwise its parts are checked. -/
theorem Checks.node
    {label : Node} (hlabel : label.isNested = true) {depth : Nat} {children : List Tree}
    (hgap : (∀ t ∈ children, label.descent t.root ≤ 1) ∨
      ∃ t ∈ children, t.root.isNested = true ∧ label.descent t.root = 1)
    {f : Unit → Check σ α} (h : Checks (f ()) (parts label depth children)) :
    Checks (guardDepth depth >>= f) [(depth, .node label children)] := by
  have hdevice : label.isDevice = false := by
    cases label with
    | device _ => cases hlabel
    | _ => rfl
  refine checks_guardDepth_bind (fun hbelow => ⟨_, List.mem_cons_self, ?_⟩) fun hdepth => ?_
  · rcases Nat.lt_or_eq_of_le (Nat.succ_le_of_lt hbelow) with hbeyond | hfirst
    · exact .inl hbeyond
    · exact .inr ⟨_, root_mem_depths _ depth, hlabel, hfirst.symm⟩
  · refine h.imp ?_ ?_
    · intro hfits
      rw [List.forall_mem_singleton, fits_node hdevice]
      exact ⟨fun _ => hdepth, hfits⟩
    · intro p hp hpass
      exact ⟨_, List.mem_cons_self, passes_of_part hdevice hdepth hgap hp hpass⟩

/-- The usual case: all parts of a node are one deeper. -/
theorem Checks.node_of_one
    {label : Node} (hlabel : label.isNested = true) {depth : Nat} {children : List Tree}
    (hone : ∀ t ∈ children, label.descent t.root = 1) {f : Unit → Check σ α}
    (h : Checks (f ()) (children.map (Prod.mk (depth + 1)))) :
    Checks (guardDepth depth >>= f) [(depth, .node label children)] := by
  refine .node hlabel (.inl fun t ht => Nat.le_of_eq (hone t ht)) ?_
  have hparts : parts label depth children = children.map (Prod.mk (depth + 1)) :=
    List.map_congr_left fun t ht => by rw [hone t ht]
  rw [hparts]
  exact h

/-! ## Rules that look at signatures only -/

/-- The rule refuses nothing for its depth. -/
def IgnoresDepth (r : Except TypeError α) : Prop :=
  r ≠ .error .depthLimitExceeded

theorem ignoresDepth_ok
    (a : α) :
    IgnoresDepth (.ok a) :=
  nofun

theorem ignoresDepth_error
    {e : TypeError} (he : e ≠ .depthLimitExceeded) :
    IgnoresDepth (.error e : Except TypeError α) :=
  fun h => he (Except.error.inj h)

theorem IgnoresDepth.bind
    {r : Except TypeError α} {f : α → Except TypeError β} (hfirst : IgnoresDepth r)
    (hrest : ∀ a, IgnoresDepth (f a)) :
    IgnoresDepth (r >>= f) := by
  cases r with
  | ok a => exact hrest a
  | error e => exact ignoresDepth_error fun he => hfirst (he ▸ rfl)

theorem IgnoresDepth.ite
    {p : Prop} [Decidable p] {left right : Except TypeError α} (hleft : IgnoresDepth left)
    (hright : IgnoresDepth right) :
    IgnoresDepth (if p then left else right) := by
  split
  next => exact hleft
  next => exact hright

theorem ignoresDepth_forM
    {f : α → Except TypeError Unit} (h : ∀ x, IgnoresDepth (f x)) (xs : List α) :
    IgnoresDepth (xs.forM f) := by
  induction xs with
  | nil => exact ignoresDepth_ok ()
  | cons x xs ih => exact (h x).bind fun _ => ih

theorem ignoresDepth_foldlM
    {f : β → α → Except TypeError β} (h : ∀ b x, IgnoresDepth (f b x)) (b : β) (xs : List α) :
    IgnoresDepth (xs.foldlM f b) := by
  induction xs generalizing b with
  | nil => exact ignoresDepth_ok b
  | cons x xs ih =>
      rw [List.foldlM_cons]
      exact (h b x).bind ih

section Rules

variable (s : Signature) (operation : Operation) (range : Option Range)

theorem ignoresDepth_rejectAction :
    IgnoresDepth (s.rejectAction operation range) :=
  .ite (ignoresDepth_error (by simp)) (ignoresDepth_ok ())

theorem ignoresDepth_requireQuery :
    IgnoresDepth (s.requireQuery operation range) :=
  .ite (ignoresDepth_ok ()) (ignoresDepth_error (by simp))

theorem ignoresDepth_requireList :
    IgnoresDepth (s.requireList operation range) :=
  (ignoresDepth_rejectAction s operation range).bind fun _ =>
    .ite (ignoresDepth_ok ()) (ignoresDepth_error (by simp))

theorem ignoresDepth_requireArg (name : String) :
    IgnoresDepth (s.requireArg name range) :=
  .ite (ignoresDepth_ok ()) (ignoresDepth_error (by simp))

theorem ignoresDepth_outputType (name : String) :
    IgnoresDepth (s.outputType name range) := by
  unfold Signature.outputType
  split
  next => exact ignoresDepth_ok _
  next => exact ignoresDepth_error (by simp)

theorem ignoresDepth_monitored (args : List String) :
    IgnoresDepth (s.monitored args range) := by
  refine (ignoresDepth_requireQuery s _ range).bind fun _ => ?_
  refine .ite (ignoresDepth_error (by simp)) ?_
  refine (ignoresDepth_forM (fun name => ?_) args).bind fun _ => ignoresDepth_ok _
  exact (ignoresDepth_outputType s range name).bind fun _ => ignoresDepth_ok ()

theorem ignoresDepth_chained (schemas : List Signature) :
    IgnoresDepth (Signature.chained schemas range) := by
  unfold Signature.chained
  split
  next => exact ignoresDepth_error (by simp)
  next => exact .ite (ignoresDepth_ok _) (ignoresDepth_ok _)

theorem ignoresDepth_requireParams (params : List Param) :
    IgnoresDepth (s.requireParams params range) := by
  unfold Signature.requireParams
  split
  next => exact ignoresDepth_error (by simp)
  next =>
      split
      next => exact ignoresDepth_error (by simp)
      next => exact ignoresDepth_ok ()

theorem ignoresDepth_normalize (d : Device) :
    IgnoresDepth d.normalize := by
  refine ignoresDepth_foldlM (fun d p => ?_) _ _
  unfold Device.foldAttribute
  repeat' split
  all_goals first
    | exact ignoresDepth_ok _
    | exact ignoresDepth_error (by simp)

theorem ignoresDepth_selectPath (path : String) (label : Option String) (types : List Ty) :
    IgnoresDepth (c.selectPath s path label types range) := by
  unfold selectPath
  split
  next => exact ignoresDepth_error (by simp)
  next =>
      split
      next => exact .ite (ignoresDepth_ok _) (ignoresDepth_error (by simp))
      next => exact ignoresDepth_ok _

theorem ignoresDepth_checkResults (results : ResultList) :
    IgnoresDepth (c.checkResults s results) := by
  refine .ite (ignoresDepth_error (by simp)) ?_
  refine ignoresDepth_forM (fun row => ?_) _
  exact ignoresDepth_forM (fun _ => ignoresDepth_requireArg s _ _) _

end Rules

theorem IgnoresDepth.skip
    {r : Except TypeError α} (h : IgnoresDepth r) {f : α → Check σ β}
    {forest : List (Nat × Tree)} (hrest : ∀ a, Checks (f a) forest) :
    Checks (ofExcept r >>= f) forest := by
  cases r with
  | ok a => exact hrest a
  | error e => exact checks_throw_bind (fun he => h (he ▸ rfl)) f forest

theorem checks_overload
    (table : OperatorTable) (op : String) (types : List Ty) (range : Option Range) :
    Checks (c.overload table op types range) [] := by
  unfold overload
  split
  next => exact checks_pure _
  next => exact (checks_throw (by simp) []).record_bind

theorem checks_lookup
    (key : LookupKey) :
    Checks (c.lookup key) [] := by
  unfold lookup
  extract_lets ask
  have hask : ∀ u, Checks (ask u) [] := by
    intro u
    refine fun state => ends_getState_bind ?_
    rcases c.source key state with ⟨answer, next⟩
    refine ends_setState_bind ?_
    cases answer with
    | ok s => exact (checks_pure s).record_bind next
    | error e => exact checks_throw (by simp) [] next
  split
  next => exact (hask ()).record_bind
  next => exact hask ()

theorem checks_deviceSignature
    (key : LookupKey) :
    Checks (c.deviceSignature key) [] := by
  unfold deviceSignature
  split
  next => exact checks_pure _
  next => exact checks_lookup key

theorem checks_resolve
    (selector : Selector) (channel : String) (kind : LookupKind) (range : Option Range) :
    Checks (c.resolve selector channel kind range) [] := by
  cases selector with
  | builtin =>
      unfold resolve
      dsimp only
      split
      next => exact checks_pure _
      next => exact checks_throw (by simp) []
  | device d =>
      refine (ignoresDepth_normalize d).skip fun normal => ?_
      exact (checks_deviceSignature _).skip fun _ => checks_pure _

/-! ## Values and filters -/

end Checker

theorem Value.root_tree (v : Value) :
    v.tree.root = .value v := by
  cases v <;> rfl

theorem Filter.root_tree (f : Filter) :
    f.tree.root = .filter f := by
  cases f <;> rfl

theorem Filter.descent_trees (f : Filter) (operands : List Filter) :
    ∀ t ∈ Filter.trees operands, (Node.filter f).descent t.root = 1 := by
  rw [Filter.trees_eq_map, List.forall_mem_map]
  intro operand _
  rw [operand.root_tree]
  rfl

theorem Param.descent_trees (f : Filter) (params : List Param) :
    ∀ t ∈ Param.trees params, (Node.filter f).descent t.root = 2 := by
  rw [Param.trees_eq_map, List.forall_mem_map]
  exact fun _ _ => rfl

/-- A selector has no nested nodes: the attributes of a device are not visited. -/
theorem Selector.not_nested (selector : Selector) :
    selector.tree.Every fun label => label.isNested = false := by
  cases selector with
  | builtin => exact List.forall_mem_singleton.mpr rfl
  | device d =>
      cases d
      exact List.forall_mem_singleton.mpr rfl

theorem ClassDef.not_nested (d : ClassDef) :
    d.tree.Every fun label => label.isNested = false := by
  refine (Tree.every_node rfl _).mpr ⟨rfl, ?_⟩
  rw [Tree.everyOf_iff, List.forall_mem_map]
  exact fun _ _ => List.forall_mem_singleton.mpr rfl

namespace Checker

open SkillLang.Action SkillLang.Tree

variable {σ α β : Type} {c : Checker σ}

theorem parts_external
    (call : Invocation) (filter : Filter) (depth : Nat) :
    parts (.filter (.external call filter)) depth (call.partTrees ++ [filter.tree]) =
      (depth + (Node.filter (.external call filter)).descent call.selector.tree.root,
          call.selector.tree) ::
        ((Param.trees call.params).map (Prod.mk (depth + 2)) ++ [(depth + 1, filter.tree)]) := by
  obtain ⟨selector, channel, params, range, schema⟩ := call
  rw [parts, Invocation.partTrees, List.cons_append, List.map_cons, List.map_append,
    List.map_singleton, filter.root_tree]
  congr 2
  refine List.map_congr_left fun t ht => ?_
  rw [Param.descent_trees _ params t ht]

mutual

theorem checks_value
    (scope : Scope) (depth : Nat) :
    (value : Value) → Checks (c.checkValue scope depth value) [(depth, value.tree)]
  | .var name _ => by
      simp only [checkValue]
      refine .node_of_one rfl (List.forall_mem_nil _) ?_
      split
      next => exact checks_pure _
      next => exact checks_throw (by simp) []
  | .computation _ operands _ _ => by
      simp only [checkValue]
      refine .node_of_one rfl (fun _ _ => rfl) ?_
      refine (checks_values scope (depth + 1) operands).map fun _ => ?_
      exact (checks_overload _ _ _ _).skip fun _ => checks_pure _
  | .field value name _ => by
      simp only [checkValue]
      refine .node_of_one rfl (fun _ _ => rfl) ?_
      refine (checks_value scope (depth + 1) value).map fun _ => ?_
      split
      next => exact checks_pure _
      next => exact checks_throw (by simp) []
  | .filtered value filter _ => by
      simp only [checkValue]
      refine .node_of_one rfl (fun _ _ => rfl) ?_
      refine (checks_value scope (depth + 1) value).bind fun _ => ?_
      split
      next =>
          exact (checks_filter _ scope (depth + 1) filter).map fun _ => checks_pure _
      next => exact checks_throw (by simp) _
  | .array values _ => by
      simp only [checkValue]
      refine .node_of_one rfl (fun _ _ => rfl) ?_
      exact (checks_elements scope (depth + 1) none values).map fun _ => checks_pure _
  | .object fields => by
      simp only [checkValue]
      refine .node_of_one rfl (fun _ _ => rfl) ?_
      exact (checks_fields scope (depth + 1) fields).map fun _ => checks_pure _
  | .undefined _ | .context _ _ | .boolean _ | .string _ | .number _ | .measure _ _
  | .currency _ _ | .place _ | .date _ | .time _ | .entity _ | .enum _ | .event _
  | .argMap _ => by
      simp only [checkValue]
      exact .node_of_one rfl (List.forall_mem_nil _) (checks_pure _)

theorem checks_values
    (scope : Scope) (depth : Nat) :
    (values : List Value) →
      Checks (c.checkValues scope depth values) ((Value.trees values).map (Prod.mk depth))
  | [] => by
      simp only [checkValues]
      exact checks_pure _
  | value :: values => by
      simp only [checkValues]
      refine (checks_value scope depth value).bind fun _ => ?_
      exact (checks_values scope depth values).map fun _ => checks_pure _

theorem checks_elements
    (scope : Scope) (depth : Nat) (first : Option Ty) :
    (values : List Value) →
      Checks (c.checkElements scope depth first values) ((Value.trees values).map (Prod.mk depth))
  | [] => by
      simp only [checkElements]
      exact checks_pure _
  | value :: values => by
      simp only [checkElements]
      refine (checks_value scope depth value).bind fun _ => ?_
      refine .ite_throw_bind (by simp) ?_
      exact (checks_elements scope depth _ values).map fun _ => checks_pure _

theorem checks_fields
    (scope : Scope) (depth : Nat) :
    (fields : List (String × Value)) →
      Checks (c.checkFields scope depth fields) ((Value.fieldTrees fields).map (Prod.mk depth))
  | [] => by
      simp only [checkFields]
      exact checks_pure _
  | (_, value) :: fields => by
      simp only [checkFields]
      refine (checks_value scope depth value).bind fun _ => ?_
      exact (checks_fields scope depth fields).map fun _ => checks_pure _

theorem checks_filter
    (schema : Signature) (scope : Scope) (depth : Nat) :
    (filter : Filter) → Checks (c.checkFilter schema scope depth filter) [(depth, filter.tree)]
  | .always | .never => by
      simp only [checkFilter]
      exact .node_of_one rfl (List.forall_mem_nil _) (checks_pure _)
  | .conj _ operands | .disj _ operands => by
      simp only [checkFilter]
      refine .node_of_one rfl (Filter.descent_trees _ operands) ?_
      exact (checks_filters schema scope (depth + 1) operands).map fun _ => checks_pure _
  | .neg _ operand => by
      simp only [checkFilter]
      refine .node_of_one rfl (Filter.descent_trees _ [operand]) ?_
      exact (checks_filter schema scope (depth + 1) operand).map fun _ => checks_pure _
  | .dontCare _ _ => by
      simp only [checkFilter]
      refine .node_of_one rfl (List.forall_mem_nil _) ?_
      exact (ignoresDepth_requireArg _ _ _).skip fun _ => checks_pure _
  | .atom _ _ _ value _ => by
      simp only [checkFilter]
      refine .node_of_one rfl ?_ ?_
      · rw [List.forall_mem_singleton, value.root_tree]
        rfl
      split
      next => exact checks_throw (by simp) _
      next =>
          refine (checks_value _ (depth + 1) value).map fun _ => ?_
          exact (checks_overload _ _ _ _).skip fun _ => checks_pure _
  | .compute _ lhs _ rhs _ => by
      simp only [checkFilter]
      refine .node_of_one rfl ?_ ?_
      · rw [List.forall_mem_cons, List.forall_mem_singleton, lhs.root_tree, rhs.root_tree]
        exact ⟨rfl, rfl⟩
      refine (checks_value _ (depth + 1) lhs).bind fun _ => ?_
      refine (checks_value _ (depth + 1) rhs).map fun _ => ?_
      exact (checks_overload _ _ _ _).skip fun _ => checks_pure _
  | .external ⟨selector, channel, params, range, known⟩ filter => by
      simp only [checkFilter]
      refine .node rfl (.inr ⟨filter.tree, by simp, ?_⟩) ?_
      · rw [filter.root_tree]
        exact ⟨rfl, rfl⟩
      rw [parts_external]
      -- The device of the call stands beside the parameters, and nothing in it counts as nested.
      refine Checks.beside ?_ selector.not_nested _
      refine (checks_resolve _ _ _ _).skip fun _ => ?_
      refine (ignoresDepth_rejectAction _ _ _).skip fun _ => ?_
      refine (checks_params _ scope (depth + 2) [] params).bind fun _ => ?_
      refine (ignoresDepth_requireParams _ _ _).skip fun _ => ?_
      exact (checks_filter _ scope (depth + 1) filter).map fun _ => checks_pure _

theorem checks_filters
    (schema : Signature) (scope : Scope) (depth : Nat) :
    (filters : List Filter) →
      Checks (c.checkFilters schema scope depth filters)
        ((Filter.trees filters).map (Prod.mk depth))
  | [] => by
      simp only [checkFilters]
      exact checks_pure _
  | filter :: filters => by
      simp only [checkFilters]
      refine (checks_filter schema scope depth filter).bind fun _ => ?_
      exact (checks_filters schema scope depth filters).map fun _ => checks_pure _

theorem checks_params
    (schema : Signature) (scope : Scope) (depth : Nat) (seen : List String) :
    (params : List Param) →
      Checks (c.checkParams schema scope depth seen params)
        ((Param.trees params).map (Prod.mk depth))
  | [] => by
      simp only [checkParams]
      exact checks_pure _
  | ⟨name, value, range⟩ :: params => by
      simp only [checkParams]
      split
      next => exact checks_throw (by simp) _
      next =>
          refine .ite_throw_bind (by simp) ?_
          refine (Checks.within rfl rfl (checks_value scope depth value)).bind fun _ => ?_
          refine .ite_throw_bind (by simp) ?_
          exact (checks_params schema scope depth _ params).map fun _ => checks_pure _

end

/-! ## Expressions -/

theorem checks_call
    (schema : Signature) (params : List Param) (scope : Scope) (range : Option Range)
    (depth : Nat) :
    Checks (c.checkCall schema params scope range depth)
      ((Param.trees params).map (Prod.mk (depth + 1))) := by
  refine (checks_params schema scope (depth + 1) [] params).map fun _ => ?_
  exact (ignoresDepth_requireParams _ _ _).skip fun _ => checks_pure _

theorem checks_columns
    (scope : Scope) (depth : Nat) (values : List Value) (labels : List (Option String)) :
    Checks (c.checkColumns scope depth values labels)
      ((Value.trees values).map (Prod.mk depth)) := by
  induction values generalizing labels with
  | nil => exact checks_pure _
  | cons value values ih =>
      refine (checks_value scope depth value).bind fun _ => ?_
      exact (ih labels.tail).map fun _ => checks_pure _

theorem checks_selected
    (schema : Signature) (scope : Scope) (range : Option Range) (depth : Nat)
    (element : Selected) :
    Checks (c.checkSelected schema scope range depth element)
      (element.column.trees.map (Prod.mk depth)) := by
  obtain ⟨column, label, types⟩ := element
  cases column with
  | path path => exact (ignoresDepth_selectPath _ _ _ _ _).skip fun _ => checks_pure _
  | value value => exact (checks_value scope depth value).map fun _ => checks_pure _

theorem checks_index
    (scope : Scope) (range : Option Range) (depth : Nat) (index : Value) :
    Checks (c.checkIndex scope range depth index) [(depth, index.tree)] := by
  refine (checks_value scope depth index).map fun found => ?_
  rcases found with ⟨checked, type⟩
  exact checks_test (by simp)

theorem checks_number
    (name : String) (scope : Scope) (range : Option Range) (depth : Nat) (value : Value) :
    Checks (c.checkNumber name scope range depth value) [(depth, value.tree)] := by
  refine (checks_value scope depth value).map fun found => ?_
  rcases found with ⟨checked, type⟩
  exact checks_test (by simp)

theorem checks_clause
    (schema : Signature) (scope : Scope) (range : Option Range) (depth : Nat) (clause : Clause) :
    Checks (c.checkClause schema scope range depth clause)
      (clause.trees.map (Prod.mk depth)) := by
  cases clause with
  | filter test | question test =>
      refine (ignoresDepth_rejectAction _ _ _).skip fun _ => ?_
      exact (checks_filter schema scope depth test).map fun _ => checks_pure _
  | monitor args => exact (ignoresDepth_monitored _ _ _).skip fun _ => checks_pure _
  | projection args computations labels =>
      refine (ignoresDepth_rejectAction _ _ _).skip fun _ => ?_
      refine (ignoresDepth_forM (fun _ => ignoresDepth_requireArg _ _ _) _).skip fun _ => ?_
      exact (checks_columns _ depth computations labels).map fun _ => checks_pure _
  | selection elements =>
      refine (ignoresDepth_rejectAction _ _ _).skip fun _ => ?_
      rw [Clause.trees, List.map_flatMap]
      exact (checks_mapM (checks_selected _ _ _ depth) elements).map fun _ => checks_pure _
  | named name => exact checks_pure _
  | aggregation field op known =>
      refine (ignoresDepth_requireList _ _ _).skip fun _ => ?_
      extract_lets name choose
      have hchoose : ∀ type, Checks (choose type) [] := by
        intro type
        dsimp only [choose]
        split
        next =>
            exact (checks_throw_bind (by simp) _ []).record_bind
        next => exact (checks_overload _ _ _ _).skip fun _ => checks_pure _
      split
      next => exact (checks_pure _).skip hchoose
      next => exact (ignoresDepth_outputType _ _ _).skip hchoose
  | sort value direction =>
      refine (ignoresDepth_requireList _ _ _).skip fun _ => ?_
      refine (checks_value _ depth value).map fun found => ?_
      rcases found with ⟨checked, type⟩
      exact checks_test (by simp)
  | index indices =>
      refine (ignoresDepth_requireList _ _ _).skip fun _ => ?_
      rw [Clause.trees, Value.trees_eq_map, List.map_map, List.map_eq_flatMap]
      exact (checks_mapM (checks_index scope range depth) indices).map fun _ => checks_pure _
  | slice base limit =>
      refine (ignoresDepth_requireList _ _ _).skip fun _ => ?_
      refine (checks_number "base" scope range depth base).bind fun _ => ?_
      exact (checks_number "limit" scope range depth limit).map fun _ => checks_pure _

mutual

theorem checks_expression
    (scope : Scope) (depth : Nat) :
    (expression : Expression) →
      Checks (c.checkExpression scope depth expression) [(depth, expression.tree)]
  | .call _ name params => by
      simp only [checkExpression]
      refine .node_of_one rfl (fun _ _ => rfl) ?_
      split
      next => exact checks_throw (by simp) _
      next => exact (checks_call _ params scope _ depth).map fun _ => checks_pure _
  | .invocation _ ⟨_, _, params, _, _⟩ => by
      simp only [checkExpression]
      refine .node_of_one rfl (fun _ _ => rfl) ?_
      refine (checks_resolve _ _ _ _).skip fun _ => ?_
      refine Checks.map ?_ fun _ => checks_pure _
      refine .within rfl rfl ?_
      exact (checks_call _ params scope _ depth).beside (Selector.not_nested _) _
  | .clause _ inner clause => by
      simp only [checkExpression]
      refine .node_of_one rfl (fun _ _ => rfl) ?_
      refine (checks_expression scope (depth + 1) inner).bind fun _ => ?_
      exact (checks_clause _ scope _ (depth + 1) clause).map fun _ => checks_pure _
  | .chain _ elements => by
      simp only [checkExpression]
      refine .node_of_one rfl (fun _ _ => rfl) ?_
      refine .ite_throw_bind (by simp) ?_
      refine (checks_elementsOf scope (depth + 1) true elements).map fun _ => ?_
      exact (ignoresDepth_chained _ _).skip fun _ => checks_pure _
  | .join _ lhs rhs => by
      simp only [checkExpression]
      refine .node_of_one rfl (fun _ _ => rfl) ?_
      refine (checks_expression scope (depth + 1) lhs).bind fun _ => ?_
      refine (ignoresDepth_rejectAction _ _ _).skip fun _ => ?_
      refine (checks_expression _ (depth + 1) rhs).map fun _ => ?_
      exact (ignoresDepth_requireQuery _ _ _).skip fun _ => checks_pure _

theorem checks_elementsOf
    (scope : Scope) (depth : Nat) (isFirst : Bool) :
    (elements : List Expression) →
      Checks (c.checkElementsOf scope depth isFirst elements)
        ((Expression.trees elements).map (Prod.mk depth))
  | [] => by
      simp only [checkElementsOf]
      exact checks_pure _
  | element :: elements => by
      simp only [checkElementsOf]
      refine (checks_expression scope depth element).bind fun _ => ?_
      refine .ite_throw_bind (by simp) ?_
      exact (checks_elementsOf _ depth false elements).map fun _ => checks_pure _

end

/-! ## Inputs -/

theorem checks_statement
    (scope : Scope) (statement : Statement) :
    Checks (c.checkStatement scope statement) [(0, statement.tree)] := by
  refine .within rfl rfl ?_
  cases statement with
  | expression _ | ret _ _ | assign _ _ _ =>
      exact (checks_expression scope 0 _).map fun _ => checks_pure _

theorem checks_statements
    (scope : Scope) (statements : List Statement) :
    Checks (c.checkStatements scope statements)
      ((statements.map Statement.tree).map (Prod.mk 0)) := by
  induction statements generalizing scope with
  | nil => exact checks_pure _
  | cons statement statements ih =>
      refine (checks_statement scope statement).bind fun _ => ?_
      exact (ih _).map fun _ => checks_pure _

theorem checks_declaration
    (scope : Scope) (d : FunctionDeclaration) :
    Checks (c.checkDeclaration scope d) [(0, d.tree)] := by
  refine .within rfl rfl ?_
  exact (checks_statements _ d.statements).map fun _ => checks_pure _

theorem checks_declarations
    (scope : Scope) (declarations : List FunctionDeclaration) :
    Checks (c.checkDeclarations scope declarations)
      ((declarations.map FunctionDeclaration.tree).map (Prod.mk 0)) := by
  induction declarations generalizing scope with
  | nil => exact checks_pure _
  | cons d declarations ih =>
      refine (checks_declaration scope d).bind fun _ => ?_
      exact (ih _).map fun _ => checks_pure _

theorem Checks.beside_classes
    {action : Check σ α} {forest : List (Nat × Tree)} (h : Checks action forest)
    (classes : List ClassDef) :
    Checks action ((classes.map ClassDef.tree).map (Prod.mk 0) ++ forest) := by
  induction classes with
  | nil => exact h
  | cons d classes ih => exact ih.beside d.not_nested 0

theorem checks_program
    (p : Program) :
    Checks (c.checkProgram p) [(0, p.tree)] := by
  refine .within rfl rfl ?_
  rw [List.map_append, List.map_append, List.append_assoc]
  refine Checks.beside_classes ?_ p.classes
  refine (checks_declarations .empty p.declarations).bind fun _ => ?_
  refine (checks_statements _ p.statements).map fun _ => ?_
  exact .record_bind (checks_pure _)

theorem checks_permissionFunction
    (scope : Scope) (isAction : Bool) (function : PermissionFunction) :
    Checks (c.checkPermissionFunction scope isAction function) [(0, function.tree)] := by
  refine .within rfl rfl ?_
  cases function with
  | builtin | classStar _ | star => exact checks_pure _
  | specified f =>
      refine Checks.map ?_ fun _ => checks_pure _
      refine (checks_deviceSignature _).skip fun _ => ?_
      refine .ite_throw_bind (by simp) ?_
      exact (checks_filter _ scope 0 f.filter).map fun _ => checks_pure _

theorem checks_permission
    (r : PermissionRule) :
    Checks (c.checkPermission r) [(0, r.tree)] := by
  refine .within rfl rfl ?_
  refine (checks_filter _ _ 0 r.principal).bind fun _ => ?_
  refine (checks_permissionFunction _ _ r.query).bind fun _ => ?_
  exact (checks_permissionFunction _ _ r.action).map fun _ => checks_pure _

/-- The results of an item are read and not checked node by node. -/
theorem checks_item
    (item : HistoryItem) :
    Checks (c.checkItem item) [(0, item.withoutResults.tree)] := by
  refine .within rfl rfl ?_
  refine (Checks.within rfl rfl (checks_expression .empty 0 item.statement.expression)).map
    fun found => ?_
  rcases found with ⟨expression, schema⟩
  dsimp only
  split
  next results _ => exact (ignoresDepth_checkResults schema results).skip fun _ => checks_pure _
  next => exact checks_pure _

theorem checks_dialogue
    (s : DialogueState) :
    Checks (c.checkDialogue s) [(0, (Input.dialogue s).visitedTree)] := by
  refine .within rfl rfl ?_
  have hforest : ((s.history.map HistoryItem.withoutResults).map HistoryItem.tree).map (Prod.mk 0) =
      s.history.flatMap fun item => [(0, item.withoutResults.tree)] := by
    rw [List.map_map, List.map_map, List.map_eq_flatMap]
    rfl
  dsimp only
  rw [hforest]
  exact (checks_mapM checks_item s.history).map fun _ => checks_pure _

theorem checks_control
    (command : ControlCommand) :
    Checks (c.checkControl command) [(0, command.tree)] := by
  refine .within rfl rfl ?_
  obtain ⟨intent, range⟩ := command
  cases intent with
  | answer value => exact (checks_value .empty 0 value).map fun _ => checks_pure _
  | special _ | choice _ => exact checks_pure _

theorem checks_parts
    (input : Input) :
    Checks (c.checkParts input) [(0, input.visitedTree)] := by
  cases input with
  | program p => exact (checks_program p).map fun _ => checks_pure _
  | permission r => exact (checks_permission r).map fun _ => checks_pure _
  | dialogue s => exact (checks_dialogue s).map fun _ => checks_pure _
  | control command => exact (checks_control command).map fun _ => checks_pure _

/-- The depth limit is exact.  An input that is accepted has no expression, filter or value that is
deeper than the limit, and one that is refused for its depth has one right behind the limit.  No
input that stays within the limit is refused for its depth. -/
theorem check_depth_exact
    (c : Checker σ) (input : Input) (s : Session σ) :
    ((∃ output, ((c.check input).runIn s).1 = .ok output) →
        ∀ p ∈ input.depths, p.2 ≤ Limits.maxDepth) ∧
      (((c.check input).runIn s).1 = .error .depthLimitExceeded →
        ∃ p ∈ input.depths, p.2 = Limits.maxDepth + 1) ∧
      ((∀ p ∈ input.depths, p.2 ≤ Limits.maxDepth) →
        ((c.check input).runIn s).1 ≠ .error .depthLimitExceeded) := by
  have htells := checks_parts (c := c) input _ (started input s) rfl
  rw [← check_result] at htells
  have hexact : ((c.check input).runIn s).1 = .error .depthLimitExceeded →
      ∃ p ∈ input.depths, p.2 = Limits.maxDepth + 1 := by
    intro h
    rw [h] at htells
    obtain ⟨_, hroot, hpass⟩ := htells rfl
    rw [List.mem_singleton.mp hroot] at hpass
    rcases hpass with hbeyond | ⟨p, hp, hnested, hdepth⟩
    · cases hbeyond
    · exact ⟨p, List.mem_filter.mpr ⟨hp, hnested⟩, hdepth⟩
  refine ⟨?_, hexact, ?_⟩
  · rintro ⟨output, h⟩ p hp
    rw [h] at htells
    obtain ⟨hp, hnested⟩ := List.mem_filter.mp hp
    exact htells _ (List.mem_singleton_self _) p hp hnested
  · intro hwithin h
    obtain ⟨p, hp, hdepth⟩ := hexact h
    have hle := hwithin p hp
    omega

/-! ## Boxes in boxes -/

namespace Digest

/-- Arrays of one element in one another, around an empty one. -/
def boxes : Nat → Value
  | 0 => .array [] none
  | n + 1 => .array [boxes n] none

theorem runIn_checkValue_boxes
    {n depth : Nat} (h : Limits.maxDepth < depth + n) (scope : Scope) (s : Session σ) :
    (c.checkValue scope depth (boxes n)).runIn s = (.error .depthLimitExceeded, s) := by
  induction n generalizing depth with
  | zero =>
      simp only [boxes, checkValue]
      rw [runIn_guardDepth_bind, if_pos (by simpa using h)]
  | succ n ih =>
      simp only [boxes, checkValue, checkElements, bind_assoc]
      rw [runIn_guardDepth_bind]
      split
      next => rfl
      next =>
          rw [runIn_bind, ih (by omega)]

/-- The answer to a question. -/
def answer (value : Value) : Input :=
  .control ⟨.answer value, none⟩

theorem check_answer_boxes
    {n : Nat} (h : Limits.maxDepth < n) (s : Session σ) :
    ((c.check (answer (boxes n))).runIn s).1 = .error .depthLimitExceeded := by
  rw [check_result]
  simp only [answer, checkParts, checkControl, bind_assoc]
  rw [runIn_bind, runIn_checkValue_boxes (by omega)]

end Digest

theorem digest_depths :
    ((∃ output, ((Digest.checker.check Digest.plain).runIn Digest.session).1 = .ok output) ∧
        ∀ p ∈ Digest.plain.depths, p.2 ≤ Limits.maxDepth) ∧
      let tooDeep := Digest.answer (Digest.boxes (Limits.maxDepth + 1))
      ((Digest.checker.check tooDeep).runIn Digest.session).1 = .error .depthLimitExceeded ∧
        ∃ p ∈ tooDeep.depths, p.2 = Limits.maxDepth + 1 := by
  obtain ⟨output, h⟩ : ∃ output,
      ((Digest.checker.check Digest.plain).runIn Digest.session).1 = .ok output :=
    ⟨_, rfl⟩
  have hdeep := Digest.check_answer_boxes (c := Digest.checker) (Nat.lt_succ_self _) Digest.session
  refine ⟨⟨⟨output, h⟩, (check_depth_exact _ _ _).1 ⟨output, h⟩⟩, hdeep, ?_⟩
  exact (check_depth_exact _ _ _).2.1 hdeep

end Checker

end SkillLang

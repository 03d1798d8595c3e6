import SkillLang.Proofs.Typing.CheckOfAcceptance
import SkillLang.Proofs.Typing.Requirements

/-!
# Accepted calls

A call is accepted exactly if it satisfies the signature of its function: every parameter
names an input, no input is passed twice, the values check one after the other with types
that fit, and nothing is missing that the signature asks for.  The checker goes through
the parameters first and through the requirements then, and looks at the values that it
has annotated; the conditions can be read off the parameters as they were written.
-/

namespace SkillLang

namespace Checker

open SkillLang.Action

variable {σ : Type} (c : Checker σ)

/-- The values of parameters check one after the other, each in the session that the ones before
it lead to, and their types fit the arguments that they are passed for. -/
inductive FitsInTurn (schema : Signature) (scope : Scope) (depth : Nat) :
    List Param → Session σ → Session σ → Prop
  | nil {s : Session σ} : FitsInTurn schema scope depth [] s s
  | cons {p : Param} {params : List Param} {s middle next : Session σ} {value : Value} {type : Ty}
      (hvalue : (c.checkValue scope depth p.value).runIn s = (.ok (value, type), middle))
      (hfits : ∀ a, schema.arg? p.name = some a → c.assignable type a.type = true)
      (hrest : FitsInTurn schema scope depth params middle next) :
      FitsInTurn schema scope depth (p :: params) s next

/-- The parameters of a call satisfy a signature. -/
structure Satisfies (schema : Signature) (scope : Scope) (depth : Nat) (params : List Param)
    (s : Session σ) : Prop where
  inputs : ∀ p ∈ params, ∃ a, schema.arg? p.name = some a ∧ a.isInput = true
  distinct : (params.map Param.name).Nodup
  values : ∃ next, c.FitsInTurn schema scope depth params s next
  demanded : ∀ a ∈ schema.inArgs, a.IsDemanded params → ∃ p ∈ params, p.name = a.name
  alternatives : ∀ names ∈ schema.requireEither, ∃ p ∈ params, p.name ∈ names

variable {c}

/-! ## Parameters -/

theorem runIn_checkParams_eq_ok_iff
    {schema : Signature} {scope : Scope} {depth : Nat} {seen : List String} {params : List Param}
    {s next : Session σ} :
    (∃ params', (c.checkParams schema scope depth seen params).runIn s = (.ok params', next)) ↔
      (∀ p ∈ params, ∃ a, schema.arg? p.name = some a ∧ a.isInput = true) ∧
        (∀ p ∈ params, p.name ∉ seen) ∧ (params.map Param.name).Nodup ∧
        c.FitsInTurn schema scope depth params s next := by
  induction params generalizing seen s with
  | nil =>
      simp only [checkParams, runIn_pure]
      constructor
      · rintro ⟨_, ⟨⟩⟩
        exact ⟨List.forall_mem_nil _, List.forall_mem_nil _, List.nodup_nil, .nil⟩
      · rintro ⟨-, -, -, ⟨⟩⟩
        exact ⟨[], rfl⟩
  | cons p params ih =>
      obtain ⟨name, value, range⟩ := p
      simp only [List.forall_mem_cons, List.map_cons, List.nodup_cons, checkParams]
      cases harg : (schema.arg? name).filter Argument.isInput with
      | none =>
          refine iff_of_false ?_ ?_
          · rintro ⟨params', hrun⟩
            rw [runIn_throw] at hrun
            cases hrun
          · rintro ⟨⟨⟨a, ha, hinput⟩, -⟩, -⟩
            rw [ha, Option.filter_some, if_pos hinput] at harg
            cases harg
      | some arg =>
          obtain ⟨ha, hinput⟩ := Option.filter_eq_some_iff.mp harg
          simp only [runIn_ite_throw_bind_eq_ok_iff, runIn_bind_eq_ok_iff, runIn_pure]
          constructor
          · rintro ⟨params', hfresh, ⟨value', type⟩, middle, hvalue, hfits, rest, _, hrest, ⟨⟩⟩
            -- The later parameters avoid this name as well, which is what makes it unique.
            obtain ⟨hinputs, hunseen, hnodup, hturn⟩ := ih.mp ⟨rest, hrest⟩
            refine ⟨⟨⟨arg, ha, hinput⟩, hinputs⟩, ⟨by simpa using hfresh, ?_⟩, ⟨?_, hnodup⟩, ?_⟩
            · exact fun p hp hseen => hunseen p hp (List.mem_cons_of_mem name hseen)
            · rintro hname
              obtain ⟨p, hp, rfl⟩ := List.mem_map.mp hname
              exact hunseen p hp List.mem_cons_self
            · refine .cons hvalue ?_ hturn
              intro a hfound
              obtain rfl : arg = a := Option.some.inj (ha.symm.trans hfound)
              simpa using hfits
          · rintro ⟨⟨-, hinputs⟩, ⟨hfresh, hunseen⟩, ⟨hname, hnodup⟩, hturn⟩
            cases hturn with
            | cons hvalue hfits hrest =>
                have hlater : ∀ p ∈ params, p.name ∉ name :: seen := by
                  intro p hp hmem
                  rcases List.mem_cons.mp hmem with heq | hseen
                  · exact hname (heq ▸ List.mem_map_of_mem hp)
                  · exact hunseen p hp hseen
                obtain ⟨rest, hrun⟩ := ih.mpr ⟨hinputs, hlater, hnodup, hrest⟩
                exact ⟨_, by simpa using hfresh, _, _, hvalue, by simpa using hfits arg ha, rest, _,
                  hrun, rfl⟩

theorem fitsInTurn_append_iff
    {schema : Signature} {scope : Scope} {depth : Nat} {front rest : List Param}
    {s next : Session σ} :
    c.FitsInTurn schema scope depth (front ++ rest) s next ↔
      ∃ middle, c.FitsInTurn schema scope depth front s middle ∧
        c.FitsInTurn schema scope depth rest middle next := by
  induction front generalizing s with
  | nil =>
      constructor
      · intro hrest
        exact ⟨s, .nil, hrest⟩
      · rintro ⟨_, ⟨⟩, hrest⟩
        exact hrest
  | cons p front ih =>
      constructor
      · intro hturn
        cases hturn with
        | cons hvalue hfits hlater =>
            obtain ⟨middle, hfront, hrest⟩ := ih.mp hlater
            exact ⟨middle, .cons hvalue hfits hfront, hrest⟩
      · rintro ⟨middle, hturn, hrest⟩
        cases hturn with
        | cons hvalue hfits hfront => exact .cons hvalue hfits (ih.mpr ⟨middle, hfront, hrest⟩)

/-! ## Requirements -/

theorem AcceptsValue.matchesText_eq
    {scope : Scope} {depth : Nat} {value value' : Value} {type : Ty}
    (h : c.AcceptsValue scope depth value value' type) :
    value'.matchesText = value.matchesText := by
  cases h <;> rfl

theorem AcceptsParams.any_eq
    {schema : Signature} {scope : Scope} {depth : Nat} {seen : List String}
    {params params' : List Param}
    (h : c.AcceptsParams schema scope depth seen params params')
    (test : String → (String → Bool) → Bool) :
    (params'.any fun p => test p.name p.value.matchesText) =
      params.any fun p => test p.name p.value.matchesText := by
  induction params generalizing seen params' with
  | nil =>
      cases h
      rfl
  | cons p params ih =>
      cases h with
      | cons _ _ hvalue _ hparams =>
          simp only [List.any_cons, hvalue.matchesText_eq, ih hparams]

/-- What is missing in the annotated parameters is missing in those that were written. -/
theorem runIn_checkCall_eq_ok_iff
    {schema : Signature} {params params' : List Param} {scope : Scope} {range : Option Range}
    {depth : Nat} {s next : Session σ} :
    (c.checkCall schema params scope range depth).runIn s = (.ok params', next) ↔
      (c.checkParams schema scope (depth + 1) [] params).runIn s = (.ok params', next) ∧
        schema.requireParams params range = .ok () := by
  have hsame {checked : List Param} {after : Session σ}
      (hrun : (c.checkParams schema scope (depth + 1) [] params).runIn s = (.ok checked, after)) :
      schema.requireParams checked range = schema.requireParams params range := by
    have haccepts : c.AcceptsParams schema scope (depth + 1) [] params checked :=
      acceptsParams_of_mayReturn params ⟨s, by rw [hrun]⟩
    exact Signature.requireParams_congr_of_any (fun test => haccepts.any_eq test) schema range
  simp only [checkCall, runIn_bind_eq_ok_iff, runIn_ofExcept, runIn_pure, Prod.mk.injEq]
  constructor
  · rintro ⟨checked, middle, hrun, _, _, ⟨hrequired, rfl⟩, hchecked, rfl⟩
    obtain rfl := Except.ok.inj hchecked
    exact ⟨hrun, hsame hrun ▸ hrequired⟩
  · rintro ⟨hrun, hrequired⟩
    exact ⟨params', next, hrun, (), next, ⟨(hsame hrun).trans hrequired, rfl⟩, rfl, rfl⟩

theorem satisfies_of_runIn_checkCall
    {schema : Signature} {params params' : List Param} {scope : Scope} {range : Option Range}
    {depth : Nat} {s next : Session σ}
    (hrun : (c.checkCall schema params scope range depth).runIn s = (.ok params', next)) :
    c.Satisfies schema scope (depth + 1) params s := by
  obtain ⟨hparams, hrequired⟩ := runIn_checkCall_eq_ok_iff.mp hrun
  obtain ⟨hinputs, -, hnodup, hturn⟩ := runIn_checkParams_eq_ok_iff.mp ⟨params', hparams⟩
  obtain ⟨hdemanded, halternatives⟩ :=
    (Signature.requireParams_eq_ok_iff schema params range).mp hrequired
  exact ⟨hinputs, hnodup, ⟨_, hturn⟩, hdemanded, halternatives⟩

theorem Satisfies.exists_runIn_checkCall
    {schema : Signature} {params : List Param} {scope : Scope} {depth : Nat} {s : Session σ}
    (h : c.Satisfies schema scope (depth + 1) params s) (range : Option Range) :
    ∃ params' next,
      (c.checkCall schema params scope range depth).runIn s = (.ok params', next) := by
  obtain ⟨next, hturn⟩ := h.values
  obtain ⟨params', hparams⟩ :=
    runIn_checkParams_eq_ok_iff.mpr ⟨h.inputs, fun _ _ => List.not_mem_nil, h.distinct, hturn⟩
  have hrequired := (Signature.requireParams_eq_ok_iff schema params range).mpr
    ⟨h.demanded, h.alternatives⟩
  exact ⟨params', next, runIn_checkCall_eq_ok_iff.mpr ⟨hparams, hrequired⟩⟩

/-- A call passes the check, at any depth and in any session, if and only if its parameters satisfy
the signature. -/
theorem checkCall_succeeds_iff
    (schema : Signature) (params : List Param) (scope : Scope) (range : Option Range)
    (depth : Nat) (s : Session σ) :
    (∃ params', ((c.checkCall schema params scope range depth).runIn s).1 = .ok params') ↔
      c.Satisfies schema scope (depth + 1) params s := by
  constructor
  · rintro ⟨params', hresult⟩
    exact satisfies_of_runIn_checkCall (Prod.ext hresult rfl)
  · intro h
    obtain ⟨params', next, hrun⟩ := h.exists_runIn_checkCall range
    exact ⟨params', by rw [hrun]⟩

/-! ## Replaced values -/

/-- A value may take the place of another one if it reads as the same texts and fits wherever the
other one does. -/
theorem Satisfies.replace
    {schema : Signature} {scope : Scope} {depth : Nat} {before after : List Param} {p q : Param}
    {s : Session σ}
    (h : c.Satisfies schema scope depth (before ++ p :: after) s)
    (hname : q.name = p.name) (htexts : q.value.matchesText = p.value.matchesText)
    (hturn : ∀ s next, c.FitsInTurn schema scope depth [p] s next →
      c.FitsInTurn schema scope depth [q] s next) :
    c.Satisfies schema scope depth (before ++ q :: after) s := by
  have hany (test : String → (String → Bool) → Bool) :
      ((before ++ q :: after).any fun p => test p.name p.value.matchesText) =
        (before ++ p :: after).any fun p => test p.name p.value.matchesText := by
    simp only [List.any_append, List.any_cons, hname, htexts]
  have hrequired : schema.requireParams (before ++ q :: after) none = .ok () := by
    rw [Signature.requireParams_congr_of_any hany]
    exact (Signature.requireParams_eq_ok_iff _ _ _).mpr ⟨h.demanded, h.alternatives⟩
  obtain ⟨hdemanded, halternatives⟩ := (Signature.requireParams_eq_ok_iff _ _ _).mp hrequired
  refine ⟨?_, ?_, ?_, hdemanded, halternatives⟩
  · intro other hother
    rw [List.mem_append, List.mem_cons] at hother
    rcases hother with hbefore | rfl | hafter
    · exact h.inputs other (List.mem_append_left _ hbefore)
    · rw [hname]
      exact h.inputs p (List.mem_append_right _ List.mem_cons_self)
    · exact h.inputs other (List.mem_append_right _ (List.mem_cons_of_mem p hafter))
  · have hdistinct := h.distinct
    rw [List.map_append, List.map_cons] at hdistinct ⊢
    rw [hname]
    exact hdistinct
  · obtain ⟨next, hvalues⟩ := h.values
    rw [List.append_cons, List.append_assoc, fitsInTurn_append_iff] at hvalues
    obtain ⟨start, hbefore, hvalues⟩ := hvalues
    obtain ⟨middle, hvalue, hafter⟩ := fitsInTurn_append_iff.mp hvalues
    refine ⟨next, fitsInTurn_append_iff.mpr ⟨start, hbefore, ?_⟩⟩
    exact fitsInTurn_append_iff.mpr ⟨middle, hturn start middle hvalue, hafter⟩

end Checker

end SkillLang

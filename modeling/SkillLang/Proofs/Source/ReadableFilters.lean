import SkillLang.Proofs.Source.ReadableCalls

/-!
# Readable filters

A filter falls apart at disjunctions first, then at conjunctions, and then at a negation or a
comparison.  Connectives of one kind in each other are written as one, and found as one.
-/

namespace SkillLang

open TokenTree

/-- What no filter has outside of brackets. -/
abbrev filterMarks : List String :=
  "filter" :: structureMarks

abbrev readAlternatives (n : Nat) (ts : List TokenTree) : Option (List Filter) :=
  (pieces (isMark "||") ts).mapM (readers n).conjunction

abbrev readFactors (n : Nat) (ts : List TokenTree) : Option (List Filter) :=
  (pieces (isMark "&&") ts).mapM (readers n).test

namespace Filter

/-- The filters of which a filter in canonical form is the disjunction. -/
def alternatives (f : Filter) : List Filter :=
  match f.canonical with
  | .disj _ inner => inner
  | f => [f]

/-- The filters of which a filter in canonical form is the conjunction. -/
def factors (f : Filter) : List Filter :=
  match f.canonical with
  | .conj _ inner => inner
  | f => [f]

theorem disjuncts_eq
    (operands : List Filter) :
    Filter.disjuncts operands = (operands.map alternatives).flatten := by
  induction operands with
  | nil => rfl
  | cons operand operands ih =>
      rw [Filter.disjuncts, ih]
      rfl

theorem conjuncts_eq
    (operands : List Filter) :
    Filter.conjuncts operands = (operands.map factors).flatten := by
  induction operands with
  | nil => rfl
  | cons operand operands ih =>
      rw [Filter.conjuncts, ih]
      rfl

theorem alternatives_eq
    {f : Filter} (h : f.priority ≠ .or) :
    f.alternatives = [f.canonical] := by
  cases f with
  | disj _ _ => exact absurd rfl h
  | _ => rfl

theorem factors_eq
    {f : Filter} (h : f.priority ≠ .and) :
    f.factors = [f.canonical] := by
  cases f with
  | conj _ _ => exact absurd rfl h
  | _ => rfl

theorem rank_or_le
    (f : Filter) :
    Priority.or.rank ≤ f.priority.rank := by
  cases f with
  | atom _ _ _ _ _ | compute _ _ _ _ _ =>
      rw [Filter.priority]
      split <;> decide
  | _ => exact Nat.le_of_ble_eq_true rfl

/-- The filter is readable; its alternatives are found at disjunctions, and its factors at
conjunctions. -/
structure IsRead (f : Filter) (ts : List TokenTree) : Prop
    extends Readable readFilter filterMarks f.source ts f.canonical where
  alternatives : ∀ᶠ n in Filter.atTop, readAlternatives n ts = some f.alternatives
  factors : f.priority ≠ .or →
    Avoids ["||"] ts ∧ ∀ᶠ n in Filter.atTop, readFactors n ts = some f.factors
  connectives : Priority.and.rank < f.priority.rank → Avoids ["||", "&&"] ts
  tests : f.priority ≠ .primary → ¬ Avoids testMarks ts

end Filter

theorem allOf_of_length
    {fs : List Filter} (h : 2 ≤ fs.length) :
    allOf fs = .conj none fs := by
  match fs with
  | _ :: _ :: _ => rfl

theorem anyOf_of_length
    {fs : List Filter} (h : 2 ≤ fs.length) :
    anyOf fs = .disj none fs := by
  match fs with
  | _ :: _ :: _ => rfl

theorem read_of_alternatives
    {ts : List TokenTree} {fs : List Filter}
    (h : ∀ᶠ n in Filter.atTop, readAlternatives n ts = some fs) :
    ∀ᶠ n in Filter.atTop, readFilter n ts = some (anyOf fs) := by
  refine eventually_of_succ ?_
  filter_upwards [h] with n hn
  change (readers n).nextFilter ts = _
  rw [Readers.nextFilter]
  dsimp only [readAlternatives] at hn
  rw [hn]
  rfl

theorem alternatives_of_factors
    {ts : List TokenTree} (havoids : Avoids ["||"] ts) {fs : List Filter}
    (h : ∀ᶠ n in Filter.atTop, readFactors n ts = some fs) :
    ∀ᶠ n in Filter.atTop, readAlternatives n ts = some [allOf fs] := by
  filter_upwards [h] with n hn
  dsimp only [readFactors] at hn
  rw [readAlternatives, pieces_self (isMark_eq_false (List.mem_singleton_self _) havoids),
    List.mapM_cons, Readers.conjunction, hn]
  rfl

theorem factors_of_test
    {ts : List TokenTree} (havoids : Avoids ["&&"] ts) {f : Filter}
    (h : ∀ᶠ n in Filter.atTop, (readers n).test ts = some f) :
    ∀ᶠ n in Filter.atTop, readFactors n ts = some [f] := by
  filter_upwards [h] with n hn
  rw [readFactors, pieces_self (isMark_eq_false (List.mem_singleton_self _) havoids),
    List.mapM_cons, hn]
  rfl

namespace Filter.IsRead

variable {f : Filter} {ts : List TokenTree}

/-- A filter that is no connective. -/
theorem of_test
    (hspells : f.source.Spells ts) (hne : ts ≠ [])
    (havoids : Avoids (filterMarks ++ ["||", "&&"]) ts)
    (hpriority : Priority.and.rank < f.priority.rank)
    (htests : f.priority ≠ .primary → ¬ Avoids testMarks ts)
    (hread : ∀ᶠ n in Filter.atTop, (readers n).test ts = some f.canonical) :
    f.IsRead ts := by
  have hand : f.priority ≠ .and := fun h => by simp [h] at hpriority
  have hor : f.priority ≠ .or := fun h => by
    rw [h] at hpriority
    exact absurd hpriority (by decide)
  have hconnectives : Avoids ["||", "&&"] ts := havoids.mono (List.subset_append_right _ _)
  have hfactors := factors_of_test (hconnectives.mono (by decide)) hread
  have halternatives := alternatives_of_factors (hconnectives.mono (by decide)) hfactors
  exact
    { spells := hspells
      ne_nil := hne
      avoids := havoids.mono (List.subset_append_left _ _)
      read_eq := read_of_alternatives halternatives
      alternatives := by rwa [alternatives_eq hor]
      factors := fun _ => ⟨hconnectives.mono (by decide), by rwa [factors_eq hand]⟩
      connectives := fun _ => hconnectives
      tests := htests }

theorem readFilter_group
    (h : ∀ᶠ n in Filter.atTop, readFilter n ts = some f) :
    ∀ᶠ n in Filter.atTop, readFilter n [group .round ts] = some f := by
  have htest : ∀ᶠ n in Filter.atTop, (readers n).test [group .round ts] = some f := h
  have hfactors := factors_of_test (avoids_group _ _) htest
  exact read_of_alternatives (alternatives_of_factors (avoids_group _ _) hfactors)

theorem wrapped
    (h : f.IsRead ts) (needed : Priority) :
    Readable readFilter filterMarks (TokenStream.parens needed f.priority f.source)
      (wrap needed f.priority ts) f.canonical :=
  h.toReadable.wrapped (readFilter_group h.read_eq) needed f.priority

/-- The filter as an operand of a disjunction. -/
theorem readable_alternatives
    (h : f.IsRead ts) :
    Readable readAlternatives filterMarks (TokenStream.parens .or f.priority f.source)
      (wrap .or f.priority ts) f.alternatives := by
  have hlt : ¬ f.priority.rank < Priority.or.rank := Nat.not_lt.mpr f.rank_or_le
  rw [TokenStream.parens, wrap, if_neg hlt, if_neg hlt]
  exact ⟨h.spells, h.ne_nil, h.avoids, h.alternatives⟩

/-- The filter as an operand of a conjunction. -/
theorem readable_factors
    (h : f.IsRead ts) :
    Readable readFactors (filterMarks ++ ["||"]) (TokenStream.parens .and f.priority f.source)
      (wrap .and f.priority ts) f.factors := by
  have hwrapped := h.wrapped .and
  unfold wrap at hwrapped ⊢
  split
  next hlt =>
      rw [if_pos hlt] at hwrapped
      have hand : f.priority ≠ .and := fun heq => by simp [heq] at hlt
      refine ⟨hwrapped.spells, hwrapped.ne_nil, avoids_group _ _, ?_⟩
      rw [factors_eq hand]
      exact factors_of_test (avoids_group _ _) h.read_eq
  next hlt =>
      rw [if_neg hlt] at hwrapped
      have hor : f.priority ≠ .or := fun heq => by
        rw [heq] at hlt
        exact hlt (by decide)
      obtain ⟨havoids, hfactors⟩ := h.factors hor
      exact ⟨hwrapped.spells, hwrapped.ne_nil, avoids_union hwrapped.avoids havoids, hfactors⟩

end Filter.IsRead

/-! ## Connectives -/

theorem allReadable_operands
    {needed : Priority} {read : Nat → List TokenTree → Option (List Filter)} {marks : List String}
    {part : Filter → List Filter}
    (hpart : ∀ {f : Filter} {ts : List TokenTree}, f.IsRead ts →
      ∃ us, Readable read marks (TokenStream.parens needed f.priority f.source) us (part f))
    {operands : List Filter} {ps : List (List TokenTree)}
    (h : List.Forall₂ Filter.IsRead operands ps) :
    ∃ qs, AllReadable read marks (Filter.sources needed operands) qs (operands.map part) := by
  induction h with
  | nil => exact ⟨[], .nil⟩
  | cons hoperand _ ih =>
      obtain ⟨us, hus⟩ := hpart hoperand
      obtain ⟨qs, hqs⟩ := ih
      exact ⟨us :: qs, .cons hus hqs⟩

theorem not_avoids_separated
    {w : String} {ps : List (List TokenTree)} (hlength : 2 ≤ ps.length) {marks : List String}
    (hw : w ∈ marks) :
    ¬ Avoids marks (separated (word w) ps) := by
  intro h
  have hnone := h _ (mem_separated hlength)
  rw [mark?_of_mem rfl hw] at hnone
  cases hnone

theorem Filter.isRead_disj
    {operands : List Filter} (hlength : 2 ≤ operands.length) {ps : List (List TokenTree)}
    (h : List.Forall₂ Filter.IsRead operands ps) (range : Option Range) :
    ∃ ts, (Filter.disj range operands).IsRead ts := by
  obtain ⟨qs, hqs⟩ := allReadable_operands (fun hf => ⟨_, hf.readable_alternatives⟩) h
  have hne : operands.map Filter.alternatives ≠ [] := by
    rw [ne_eq, List.map_eq_nil_iff]
    rintro rfl
    cases hlength
  have hqsLength : 2 ≤ qs.length := by
    rw [hqs.length_eq, List.length_map]
    exact hlength
  have hread := hqs.read_pieces hne
  rw [← disjuncts_eq] at hread
  have hfound := hqs.length_le_flatten
  rw [← disjuncts_eq, List.length_map] at hfound
  have hrank : ¬ Priority.and.rank < Priority.or.rank := by decide
  refine ⟨separated (word "||") qs, ?_⟩
  exact
    { spells := by
        have hempty : operands.isEmpty = false := by
          cases operands with
          | nil => cases hlength
          | cons _ _ => rfl
        rw [Filter.source, hempty]
        exact hqs.spells_join rfl
      ne_nil := separated_ne_nil (mt hqs.eq_nil_iff.mp hne) hqs.ne_nil
      avoids := hqs.avoids_separated _ (by decide) (List.Subset.refl _)
      read_eq := by
        have := read_of_alternatives hread
        rwa [anyOf_of_length (hlength.trans hfound)] at this
      alternatives := hread
      factors := fun h => absurd rfl h
      connectives := fun h => absurd h hrank
      tests := fun _ => not_avoids_separated hqsLength (by decide) }

theorem Filter.isRead_conj
    {operands : List Filter} (hlength : 2 ≤ operands.length) {ps : List (List TokenTree)}
    (h : List.Forall₂ Filter.IsRead operands ps) (range : Option Range) :
    ∃ ts, (Filter.conj range operands).IsRead ts := by
  obtain ⟨qs, hqs⟩ := allReadable_operands (fun hf => ⟨_, hf.readable_factors⟩) h
  have hne : operands.map Filter.factors ≠ [] := by
    rw [ne_eq, List.map_eq_nil_iff]
    rintro rfl
    cases hlength
  have hqsLength : 2 ≤ qs.length := by
    rw [hqs.length_eq, List.length_map]
    exact hlength
  have hread := hqs.read_pieces hne
  rw [← conjuncts_eq] at hread
  have hfound := hqs.length_le_flatten
  rw [← conjuncts_eq, List.length_map] at hfound
  have havoids : Avoids ["||"] (separated (word "&&") qs) :=
    hqs.avoids_separated _ (by decide) (List.subset_append_right _ _)
  have halternatives := alternatives_of_factors havoids hread
  rw [allOf_of_length (hlength.trans hfound)] at halternatives
  refine ⟨separated (word "&&") qs, ?_⟩
  exact
    { spells := by
        have hempty : operands.isEmpty = false := by
          cases operands with
          | nil => cases hlength
          | cons _ _ => rfl
        rw [Filter.source, hempty]
        exact hqs.spells_join rfl
      ne_nil := separated_ne_nil (mt hqs.eq_nil_iff.mp hne) hqs.ne_nil
      avoids := hqs.avoids_separated _ (by decide) (List.subset_append_left _ _)
      read_eq := read_of_alternatives halternatives
      alternatives := halternatives
      factors := fun _ => ⟨havoids, hread⟩
      connectives := fun h => absurd h (Nat.lt_irrefl _)
      tests := fun _ => not_avoids_separated hqsLength (by decide) }

theorem Filter.isRead_neg
    {operand : Filter} {ts : List TokenTree} (h : operand.IsRead ts) (range : Option Range) :
    ∃ ts, (Filter.neg range operand).IsRead ts := by
  have hwrapped := h.wrapped .not
  have hconnectives : Avoids ["||", "&&"] (wrap .not operand.priority ts) := by
    unfold wrap
    split
    next => exact avoids_group _ _
    next hlt => exact h.connectives (Nat.lt_of_lt_of_le (by decide) (Nat.not_lt.mp hlt))
  refine ⟨word "!" :: wrap .not operand.priority ts, .of_test ?_ (List.cons_ne_nil _ _) ?_
    (by decide : Priority.and.rank < Priority.not.rank) ?_ ?_⟩
  · rw [Filter.source]
    exact (TokenStream.PartsSpell.word rfl (.last hwrapped.spells)).ofParts
  · exact avoids_cons.mpr ⟨by decide, avoids_union hwrapped.avoids hconnectives⟩
  · intro _ h
    exact absurd (h _ List.mem_cons_self) (by decide)
  · filter_upwards [hwrapped.read_eq] with n hn
    have hcut : cutFirst? ["!"] (word "!" :: wrap .not operand.priority ts) =
        some ([], "!", wrap .not operand.priority ts) :=
      cutFirst?_append avoids_nil (List.mem_singleton_self _) _
    dsimp only [readFilter] at hn
    rw [Readers.test, hcut]
    dsimp only
    rw [hn]
    rfl

/-! ## Comparisons -/

theorem readName?_of_isName
    {name : String} (h : isName name = true) :
    readName? [word name] = some name :=
  if_pos h

theorem eq_of_readName?
    {ts : List TokenTree} {name : String} (h : readName? ts = some name) :
    ts = [word name] ∧ isName name = true := by
  unfold readName? at h
  split at h
  next w =>
      split at h
      next hw =>
          cases h
          exact ⟨rfl, hw⟩
      next => cases h
  next => cases h

/-- Only a variable is written as a name. -/
theorem readName?_eq_none
    {marks : List String} {s : TokenStream} {ts : List TokenTree} {v : Value}
    (h : Readable readValue marks s ts v.canonical) (hv : v.isVar = false) :
    readName? ts = none := by
  rw [Option.eq_none_iff_forall_ne_some]
  intro name hname
  obtain ⟨rfl, hisName⟩ := eq_of_readName? hname
  obtain ⟨n, hn, hm⟩ := (h.read_eq.and (Value.isRead_var hisName none).read_eq).exists
  rw [hn] at hm
  cases v with
  | var _ _ => cases hv
  | _ => cases hm

section Sides

variable {marks : List String} {s t : TokenStream} {ts us : List TokenTree} {v w : Value}

theorem sides_name
    {name : String} (hname : isName name = true) (op : String)
    (h : Readable readValue marks s ts v.canonical) :
    ∀ᶠ n in Filter.atTop,
      (readers n).sides [word name] op ts = some (.atom none name op v.canonical none) := by
  filter_upwards [h.read_eq] with n hn
  dsimp only [readValue] at hn
  rw [Readers.sides, readName?_of_isName hname]
  dsimp only
  rw [hn]
  rfl

theorem sides_values
    (hv : v.isVar = false) (op : String) (hlhs : Readable readValue marks s ts v.canonical)
    (hrhs : Readable readValue marks t us w.canonical) :
    ∀ᶠ n in Filter.atTop,
      (readers n).sides ts op us = some (.compute none v.canonical op w.canonical none) := by
  filter_upwards [hlhs.read_eq, hrhs.read_eq] with n hn hm
  dsimp only [readValue] at hn hm
  rw [Readers.sides, readName?_eq_none hlhs hv]
  dsimp only
  rw [hn, hm]
  rfl

end Sides

theorem ne_of_mem_comparisonMarks
    {op : String} (h : op ∈ comparisonMarks) :
    Token.isPlain (.literal op) = true ∧ op ∉ filterMarks ++ ["||", "&&"] ∧ op ∉ ["!"] ∧
      op ∈ testMarks := by
  revert op
  decide

namespace Filter.IsRead

variable {f : Filter}

theorem of_comparison
    {op : String} (hop : op ∈ comparisonMarks) (hpriority : f.priority = .comp)
    {s t : TokenStream} (hsource : f.source = .ofParts [s, op, t]) {ts us : List TokenTree}
    (hlhs : s.Spells ts) (hrhs : t.Spells us) (hne : ts ≠ [])
    (hlhsAvoids : Avoids (structureMarks ++ testMarks) ts)
    (hrhsAvoids : Avoids (structureMarks ++ testMarks) us)
    (hread : ∀ᶠ n in Filter.atTop, (readers n).sides ts op us = some f.canonical) :
    f.IsRead (ts ++ word op :: us) := by
  obtain ⟨hplain, hmarks, hneg, hmem⟩ := ne_of_mem_comparisonMarks hop
  refine of_test ?_ (List.append_ne_nil_of_left_ne_nil hne _) ?_ ?_ ?_ ?_
  · rw [hsource]
    exact (TokenStream.PartsSpell.cons hlhs (.word hplain (.last hrhs))).ofParts
  · exact avoids_cut.mpr
      ⟨hlhsAvoids.mono (by decide), hmarks, hrhsAvoids.mono (by decide)⟩
  · rw [hpriority]
    decide
  · intro _ h
    exact (avoids_cut.mp h).2.1 hmem
  · filter_upwards [hread] with n hn
    have hneg : cutFirst? ["!"] (ts ++ word op :: us) = none :=
      cutFirst?_eq_none (avoids_cut.mpr
        ⟨hlhsAvoids.mono (by decide), hneg, hrhsAvoids.mono (by decide)⟩)
    rw [Readers.test, hneg]
    dsimp only
    rw [cutFirst?_append (hlhsAvoids.mono (by decide)) hop]
    exact hn

theorem of_primary
    {ts : List TokenTree} (hspells : f.source.Spells ts) (hne : ts ≠ [])
    (havoids : Avoids (structureMarks ++ testMarks) ts) (hpriority : f.priority = .primary)
    (hread : ∀ᶠ n in Filter.atTop, (readers n).primaryTest ts = some f.canonical) :
    f.IsRead ts := by
  refine of_test hspells hne (havoids.mono (by decide)) ?_ (fun h => absurd hpriority h) ?_
  · rw [hpriority]
    decide
  · filter_upwards [hread] with n hn
    rw [Readers.test, cutFirst?_eq_none (havoids.mono (by decide))]
    dsimp only
    rw [cutFirst?_eq_none (havoids.mono (by decide))]
    exact hn

theorem of_call
    {op : String} (hop : isName op = true) (hpriority : f.priority = .primary)
    {s t : TokenStream} (hsource : f.source = .ofParts [op, "(", s, ",", t, ")"])
    {ts us : List TokenTree} (hlhs : s.Spells ts) (hrhs : t.Spells us) (hne : ts ≠ [])
    (hlhsAvoids : Avoids [","] ts) (hrhsAvoids : Avoids [","] us)
    (hread : ∀ᶠ n in Filter.atTop, (readers n).sides ts op us = some f.canonical) :
    f.IsRead [word op, group .round (ts ++ word "," :: us)] := by
  have hinner : TokenStream.PartsSpell [s, ",", t] (ts ++ word "," :: us) :=
    .cons hlhs (.word rfl (.last hrhs))
  refine of_primary ?_ (List.cons_ne_nil _ _) ?_ hpriority ?_
  · rw [hsource]
    exact (TokenStream.PartsSpell.word (isPlain_of_isName hop)
      (.enclosed .round hinner .nil)).ofParts
  · exact avoids_append.mpr ⟨avoids_of_isName hop (by decide), avoids_group _ _⟩
  · filter_upwards [hread] with n hn
    rw [Readers.primaryTest, if_neg (ne_of_isName hop (by decide)),
      if_neg (ne_of_isName hop (by decide)), Readers.call, items_pair hne hlhsAvoids hrhsAvoids]
    exact hn

end Filter.IsRead

theorem mem_comparisonMarks
    {op : String} (h : isComparison op = true) :
    op ∈ comparisonMarks :=
  List.contains_iff_mem.mp h

theorem isComparison_of_isName
    {op : String} (h : isName op = true) :
    isComparison op = false :=
  Bool.eq_false_iff.mpr fun hop => not_mem_of_isName h (by decide) (mem_comparisonMarks hop)

/-- A value on one side of a comparison. -/
theorem Value.IsRead.avoids_side
    {v : Value} {ts : List TokenTree} (h : v.IsRead ts) (hv : v.isFiltered = false) :
    Avoids (structureMarks ++ testMarks) (wrap .add v.priority ts) :=
  avoids_union (h.wrapped .add).avoids (h.series_wrapped (.inl hv)).1

theorem Filter.isRead_atom
    {name op : String} {value : Value} (hname : isName name = true)
    (hop : isName op = true ∨ isComparison op = true ∧ value.isFiltered = false)
    {ts : List TokenTree} (hvalue : value.IsRead ts) (range : Option Range)
    (overload : Option (List Ty)) :
    ∃ ts, (Filter.atom range name op value overload).IsRead ts := by
  have hspells : TokenStream.Spells (.literal name) [word name] :=
    TokenStream.spells_token (isPlain_of_isName hname)
  obtain hop | ⟨hop, hfiltered⟩ := hop
  · have hcomparison := isComparison_of_isName hop
    refine ⟨_, .of_call hop ?_ ?_ hspells hvalue.spells (List.cons_ne_nil _ _)
      (avoids_of_isName hname (by decide)) (hvalue.avoids.mono (by decide))
      (sides_name hname op hvalue.toReadable)⟩
    · rw [Filter.priority, hcomparison]
      rfl
    · rw [Filter.source, comparisonSource, hcomparison]
      rfl
  · have hwrapped := hvalue.wrapped .add
    refine ⟨_, .of_comparison (mem_comparisonMarks hop) ?_ ?_ hspells hwrapped.spells
      (List.cons_ne_nil _ _) (avoids_of_isName hname (by decide)) (hvalue.avoids_side hfiltered)
      (sides_name hname op hwrapped)⟩
    · rw [Filter.priority, hop]
      rfl
    · rw [Filter.source, comparisonSource, hop]
      rfl

theorem Filter.isRead_compute
    {lhs rhs : Value} {op : String} (hvar : lhs.isVar = false)
    (hop : isName op = true ∨
      isComparison op = true ∧ lhs.isFiltered = false ∧ rhs.isFiltered = false)
    {ts us : List TokenTree} (hlhs : lhs.IsRead ts) (hrhs : rhs.IsRead us) (range : Option Range)
    (overload : Option (List Ty)) :
    ∃ ts, (Filter.compute range lhs op rhs overload).IsRead ts := by
  obtain hop | ⟨hop, hlhsFiltered, hrhsFiltered⟩ := hop
  · have hcomparison := isComparison_of_isName hop
    refine ⟨_, .of_call hop ?_ ?_ hlhs.spells hrhs.spells hlhs.ne_nil
      (hlhs.avoids.mono (by decide)) (hrhs.avoids.mono (by decide))
      (sides_values hvar op hlhs.toReadable hrhs.toReadable)⟩
    · rw [Filter.priority, hcomparison]
      rfl
    · rw [Filter.source, comparisonSource, hcomparison]
      rfl
  · have hlhsWrapped := hlhs.wrapped .add
    have hrhsWrapped := hrhs.wrapped .add
    refine ⟨_, .of_comparison (mem_comparisonMarks hop) ?_ ?_ hlhsWrapped.spells
      hrhsWrapped.spells hlhsWrapped.ne_nil (hlhs.avoids_side hlhsFiltered)
      (hrhs.avoids_side hrhsFiltered) (sides_values hvar op hlhsWrapped hrhsWrapped)⟩
    · rw [Filter.priority, hop]
      rfl
    · rw [Filter.source, comparisonSource, hop]
      rfl

/-! ## Other filters -/

theorem Filter.isRead_always :
    Filter.always.IsRead [word "true"] :=
  .of_primary (TokenStream.spells_token rfl) (List.cons_ne_nil _ _) (by decide) rfl
    (Filter.Eventually.of_forall fun _ => rfl)

theorem Filter.isRead_never :
    Filter.never.IsRead [word "false"] :=
  .of_primary (TokenStream.spells_token rfl) (List.cons_ne_nil _ _) (by decide) rfl
    (Filter.Eventually.of_forall fun _ => rfl)

theorem Filter.isRead_dontCare
    {name : String} (h : isName name = true) (range : Option Range) :
    (Filter.dontCare range name).IsRead [word "true", group .round [word name]] := by
  refine .of_primary ?_ (List.cons_ne_nil _ _) ?_ rfl ?_
  · have hname : TokenStream.Spells (.literal name) [word name] :=
      TokenStream.spells_token (isPlain_of_isName h)
    exact (TokenStream.PartsSpell.word rfl (.group .round hname .nil)).ofParts
  · exact avoids_word_cons.mpr ⟨by decide, avoids_group _ _⟩
  · refine Filter.Eventually.of_forall fun n => ?_
    rw [Readers.primaryTest, if_pos rfl, readName?_of_isName h]
    rfl

theorem Filter.isRead_external
    {call : Invocation} {ts : List TokenTree}
    (hcall : Readable readInvocation filterMarks call.source ts call.canonical) {filter : Filter}
    {us : List TokenTree} (hfilter : filter.IsRead us) :
    ∃ inner, (Filter.external call filter).IsRead [word "any", group .round inner] := by
  have hcallFilter : Avoids ["filter"] ts := hcall.avoids.mono (by simp)
  cases halways : filter.isAlways with
  | true =>
      refine ⟨ts, .of_primary ?_ (List.cons_ne_nil _ _) ?_ rfl ?_⟩
      · rw [Filter.source, halways]
        exact (TokenStream.PartsSpell.word rfl (.group .round hcall.spells .nil)).ofParts
      · exact avoids_word_cons.mpr ⟨by decide, avoids_group _ _⟩
      · filter_upwards [hcall.read_eq] with n hn
        dsimp only [readInvocation] at hn
        rw [Readers.primaryTest, if_neg (by decide), if_pos rfl, Readers.external,
          cutFirst?_eq_none hcallFilter]
        dsimp only
        rw [hn]
        cases filter with
        | always => rfl
        | _ => cases halways
  | false =>
      have hinner : TokenStream.PartsSpell [call.source, "filter", filter.source]
          (ts ++ word "filter" :: us) :=
        .cons hcall.spells (.word rfl (.last hfilter.spells))
      refine ⟨ts ++ word "filter" :: us, .of_primary ?_ (List.cons_ne_nil _ _) ?_ rfl ?_⟩
      · rw [Filter.source, halways]
        exact (TokenStream.PartsSpell.word rfl (.enclosed .round hinner .nil)).ofParts
      · exact avoids_word_cons.mpr ⟨by decide, avoids_group _ _⟩
      · filter_upwards [hcall.read_eq, hfilter.read_eq] with n hn hm
        dsimp only [readInvocation, readFilter] at hn hm
        rw [Readers.primaryTest, if_neg (by decide), if_pos rfl, Readers.external,
          cutFirst?_append hcallFilter (List.mem_singleton_self _)]
        dsimp only
        rw [hn, hm]
        rfl

end SkillLang

import SkillLang.Proofs.Legacy.Reader

/-!
# Sources of canonical trees

Ranges and signatures are not written, and what is read from a leaf is written like the leaf.  So
the canonical tree of a table or a stream has the same source.
-/

namespace SkillLang

open TokenStream

/-! ## Inputs and calls -/

/-- What is written between separators may be written in another way. -/
theorem toList_join_congr
    {parts others : List TokenStream} (h : parts.map toList = others.map toList)
    (hne : ∀ part ∈ others, part.toList ≠ []) (separator : TokenStream) :
    (join parts separator).toList = (join others separator).toList := by
  have hnePart : ∀ part ∈ parts, part.toList ≠ [] := by
    intro part hpart
    have hmem : part.toList ∈ others.map toList := h ▸ List.mem_map_of_mem hpart
    obtain ⟨other, hother, heq⟩ := List.mem_map.mp hmem
    rw [← heq]
    exact hne other hother
  have hflat (streams : List TokenStream) :
      (streams.flatMap fun part => separator.toList ++ part.toList) =
        (streams.map toList).flatMap fun tokens => separator.toList ++ tokens :=
    (List.flatMap_map _ _ _).symm
  cases parts with
  | nil => rw [List.map_eq_nil_iff.mp h.symm]
  | cons part parts =>
      cases others with
      | nil => cases h
      | cons other others =>
          obtain ⟨hhead, htail⟩ := List.cons.inj h
          rw [toList_join_cons hnePart, toList_join_cons hne, hflat, hflat, hhead]
          exact congrArg _ (congrArg _ htail)

theorem map_source_readBack
    (values : List Value) :
    ((values.map Value.readBack).map Value.source).map toList =
      (values.map Value.source).map toList := by
  simp only [List.map_map, List.map_inj_left]
  exact fun v _ => v.source_readBack

theorem toList_ne_nil_of_mem_sources
    {params : List Param} {part : TokenStream} (h : part ∈ Param.sources params) :
    part.toList ≠ [] := by
  induction params with
  | nil => cases h
  | cons p params ih =>
      obtain ⟨name, value, range⟩ := p
      obtain rfl | h := List.mem_cons.mp h
      · simp [literal]
      · exact ih h

theorem Param.sources_readBack
    (params : List Param) :
    (Param.sources (params.map Param.readBack)).map toList =
      (Param.sources params).map toList := by
  induction params with
  | nil => rfl
  | cons p params ih =>
      obtain ⟨name, value, range⟩ := p
      rw [List.map_cons, Param.readBack, Param.sources, Param.sources, List.map_cons, List.map_cons,
        ih]
      simp only [toList_ofParts, List.flatMap_cons, value.source_readBack]

theorem toList_join_sources_readBack
    (params : List Param) :
    (join (Param.sources (params.map Param.readBack)) ",").toList =
      (join (Param.sources params) ",").toList :=
  toList_join_congr (Param.sources_readBack params) (fun _ => toList_ne_nil_of_mem_sources) ","

theorem toList_attributesSource_readBack
    (id : Option String) (params : List Param) (all : Bool) :
    (attributesSource id (Param.sources (params.map Param.readBack)) all).toList =
      (attributesSource id (Param.sources params) all).toList := by
  unfold attributesSource
  refine toList_join_congr ?_ ?_ ","
  · simp only [List.map_append, Param.sources_readBack]
  · intro part hpart
    rw [List.mem_append, List.mem_append] at hpart
    obtain (hid | hparam) | hall := hpart
    · cases id with
      | none => cases hid
      | some id =>
          rw [List.mem_singleton.mp hid]
          simp [literal]
    · exact toList_ne_nil_of_mem_sources hparam
    · cases all with
      | false => cases hall
      | true =>
          rw [List.mem_singleton.mp hall]
          simp [literal]

theorem Device.toList_source_readBack
    (d : Device) :
    ({ d with attributes := d.attributes.map Param.readBack, range := none } :
      Device).source.toList = d.source.toList := by
  obtain ⟨kind, id, attributes, all, range⟩ := d
  simp only [Device.source, List.isEmpty_map]
  split
  next => rfl
  next =>
      simp only [toList_ofParts, List.flatMap_cons, toList_attributesSource_readBack]

theorem Invocation.toList_source_readBack
    (i : Invocation) :
    i.readBack.source.toList = i.source.toList := by
  obtain ⟨selector, channel, params, range, schema⟩ := i
  cases selector with
  | builtin =>
      simp only [readBack, Selector.readBack, source, List.isEmpty_map]
      split
      next => rfl
      next => simp only [toList_ofParts, List.flatMap_cons, toList_join_sources_readBack]
  | device d =>
      have hplain : ({ d with attributes := d.attributes.map Param.readBack, range := none } :
          Device).isPlain = d.isPlain := by
        simp only [Device.isPlain, List.isEmpty_map]
      simp only [readBack, Selector.readBack, source, hplain]
      split
      next => simp only [toList_ofParts, List.flatMap_cons, toList_join_sources_readBack]
      next =>
          simp only [toList_ofParts, List.flatMap_cons, toList_join_sources_readBack,
            d.toList_source_readBack]

namespace Legacy

/-! ## Parts -/

theorem toList_wrapped_congr
    {s t : TokenStream} (h : s.toList = t.toList) (isPrimary : Bool) :
    (wrapped isPrimary s).toList = (wrapped isPrimary t).toList := by
  cases isPrimary with
  | true => exact h
  | false =>
      simp only [wrapped, Bool.false_eq_true, if_false, toList_ofParts, List.flatMap_cons, h]

theorem toList_callSource_readBack
    (name : String) (params : List Param) :
    (callSource name (params.map Param.readBack)).toList = (callSource name params).toList := by
  simp only [callSource, toList_ofParts, List.flatMap_cons, toList_join_sources_readBack]

theorem toList_passedSource_readBack
    (params : List Param) :
    (passedSource (params.map Param.readBack)).toList = (passedSource params).toList := by
  simp only [passedSource, List.isEmpty_map]
  split
  next => rfl
  next => simp only [toList_ofParts, List.flatMap_cons, toList_join_sources_readBack]

theorem toList_valuesSource_readBack
    (values : List Value) :
    (valuesSource (values.map Value.readBack)).toList = (valuesSource values).toList := by
  have hne : ∀ part ∈ values.map Value.source, part.toList ≠ [] := by
    rw [List.forall_mem_map]
    exact fun v _ => v.toList_source_ne_nil
  have hjoin := toList_join_congr (map_source_readBack values) hne ","
  simp only [valuesSource, bracketed, toList_ofParts, List.flatMap_cons, hjoin]

theorem toList_computeSource_readBack
    (v : Value) (label : Option String) {s t : TokenStream} (h : s.toList = t.toList) :
    (computeSource v.readBack label s).toList = (computeSource v label t).toList := by
  simp only [computeSource, toList_ofParts, List.flatMap_cons, v.source_readBack, h]

theorem toList_timerSource_congr
    {parts others : List TokenStream} (h : parts.map toList = others.map toList)
    (hne : ∀ part ∈ others, part.toList ≠ []) (name : String) :
    (timerSource name parts).toList = (timerSource name others).toList := by
  simp only [timerSource, toList_ofParts, List.flatMap_cons, toList_join_congr h hne ","]

theorem toList_assignment_congr
    {s t : TokenStream} (h : s.toList = t.toList) (name : String) :
    (assignment name s).toList = (assignment name t).toList := by
  simp only [assignment, toList_ofParts, List.flatMap_cons, h]

theorem toList_assignment_ne_nil
    (name : String) (s : TokenStream) :
    (assignment name s).toList ≠ [] := by
  simp [assignment, literal]

theorem optionalSource_readBack
    (name : String) (value : Option Value) :
    (optionalSource name (value.map Value.readBack)).map toList =
      (optionalSource name value).map toList := by
  cases value with
  | none => rfl
  | some v =>
      have hassignment := toList_assignment_congr v.source_readBack name
      exact congrArg (fun tokens => [tokens]) hassignment

theorem toList_ne_nil_of_mem_optionalSource
    {name : String} {value : Option Value} {part : TokenStream}
    (h : part ∈ optionalSource name value) :
    part.toList ≠ [] := by
  cases value with
  | none => cases h
  | some v =>
      rw [List.mem_singleton.mp h]
      exact toList_assignment_ne_nil _ _

/-! ## Tables and streams -/

theorem Table.isPrimary_canonical
    (t : Table) :
    t.canonical.isPrimary = t.isPrimary := by
  cases t <;> rfl

theorem Stream.isPrimary_canonical
    (s : Stream) :
    s.canonical.isPrimary = s.isPrimary := by
  cases s <;> rfl

mutual

/-- A canonical table is written like the table. -/
theorem Table.toList_source_canonical :
    (t : Table) → t.canonical.source.toList = t.source.toList
  | invocation i => i.toList_source_readBack
  | call name params => toList_callSource_readBack name params
  | filter table test => by
      simp only [canonical, source, toList_ofParts, List.flatMap_cons,
        table.toList_wrapped_canonical, test.source_readBack]
  | projection table _ | named table _ | sort table _ _ => by
      simp only [canonical, source, toList_ofParts, List.flatMap_cons,
        table.toList_wrapped_canonical]
  | compute table value label =>
      toList_computeSource_readBack value label table.toList_wrapped_canonical
  | aggregation table field op => by
      simp only [canonical, source]
      split <;>
        simp only [toList_ofParts, List.flatMap_cons, table.toList_wrapped_canonical]
  | index table indices => by
      simp only [canonical, source, toList_ofParts, List.flatMap_cons,
        table.toList_wrapped_canonical, toList_valuesSource_readBack]
  | slice table base limit => by
      simp only [canonical, source, toList_ofParts, List.flatMap_cons,
        table.toList_wrapped_canonical, base.source_readBack, limit.source_readBack]
  | join lhs rhs params => by
      simp only [canonical, source, toList_ofParts, List.flatMap_cons,
        lhs.toList_wrapped_canonical, rhs.toList_wrapped_canonical, toList_passedSource_readBack]

theorem Table.toList_wrapped_canonical :
    (t : Table) → (wrapped t.canonical.isPrimary t.canonical.source).toList =
      (wrapped t.isPrimary t.source).toList
  | t => by
      rw [t.isPrimary_canonical]
      exact toList_wrapped_congr t.toList_source_canonical _

end

mutual

/-- A canonical stream is written like the stream. -/
theorem Stream.toList_source_canonical :
    (s : Stream) → s.canonical.source.toList = s.source.toList
  | timer base interval frequency => by
      refine toList_timerSource_congr ?_ ?_ "timer"
      · simp only [List.map_append, List.map_cons, List.map_nil, optionalSource_readBack,
          toList_assignment_congr base.source_readBack,
          toList_assignment_congr interval.source_readBack]
      · simp only [List.forall_mem_append, List.forall_mem_cons]
        exact ⟨⟨toList_assignment_ne_nil _ _, toList_assignment_ne_nil _ _, List.forall_mem_nil _⟩,
          fun _ => toList_ne_nil_of_mem_optionalSource⟩
  | atTimer times expiration => by
      refine toList_timerSource_congr ?_ ?_ "attimer"
      · simp only [List.map_cons, optionalSource_readBack,
          toList_assignment_congr (toList_valuesSource_readBack times)]
      · rw [List.forall_mem_cons]
        exact ⟨toList_assignment_ne_nil _ _, fun _ => toList_ne_nil_of_mem_optionalSource⟩
  | onTimer dates => by
      refine toList_timerSource_congr ?_ ?_ "ontimer"
      · simp only [List.map_cons, List.map_nil,
          toList_assignment_congr (toList_valuesSource_readBack dates)]
      · exact List.forall_mem_singleton.mpr (toList_assignment_ne_nil _ _)
  | call name params => toList_callSource_readBack name params
  | monitor table args => by
      cases args <;>
        simp only [canonical, source, toList_ofParts, List.flatMap_cons,
          table.toList_source_canonical]
  | edgeNew stream | projection stream _ | named stream _ => by
      simp only [canonical, source, toList_ofParts, List.flatMap_cons,
        stream.toList_wrapped_canonical]
  | edgeFilter stream test | filter stream test => by
      simp only [canonical, source, toList_ofParts, List.flatMap_cons,
        stream.toList_wrapped_canonical, test.source_readBack]
  | compute stream value label =>
      toList_computeSource_readBack value label stream.toList_wrapped_canonical
  | join stream table params => by
      simp only [canonical, source, toList_ofParts, List.flatMap_cons,
        stream.toList_wrapped_canonical, table.toList_wrapped_canonical,
        toList_passedSource_readBack]

theorem Stream.toList_wrapped_canonical :
    (s : Stream) → (wrapped s.canonical.isPrimary s.canonical.source).toList =
      (wrapped s.isPrimary s.source).toList
  | s => by
      rw [s.isPrimary_canonical]
      exact toList_wrapped_congr s.toList_source_canonical _

end

end Legacy

end SkillLang

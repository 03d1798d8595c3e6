import SkillLang.Proofs.Source.ReadableFilters

/-!
# Legible values and filters are readable

By recursion on values, filters and calls, which are parts of each other.
-/

namespace SkillLang

open TokenTree

mutual

theorem Value.isRead_of_isLegible :
    (v : Value) → v.isLegible = true → ∃ ts, v.IsRead ts
  | .array values type, h => by
      obtain ⟨ps, hps⟩ := Value.forall₂_isRead values h
      exact ⟨_, Value.isRead_array hps type⟩
  | .var name type, h => ⟨_, Value.isRead_var h type⟩
  | .computation op operands overload type, h => by
      rw [Value.isLegible, Bool.and_eq_true, Bool.or_eq_true] at h
      obtain ⟨hop, hoperands⟩ := h
      obtain ⟨ps, hps⟩ := Value.forall₂_isRead operands hoperands
      obtain hop | hop := hop
      · exact ⟨_, Value.isRead_applied hop hps overload type⟩
      · rw [Bool.and_eq_true, Bool.and_eq_true, beq_iff_eq, List.contains_iff_mem] at hop
        exact Value.isRead_infix_operands hop.1.1 hop.1.2 hop.2 hps overload type
  | .field value name type, h => by
      rw [Value.isLegible, Bool.and_eq_true] at h
      obtain ⟨ts, hts⟩ := Value.isRead_of_isLegible value h.2
      exact Value.isRead_field h.1 hts type
  | .filtered value filter type, h => by
      rw [Value.isLegible, Bool.and_eq_true] at h
      obtain ⟨ts, hts⟩ := Value.isRead_of_isLegible value h.1
      obtain ⟨us, hus⟩ := Filter.isRead_of_isLegible filter h.2
      exact Value.isRead_filtered hts hus.toReadable type
  | .undefined true, _ => ⟨_, Value.isRead_undefined⟩
  | .context name type, h => ⟨_, Value.isRead_context name h⟩
  | .boolean b, _ => Value.isRead_boolean b
  | .string _, _ => ⟨_, .of_constant ⟨.quotedString, _⟩ rfl rfl⟩
  | .number _, _ => ⟨_, .of_constant ⟨.number, _⟩ rfl rfl⟩
  | .measure _ _, _ => ⟨_, .of_constant ⟨.measure, _⟩ rfl rfl⟩
  | .currency _ _, _ => ⟨_, .of_constant ⟨.currency, _⟩ rfl rfl⟩
  | .place p, _ => Value.isRead_place p
  | .date d, h => Value.isRead_date h
  | .time t, _ => Value.isRead_time t
  | .entity e, _ => ⟨_, .of_constant ⟨.ofEntityKind e.kind, _⟩ rfl rfl⟩
  | .enum entry, h => ⟨_, Value.isRead_enum h⟩
  | .event none, _ => ⟨_, Value.isRead_result⟩
  | .event (some name), h => by
      rw [Value.isLegible, Bool.and_eq_true, Bool.and_eq_true, bne_iff_ne, bne_iff_ne] at h
      exact ⟨_, Value.isRead_event h.1.1 h.1.2 h.2⟩
  | .argMap args, h => Value.isRead_argMap h
  | .object fields, h => by
      obtain ⟨ps, hps⟩ := Value.allReadable_fields fields h
      exact ⟨_, Value.isRead_object hps⟩

theorem Value.forall₂_isRead :
    (values : List Value) → Value.allLegible values = true →
      ∃ ps, List.Forall₂ Value.IsRead values ps
  | [], _ => ⟨[], .nil⟩
  | value :: values, h => by
      rw [Value.allLegible, Bool.and_eq_true] at h
      obtain ⟨ts, hts⟩ := Value.isRead_of_isLegible value h.1
      obtain ⟨ps, hps⟩ := Value.forall₂_isRead values h.2
      exact ⟨ts :: ps, .cons hts hps⟩

theorem Value.allReadable_fields :
    (fields : List (String × Value)) → Value.allFieldsLegible fields = true →
      ∃ ps, AllReadable readAssignment [","] (Value.fieldSources fields) ps
        (Value.canonicalFields fields)
  | [], _ => ⟨[], .nil⟩
  | (name, value) :: fields, h => by
      rw [Value.allFieldsLegible, Bool.and_eq_true, Bool.and_eq_true] at h
      obtain ⟨ts, hts⟩ := Value.isRead_of_isLegible value h.1.2
      obtain ⟨ps, hps⟩ := Value.allReadable_fields fields h.2
      exact ⟨_, .cons (readable_assignment h.1.1 hts) hps⟩

theorem Filter.isRead_of_isLegible :
    (f : Filter) → f.isLegible = true → ∃ ts, f.IsRead ts
  | .always, _ => ⟨_, Filter.isRead_always⟩
  | .never, _ => ⟨_, Filter.isRead_never⟩
  | .conj range operands, h => by
      rw [Filter.isLegible, Bool.and_eq_true, decide_eq_true_iff] at h
      obtain ⟨ps, hps⟩ := Filter.forall₂_isRead operands h.2
      exact Filter.isRead_conj h.1 hps range
  | .disj range operands, h => by
      rw [Filter.isLegible, Bool.and_eq_true, decide_eq_true_iff] at h
      obtain ⟨ps, hps⟩ := Filter.forall₂_isRead operands h.2
      exact Filter.isRead_disj h.1 hps range
  | .neg range operand, h => by
      obtain ⟨ts, hts⟩ := Filter.isRead_of_isLegible operand h
      exact Filter.isRead_neg hts range
  | .atom range name op value overload, h => by
      rw [Filter.isLegible, Bool.and_eq_true, Bool.and_eq_true, Bool.or_eq_true, Bool.and_eq_true,
        Bool.not_eq_true'] at h
      obtain ⟨ts, hts⟩ := Value.isRead_of_isLegible value h.2
      exact Filter.isRead_atom h.1.1 h.1.2 hts range overload
  | .compute range lhs op rhs overload, h => by
      simp only [Filter.isLegible, Bool.and_eq_true, Bool.or_eq_true, Bool.not_eq_true',
        and_assoc] at h
      obtain ⟨hvar, hop, hlhs, hrhs⟩ := h
      obtain ⟨ts, hts⟩ := Value.isRead_of_isLegible lhs hlhs
      obtain ⟨us, hus⟩ := Value.isRead_of_isLegible rhs hrhs
      exact Filter.isRead_compute hvar hop hts hus range overload
  | .dontCare range name, h => ⟨_, Filter.isRead_dontCare h range⟩
  | .external call filter, h => by
      rw [Filter.isLegible, Bool.and_eq_true] at h
      obtain ⟨ts, -, hts⟩ := Invocation.readable_of_isLegible call h.1
      obtain ⟨us, hus⟩ := Filter.isRead_of_isLegible filter h.2
      obtain ⟨_, hexternal⟩ := Filter.isRead_external hts hus
      exact ⟨_, hexternal⟩

theorem Filter.forall₂_isRead :
    (operands : List Filter) → Filter.allLegible operands = true →
      ∃ ps, List.Forall₂ Filter.IsRead operands ps
  | [], _ => ⟨[], .nil⟩
  | operand :: operands, h => by
      rw [Filter.allLegible, Bool.and_eq_true] at h
      obtain ⟨ts, hts⟩ := Filter.isRead_of_isLegible operand h.1
      obtain ⟨ps, hps⟩ := Filter.forall₂_isRead operands h.2
      exact ⟨ts :: ps, .cons hts hps⟩

theorem Param.forall₂_isRead :
    (params : List Param) → Param.allLegible params = true →
      ∃ ps, List.Forall₂ Param.IsRead params ps
  | [], _ => ⟨[], .nil⟩
  | ⟨name, value, range⟩ :: params, h => by
      rw [Param.allLegible, Bool.and_eq_true, Bool.and_eq_true] at h
      obtain ⟨ts, hts⟩ := Value.isRead_of_isLegible value h.1.2
      obtain ⟨ps, hps⟩ := Param.forall₂_isRead params h.2
      exact ⟨_, .cons ⟨h.1.1, ts, rfl, hts⟩ hps⟩

theorem Device.forall₂_isRead :
    (d : Device) → d.isLegible = true → ∃ ps, List.Forall₂ Param.IsRead d.attributes ps
  | ⟨_, _, attributes, _, _⟩, h => by
      rw [Device.isLegible, Bool.and_eq_true] at h
      exact Param.forall₂_isRead attributes h.1

theorem Invocation.readable_of_isLegible :
    (i : Invocation) → i.isLegible = true →
      ∃ ts, IsCall ts ∧ Readable readInvocation filterMarks i.source ts i.canonical
  | ⟨.builtin, channel, params, range, schema⟩, h => by
      rw [Invocation.isLegible, Bool.and_eq_true, List.isEmpty_iff] at h
      obtain ⟨hchannel, rfl⟩ := h
      exact ⟨_, .builtin hchannel, readable_builtin hchannel range schema⟩
  | ⟨.device d, channel, params, range, schema⟩, h => by
      rw [Invocation.isLegible, Bool.and_eq_true, Bool.and_eq_true] at h
      obtain ⟨⟨hdevice, hchannel⟩, hparams⟩ := h
      obtain ⟨qs, hqs⟩ := Device.forall₂_isRead d hdevice
      obtain ⟨ps, hps⟩ := Param.forall₂_isRead params hparams
      exact readable_invocation hdevice hqs hchannel hps range schema

end

end SkillLang

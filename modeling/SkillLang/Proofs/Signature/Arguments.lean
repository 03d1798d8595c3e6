import Mathlib.Data.List.Nodup
import SkillLang.Proofs.Typing.References

/-!
# Arguments by name

An argument that is added takes the place of all arguments of its name, so that what is
found under a name is the last one added, and names that were different stay so.  As
long as they are, it does not matter from which end the arguments are searched: the
first argument of a name in a signature has the type of the last one that is brought
into scope.
-/

namespace SkillLang

/-- Arguments come into scope as variables only. -/
@[simp] theorem Scope.functions_addAll
    (scope : Scope) (args : List Argument) :
    (scope.addAll args).functions = scope.functions := by
  unfold addAll
  induction args generalizing scope with
  | nil => rfl
  | cons a args ih => exact ih (scope.addVar a.name a.type)

namespace Signature

/-- No two arguments have one name. -/
def HasDistinctArgs (s : Signature) : Prop :=
  (s.args.map Argument.name).Nodup

instance (s : Signature) : Decidable s.HasDistinctArgs :=
  inferInstanceAs (Decidable (List.Nodup _))

theorem isInput_of_mem_outArgs
    {s : Signature} {a : Argument} (h : a ∈ s.outArgs) :
    a.isInput = false := by
  have hout : (!a.isInput) = true := (List.mem_filter.mp h).2
  rwa [Bool.not_eq_true'] at hout

/-! ## Added arguments -/

theorem arg?_addArgument
    (s : Signature) (a : Argument) (name : String) :
    (s.addArgument a).arg? name = if a.name = name then some a else s.arg? name := by
  unfold arg? addArgument
  rw [List.find?_append, List.find?_filter]
  by_cases hname : a.name = name
  · have hnone : (s.args.find? fun existing =>
        decide ((existing.name != a.name) = true ∧ (existing.name == name) = true)) = none := by
      rw [List.find?_eq_none]
      intro existing _
      simp [hname]
    rw [if_pos hname, hnone, Option.none_or]
    simp [hname]
  · have hsame : (fun existing : Argument =>
        decide ((existing.name != a.name) = true ∧ (existing.name == name) = true)) =
          fun existing => existing.name == name := by
      funext existing
      by_cases hexisting : existing.name = name
      · simp [hexisting, Ne.symm hname]
      · simp [hexisting]
    rw [if_neg hname, hsame]
    simp [hname]

theorem arg?_addArguments
    (s : Signature) (extra : List Argument) (name : String) :
    (s.addArguments extra).arg? name =
      (extra.reverse.find? fun a => a.name == name).or (s.arg? name) := by
  induction extra generalizing s with
  | nil => rfl
  | cons a extra ih =>
      have hstep : s.addArguments (a :: extra) = (s.addArgument a).addArguments extra := rfl
      rw [hstep, ih, arg?_addArgument, List.reverse_cons, List.find?_append, Option.or_assoc]
      congr 1
      by_cases hname : a.name = name
      · simp [hname]
      · simp [hname]

/-- An argument stays if none of its name is added. -/
theorem mem_addArguments
    {s : Signature} {a : Argument} (ha : a ∈ s.args) {extra : List Argument}
    (hnew : a.name ∉ extra.map Argument.name) :
    a ∈ (s.addArguments extra).args := by
  induction extra generalizing s with
  | nil => exact ha
  | cons b extra ih =>
      rw [List.map_cons, List.mem_cons, not_or] at hnew
      have hstep : a ∈ (s.addArgument b).args := by
        refine List.mem_append_left _ (List.mem_filter.mpr ⟨ha, ?_⟩)
        exact bne_iff_ne.mpr hnew.1
      exact ih hstep hnew.2

namespace HasDistinctArgs

variable {s : Signature}

theorem of_args_eq
    {t : Signature} (h : s.HasDistinctArgs) (hargs : t.args = s.args) :
    t.HasDistinctArgs := by
  unfold HasDistinctArgs
  rw [hargs]
  exact h

theorem of_sublist
    {t : Signature} (h : s.HasDistinctArgs) (hargs : t.args.Sublist s.args) :
    t.HasDistinctArgs :=
  h.sublist (hargs.map Argument.name)

theorem addArgument
    (h : s.HasDistinctArgs) (a : Argument) :
    (s.addArgument a).HasDistinctArgs := by
  have hkept : ((s.args.filter fun existing => existing.name != a.name).map
      Argument.name).Nodup :=
    h.sublist (List.filter_sublist.map _)
  unfold HasDistinctArgs Signature.addArgument
  rw [List.map_append, List.map_singleton, List.nodup_append]
  refine ⟨hkept, List.nodup_singleton _, ?_⟩
  rintro _ hname _ hlast rfl
  obtain ⟨existing, hexisting, rfl⟩ := List.mem_map.mp hname
  have hne : (existing.name != a.name) = true := (List.mem_filter.mp hexisting).2
  rw [List.mem_singleton.mp hlast, bne_self_eq_false] at hne
  cases hne

theorem addArguments
    (h : s.HasDistinctArgs) (extra : List Argument) :
    (s.addArguments extra).HasDistinctArgs := by
  induction extra generalizing s with
  | nil => exact h
  | cons a extra ih => exact ih (h.addArgument a)

theorem eq_of_name_eq
    (h : s.HasDistinctArgs) {a b : Argument} (ha : a ∈ s.args) (hb : b ∈ s.args)
    (hname : a.name = b.name) :
    a = b :=
  List.inj_on_of_nodup_map h ha hb hname

/-- Outputs that are kept by different names are different from each other, and from the inputs. -/
theorem filterOutputs
    (h : s.HasDistinctArgs) {names : List String} (hnames : names.Nodup) :
    (s.filterOutputs names).HasDistinctArgs := by
  have hinputs : (s.inArgs.map Argument.name).Nodup := h.sublist (List.filter_sublist.map _)
  have hkept (names : List String) :
      ((names.filterMap fun name => s.outArgs.find? fun a => a.name == name).map
        Argument.name).Sublist names := by
    induction names with
    | nil => exact .slnil
    | cons name names ih =>
        rw [List.filterMap_cons]
        cases hfind : s.outArgs.find? fun a => a.name == name with
        | none => exact ih.cons name
        | some a =>
            have hname := List.find?_some hfind
            rw [List.map_cons, eq_of_beq hname]
            exact ih.cons_cons name
  unfold HasDistinctArgs Signature.filterOutputs
  rw [List.map_append, List.nodup_append]
  refine ⟨hinputs, hnames.sublist (hkept names), ?_⟩
  rintro _ hinput _ houtput rfl
  obtain ⟨a, ha, rfl⟩ := List.mem_map.mp hinput
  obtain ⟨b, hb, hname⟩ := List.mem_map.mp houtput
  obtain ⟨_, -, hfind⟩ := List.mem_filterMap.mp hb
  obtain ⟨ha, hin⟩ := List.mem_filter.mp ha
  have hb : b ∈ s.outArgs := List.mem_of_find?_eq_some hfind
  have hout := isInput_of_mem_outArgs hb
  rw [h.eq_of_name_eq (List.mem_of_mem_filter hb) ha hname, hin] at hout
  cases hout

/-- In whatever order the arguments are searched, one of them is found under its name. -/
theorem find?_of_mem
    (h : s.HasDistinctArgs) {args : List Argument} (hargs : ∀ b ∈ args, b ∈ s.args)
    {a : Argument} (ha : a ∈ args) :
    (args.find? fun b => b.name == a.name) = some a := by
  cases hfind : args.find? fun b => b.name == a.name with
  | none =>
      have hother := List.find?_eq_none.mp hfind a ha
      exact absurd (beq_self_eq_true a.name) hother
  | some b =>
      have hname := List.find?_some hfind
      have hb : b ∈ args := List.mem_of_find?_eq_some hfind
      rw [h.eq_of_name_eq (hargs b hb) (hargs a ha) (eq_of_beq hname)]

theorem arg?_of_mem
    (h : s.HasDistinctArgs) {a : Argument} (ha : a ∈ s.args) :
    s.arg? a.name = some a :=
  h.find?_of_mem (fun _ hb => hb) ha

/-- The first argument of a name is the last one as well. -/
theorem var?_addArguments
    (h : s.HasDistinctArgs) (scope : Scope) (name : String) :
    (scope.addArguments s).var? name =
      ((s.arg? name).map Argument.type).or (scope.var? name) := by
  have hlast : (s.args.reverse.find? fun a => a.name == name) = s.arg? name := by
    cases harg : s.arg? name with
    | none =>
        rw [List.find?_eq_none]
        intro a ha
        exact List.find?_eq_none.mp harg a (List.mem_reverse.mp ha)
    | some a =>
        have hname := List.find?_some harg
        obtain rfl : a.name = name := eq_of_beq hname
        have ha : a ∈ s.args := List.mem_of_find?_eq_some harg
        exact h.find?_of_mem (fun _ hb => List.mem_reverse.mp hb) (List.mem_reverse.mpr ha)
  rw [Scope.var?, Scope.addArguments, Scope.vars_addAll, Keyed.find?_foldl_insert, hlast,
    Scope.var?]

end HasDistinctArgs

/-! ## Names of outputs -/

def outNames (s : Signature) : List String :=
  s.outArgs.map Argument.name

theorem outNames_addArgument
    (s : Signature) {a : Argument} (ha : a.isInput = false) :
    (s.addArgument a).outNames = s.outNames.filter (· != a.name) ++ [a.name] := by
  unfold outNames outArgs addArgument
  rw [List.filter_append, List.filter_filter, List.map_append, List.filter_map, List.filter_filter]
  congr 1
  · congr 1
    exact List.filter_congr fun _ _ => Bool.and_comm _ _
  · simp [ha]

theorem mem_outNames_addArguments
    {s : Signature} {extra : List Argument} (hextra : ∀ a ∈ extra, a.isInput = false)
    {name : String} :
    name ∈ (s.addArguments extra).outNames ↔
      name ∈ s.outNames ∨ name ∈ extra.map Argument.name := by
  induction extra generalizing s with
  | nil => exact (or_iff_left List.not_mem_nil).symm
  | cons a extra ih =>
      obtain ⟨ha, hextra⟩ := List.forall_mem_cons.mp hextra
      have hstep : s.addArguments (a :: extra) = (s.addArgument a).addArguments extra := rfl
      rw [hstep, ih hextra, outNames_addArgument s ha, List.map_cons, List.mem_cons,
        List.mem_append, List.mem_filter, List.mem_singleton, bne_iff_ne]
      by_cases hname : name = a.name
      · simp [hname]
      · simp [hname]

theorem mem_outNames_filterOutputs
    {s : Signature} {names : List String} {name : String} :
    name ∈ (s.filterOutputs names).outNames ↔ name ∈ names ∧ name ∈ s.outNames := by
  constructor
  · intro hmem
    obtain ⟨a, ha, rfl⟩ := List.mem_map.mp hmem
    rcases List.mem_append.mp (List.mem_of_mem_filter ha) with hinput | hkept
    · have hout := isInput_of_mem_outArgs ha
      rw [(List.mem_filter.mp hinput).2] at hout
      cases hout
    · obtain ⟨other, hother, hfind⟩ := List.mem_filterMap.mp hkept
      have hname := List.find?_some hfind
      obtain rfl : a.name = other := eq_of_beq hname
      exact ⟨hother, List.mem_map_of_mem (List.mem_of_find?_eq_some hfind)⟩
  · rintro ⟨hnames, hmem⟩
    obtain ⟨a, ha, hname⟩ := List.mem_map.mp hmem
    have hsome : (s.outArgs.find? fun a => a.name == name).isSome :=
      List.find?_isSome.mpr ⟨a, ha, beq_iff_eq.mpr hname⟩
    obtain ⟨b, hfind⟩ := Option.isSome_iff_exists.mp hsome
    have hfound := List.find?_some hfind
    obtain rfl : b.name = name := eq_of_beq hfound
    have hout := isInput_of_mem_outArgs (List.mem_of_find?_eq_some hfind)
    refine List.mem_map_of_mem (List.mem_filter.mpr ⟨?_, by rw [hout]; rfl⟩)
    exact List.mem_append_right _ (List.mem_filterMap.mpr ⟨b.name, hnames, hfind⟩)

end Signature

end SkillLang

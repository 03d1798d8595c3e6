import SkillLang.Typing.Rules

/-!
# Normal forms of devices

A checked device has no `id` and `all` attributes left: they have become its fields,
and of several attributes of one name the last one counts.  This file says so without
the recursion over the attributes, and shows that a normal form stays as it is when it
is checked again.
-/

namespace SkillLang

namespace Param

/-- The identifier that is chosen by an `id` attribute. -/
def chosenId? (p : Param) : Option String :=
  if p.name = "id" then
    match p.value with
    | .string id => some id
    | .entity e => e.value
    | _ => none
  else none

/-- The choice that is made by an `all` attribute. -/
def chosenAll? (p : Param) : Option Bool :=
  if p.name = "all" then
    match p.value with
    | .boolean all => some all
    | _ => none
  else none

/-- The attribute does not become a field. -/
def isKept (p : Param) : Bool :=
  p.name != "id" && p.name != "all"

/-- A `name` attribute whose value is a text or is not known yet. -/
def IsName (p : Param) : Prop :=
  p.name = "name" ∧
    ((∃ text, p.value = .string text) ∨ (∃ isLocal, p.value = .undefined isLocal) ∨
      ∃ name type, p.value = .var name type)

end Param

namespace Device

/-- The device with its `id` and `all` attributes folded into its fields, the last of each
counting.  The others, which are `name` attributes when the device has a normal form, remain in
their order. -/
def folded (d : Device) : Device :=
  { d with
    id := (d.attributes.filterMap Param.chosenId?).getLast?.or d.id
    attributes := d.attributes.filter Param.isKept
    all := (d.attributes.filterMap Param.chosenAll?).getLast?.getD d.all }

/-- Only `name` attributes are left. -/
def IsNormal (d : Device) : Prop :=
  ∀ p ∈ d.attributes, p.IsName

/-! ## One attribute -/

theorem foldAttribute_cases
    {d next : Device} {p : Param} (h : d.foldAttribute p = .ok next) :
    (p.name = "id" ∧ ∃ id, p.chosenId? = some id ∧ next = { d with id := some id }) ∨
      (p.name = "all" ∧ ∃ all, p.chosenAll? = some all ∧ next = { d with all }) ∨
      (p.IsName ∧ next = { d with attributes := d.attributes ++ [p] }) := by
  unfold foldAttribute at h
  split at h
  next hid =>
    left
    refine ⟨hid, ?_⟩
    split at h
    next id hvalue =>
      cases h
      exact ⟨id, by simp [Param.chosenId?, hid, hvalue], rfl⟩
    next id _ _ hvalue =>
      cases h
      exact ⟨id, by simp [Param.chosenId?, hid, hvalue], rfl⟩
    next =>
      cases h
  next =>
    right
    split at h
    next hall =>
      left
      refine ⟨hall, ?_⟩
      split at h
      next all hvalue =>
        cases h
        exact ⟨all, by simp [Param.chosenAll?, hall, hvalue], rfl⟩
      next =>
        cases h
    next =>
      right
      split at h
      next hname =>
        split at h
        next text hvalue =>
          cases h
          exact ⟨⟨hname, .inl ⟨text, hvalue⟩⟩, rfl⟩
        next isLocal hvalue =>
          cases h
          exact ⟨⟨hname, .inr (.inl ⟨isLocal, hvalue⟩)⟩, rfl⟩
        next name type hvalue =>
          cases h
          exact ⟨⟨hname, .inr (.inr ⟨name, type, hvalue⟩)⟩, rfl⟩
        next =>
          cases h
      next =>
        cases h

theorem foldAttribute_of_isName
    (d : Device) {p : Param} (hname : p.IsName) :
    d.foldAttribute p = .ok { d with attributes := d.attributes ++ [p] } := by
  obtain ⟨hname, ⟨text, hvalue⟩ | ⟨isLocal, hvalue⟩ | ⟨name, type, hvalue⟩⟩ := hname
  · simp [foldAttribute, hname, hvalue]
  · simp [foldAttribute, hname, hvalue]
  · simp [foldAttribute, hname, hvalue]

/-! ## All attributes -/

/-- Folding attributes into a device, said at once for all of them. -/
theorem foldAttributes_eq
    {attributes : List Param} {d result : Device}
    (h : attributes.foldlM foldAttribute d = .ok result) :
    result =
        { d with
          id := (attributes.filterMap Param.chosenId?).getLast?.or d.id
          attributes := d.attributes ++ attributes.filter Param.isKept
          all := (attributes.filterMap Param.chosenAll?).getLast?.getD d.all } ∧
      ∀ p ∈ attributes, p.name = "id" ∨ p.name = "all" ∨ p.IsName := by
  induction attributes generalizing d with
  | nil =>
      cases h
      cases result
      simp
  | cons p rest ih =>
      rw [List.foldlM_cons] at h
      cases hstep : d.foldAttribute p with
      | error e =>
          rw [hstep] at h
          cases h
      | ok next =>
          rw [hstep] at h
          obtain ⟨hresult, hrest⟩ := ih h
          rcases foldAttribute_cases hstep with
            ⟨hname, id, hid, rfl⟩ | ⟨hname, all, hall, rfl⟩ | ⟨hname, rfl⟩
          · have hother : p.chosenAll? = none := by simp [Param.chosenAll?, hname]
            have hdropped : p.isKept = false := by simp [Param.isKept, hname]
            refine ⟨?_, List.forall_mem_cons.mpr ⟨.inl hname, hrest⟩⟩
            rw [hresult]
            simp [hid, hother, hdropped, List.getLast?_cons]
          · have hother : p.chosenId? = none := by simp [Param.chosenId?, hname]
            have hdropped : p.isKept = false := by simp [Param.isKept, hname]
            refine ⟨?_, List.forall_mem_cons.mpr ⟨.inr (.inl hname), hrest⟩⟩
            rw [hresult]
            simp [hall, hother, hdropped, List.getLast?_cons]
          · have hnoId : p.chosenId? = none := by simp [Param.chosenId?, hname.1]
            have hnoAll : p.chosenAll? = none := by simp [Param.chosenAll?, hname.1]
            have hkept : p.isKept = true := by simp [Param.isKept, hname.1]
            refine ⟨?_, List.forall_mem_cons.mpr ⟨.inr (.inr hname), hrest⟩⟩
            rw [hresult]
            simp [hnoId, hnoAll, hkept]

theorem foldAttributes_of_isName
    {attributes : List Param} (hnames : ∀ p ∈ attributes, p.IsName) (d : Device) :
    attributes.foldlM foldAttribute d =
      .ok { d with attributes := d.attributes ++ attributes } := by
  induction attributes generalizing d with
  | nil =>
      cases d
      simp [pure, Except.pure]
  | cons p rest ih =>
      have hrest := (List.forall_mem_cons.mp hnames).2
      rw [List.foldlM_cons, foldAttribute_of_isName d (hnames p List.mem_cons_self)]
      simp only [bind, Except.bind]
      rw [ih hrest]
      simp

/-! ## Normal forms -/

theorem normalize_eq_folded
    {d normal : Device} (h : d.normalize = .ok normal) :
    normal = d.folded := by
  obtain ⟨hnormal, -⟩ := foldAttributes_eq h
  rw [hnormal]
  simp [folded]

theorem isNormal_of_normalize
    {d normal : Device} (h : d.normalize = .ok normal) :
    normal.IsNormal := by
  obtain ⟨hnormal, hallowed⟩ := foldAttributes_eq h
  intro p hp
  have hkept : p ∈ d.attributes ∧ p.name ≠ "id" ∧ p.name ≠ "all" := by
    rw [hnormal] at hp
    simpa [Param.isKept] using hp
  rcases hallowed p hkept.1 with hname | hname | hname
  · exact absurd hname hkept.2.1
  · exact absurd hname hkept.2.2
  · exact hname

/-- Without `id` and `all` attributes there is nothing to fold. -/
theorem folded_eq_self
    {d : Device} (hkept : ∀ p ∈ d.attributes, p.name ≠ "id" ∧ p.name ≠ "all") :
    d.folded = d := by
  have hid : d.attributes.filterMap Param.chosenId? = [] := by
    rw [List.filterMap_eq_nil_iff]
    intro p hp
    simp [Param.chosenId?, (hkept p hp).1]
  have hall : d.attributes.filterMap Param.chosenAll? = [] := by
    rw [List.filterMap_eq_nil_iff]
    intro p hp
    simp [Param.chosenAll?, (hkept p hp).2]
  have hattributes : d.attributes.filter Param.isKept = d.attributes := by
    rw [List.filter_eq_self]
    intro p hp
    simpa [Param.isKept] using hkept p hp
  unfold folded
  rw [hid, hall, hattributes]
  cases d
  rfl

theorem IsNormal.normalize_eq
    {d : Device} (hnormal : d.IsNormal) :
    d.normalize = .ok d := by
  unfold normalize
  rw [foldAttributes_of_isName hnormal]
  cases d
  simp

/-- A normal form is its own normal form. -/
theorem normalize_normalize
    {d normal : Device} (h : d.normalize = .ok normal) :
    normal.normalize = .ok normal :=
  (isNormal_of_normalize h).normalize_eq

end Device

end SkillLang

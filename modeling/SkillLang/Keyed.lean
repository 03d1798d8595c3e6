/-!
# Lists of named things in the order of their names

A map from names is kept as a list of pairs whose names increase.  Insertion keeps
the order and replaces what was there under the same name.
-/

namespace SkillLang

abbrev Keyed (α : Type u) := List (String × α)

namespace Keyed

variable {α : Type u} {β : Type v}

def insert (key : String) (value : α) : Keyed α → Keyed α
  | [] => [(key, value)]
  | (k, v) :: rest =>
    if key < k then (key, value) :: (k, v) :: rest
    else if key = k then (key, value) :: rest
    else (k, v) :: insert key value rest

def find? (key : String) : Keyed α → Option α
  | [] => none
  | (k, v) :: rest => if k = key then some v else find? key rest

/-- The pairs of a list in the order of their names; of two with one name the later counts. -/
def ofList (pairs : List (String × α)) : Keyed α :=
  pairs.foldl (fun entries pair => insert pair.1 pair.2 entries) []

def keys (entries : Keyed α) : List String :=
  entries.map Prod.fst

def values (entries : Keyed α) : List α :=
  entries.map Prod.snd

def mapValues (f : α → β) (entries : Keyed α) : Keyed β :=
  entries.map fun entry => (entry.1, f entry.2)

@[simp] theorem find?_nil (key : String) : find? key ([] : Keyed α) = none := rfl

theorem mem_of_find? {key : String} {value : α} {entries : Keyed α}
    (h : find? key entries = some value) : (key, value) ∈ entries := by
  induction entries with
  | nil => cases h
  | cons entry rest ih =>
    obtain ⟨k, v⟩ := entry
    rw [find?] at h
    by_cases heq : k = key
    · rw [if_pos heq] at h
      cases h
      rw [heq]
      exact List.mem_cons_self
    · rw [if_neg heq] at h
      exact List.mem_cons_of_mem _ (ih h)

theorem find?_insert_self (key : String) (value : α) (entries : Keyed α) :
    find? key (insert key value entries) = some value := by
  induction entries with
  | nil => simp [insert, find?]
  | cons entry rest ih =>
    obtain ⟨k, v⟩ := entry
    by_cases hlt : key < k
    · simp [insert, find?, hlt]
    · by_cases heq : key = k
      · simp [insert, find?, heq]
      · simp [insert, find?, hlt, heq, ih, Ne.symm heq]

theorem find?_insert_of_ne {key other : String} (hne : other ≠ key) (value : α)
    (entries : Keyed α) :
    find? other (insert key value entries) = find? other entries := by
  induction entries with
  | nil => simp [insert, find?, Ne.symm hne]
  | cons entry rest ih =>
    obtain ⟨k, v⟩ := entry
    by_cases hlt : key < k
    · simp [insert, find?, hlt, Ne.symm hne]
    · by_cases heq : key = k
      · subst heq
        simp [insert, find?, Ne.symm hne]
      · simp [insert, find?, hlt, heq, ih]

end Keyed

end SkillLang

import Mathlib.Data.String.Basic
import SkillLang.Keyed

/-!
# Insertion of many entries

When entries are inserted one after the other, what stands under a name in the end is
the last entry of that name, or what was there before if there is no such entry.  The
names are those from before and those of the entries.
-/

namespace SkillLang.Keyed

variable {α ι : Type}

theorem find?_foldl_insert
    (name : ι → String) (value : ι → α) (key : String)
    (items : List ι) (entries : Keyed α) :
    find? key (items.foldl (fun entries i => insert (name i) (value i) entries) entries) =
      ((items.reverse.find? fun i => name i == key).map value).or (find? key entries) := by
  induction items generalizing entries with
  | nil => rfl
  | cons i items ih =>
      rw [List.foldl_cons, ih, List.reverse_cons, List.find?_append, Option.map_or,
        Option.or_assoc]
      congr 1
      by_cases hname : name i = key
      · rw [hname, find?_insert_self]
        simp [hname]
      · rw [find?_insert_of_ne (Ne.symm hname)]
        simp [hname]

theorem find?_ofList
    (key : String) (pairs : List (String × α)) :
    find? key (ofList pairs) =
      (pairs.reverse.find? fun pair => pair.1 == key).map Prod.snd := by
  unfold ofList
  rw [find?_foldl_insert, find?_nil, Option.or_none]

theorem mem_keys_insert
    {key name : String} {value : α} {entries : Keyed α} :
    name ∈ (insert key value entries).keys ↔ name = key ∨ name ∈ entries.keys := by
  induction entries with
  | nil => simp [insert, keys]
  | cons entry rest ih =>
      obtain ⟨k, v⟩ := entry
      simp only [keys, List.map_cons, List.mem_cons] at ih ⊢
      by_cases hlt : key < k
      · simp [insert, hlt]
      · by_cases heq : key = k
        · subst heq
          simp [insert]
        · simp [insert, hlt, heq, ih, or_left_comm]

theorem mem_of_mem_insert
    {key : String} {value : α} {entry : String × α} {entries : Keyed α}
    (h : entry ∈ insert key value entries) :
    entry = (key, value) ∨ entry ∈ entries := by
  induction entries with
  | nil => exact .inl (List.mem_singleton.mp h)
  | cons first rest ih =>
      obtain ⟨k, v⟩ := first
      rw [insert] at h
      by_cases hlt : key < k
      · rw [if_pos hlt] at h
        exact List.mem_cons.mp h
      · rw [if_neg hlt] at h
        by_cases heq : key = k
        · rw [if_pos heq] at h
          exact (List.mem_cons.mp h).imp_right (List.mem_cons_of_mem _)
        · rw [if_neg heq] at h
          rcases List.mem_cons.mp h with rfl | hrest
          · exact .inr List.mem_cons_self
          · exact (ih hrest).imp_right (List.mem_cons_of_mem _)

theorem mem_keys_of_find?
    {key : String} {value : α} {entries : Keyed α} (h : find? key entries = some value) :
    key ∈ entries.keys := by
  have hmem := mem_of_find? h
  exact List.mem_map_of_mem hmem

theorem exists_find?_of_mem_keys
    {key : String} {entries : Keyed α} (h : key ∈ entries.keys) :
    ∃ value, find? key entries = some value := by
  induction entries with
  | nil => cases h
  | cons entry rest ih =>
      obtain ⟨k, v⟩ := entry
      rw [find?]
      by_cases heq : k = key
      · exact ⟨v, if_pos heq⟩
      · rw [if_neg heq]
        rw [keys, List.map_cons, List.mem_cons] at h
        exact ih (h.resolve_left (Ne.symm heq))

theorem nodup_keys_insert
    {key : String} {value : α} {entries : Keyed α} (hnew : key ∉ entries.keys)
    (h : entries.keys.Nodup) :
    (insert key value entries).keys.Nodup := by
  induction entries with
  | nil => simp [insert, keys]
  | cons entry rest ih =>
      obtain ⟨k, v⟩ := entry
      rw [keys, List.map_cons, List.mem_cons, not_or] at hnew
      rw [insert]
      by_cases hlt : key < k
      · rw [if_pos hlt]
        exact List.nodup_cons.mpr ⟨by simpa [keys] using hnew, h⟩
      · rw [if_neg hlt, if_neg hnew.1]
        obtain ⟨hk, hrest⟩ := List.nodup_cons.mp h
        refine List.nodup_cons.mpr ⟨?_, ih hnew.2 hrest⟩
        intro hmem
        rcases mem_keys_insert.mp hmem with rfl | hmem
        · exact hnew.1 rfl
        · exact hk hmem

/-- Insertion keeps the names in order. -/
theorem pairwise_keys_insert
    {entries : Keyed α} (h : entries.keys.Pairwise (· < ·)) (key : String) (value : α) :
    (insert key value entries).keys.Pairwise (· < ·) := by
  induction entries with
  | nil => simp [insert, keys]
  | cons entry rest ih =>
      obtain ⟨k, v⟩ := entry
      obtain ⟨hk, hrest⟩ := List.pairwise_cons.mp h
      rw [insert]
      by_cases hlt : key < k
      · rw [if_pos hlt]
        refine List.pairwise_cons.mpr ⟨?_, h⟩
        intro other hother
        rcases List.mem_cons.mp hother with rfl | hother
        · exact hlt
        · exact hlt.trans (hk other hother)
      · rw [if_neg hlt]
        by_cases heq : key = k
        · rw [if_pos heq]
          subst heq
          exact h
        · rw [if_neg heq]
          refine List.pairwise_cons.mpr ⟨?_, ih hrest⟩
          intro other hother
          rcases mem_keys_insert.mp hother with rfl | hother
          · exact lt_of_le_of_ne (not_lt.mp hlt) (Ne.symm heq)
          · exact hk other hother

theorem find?_of_mem
    {key : String} {value : α} {entries : Keyed α} (h : entries.keys.Nodup)
    (hmem : (key, value) ∈ entries) :
    find? key entries = some value := by
  induction entries with
  | nil => cases hmem
  | cons entry rest ih =>
      obtain ⟨k, v⟩ := entry
      obtain ⟨hk, hrest⟩ := List.nodup_cons.mp h
      rw [find?]
      rcases List.mem_cons.mp hmem with heq | hmem
      · cases heq
        rw [if_pos rfl]
      · have hne : k ≠ key := by
          rintro rfl
          exact hk (List.mem_map.mpr ⟨_, hmem, rfl⟩)
        rw [if_neg hne]
        exact ih hrest hmem

end SkillLang.Keyed

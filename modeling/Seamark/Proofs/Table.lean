import Mathlib
import Seamark.Table

/-!
# Looking a key up in a table

Setting and erasing a key changes the value of this key only, and keeps the keys distinct.  A table
with distinct keys is that of its entries.
-/

namespace Seamark.Table

variable {β : Type} {t : Table β} {key other : String} {value : β}

lemma get?_mk_nil (key : String) : (⟨[]⟩ : Table β).get? key = none := rfl

lemma get?_mk_cons (entry : String × β) (entries : List (String × β)) (key : String) :
    (⟨entry :: entries⟩ : Table β).get? key =
      if entry.1 = key then some entry.2 else (⟨entries⟩ : Table β).get? key := by
  unfold get?
  rw [List.find?_cons]
  by_cases h : entry.1 = key <;> simp [h]

lemma keys_mk_cons (entry : String × β) (entries : List (String × β)) :
    (⟨entry :: entries⟩ : Table β).keys = entry.1 :: (⟨entries⟩ : Table β).keys := rfl

lemma get?_set (t : Table β) (key other : String) (value : β) :
    (t.set key value).get? other = if other = key then some value else t.get? other := by
  obtain ⟨entries⟩ := t
  show (⟨setIn key value entries⟩ : Table β).get? other = _
  induction entries with
  | nil =>
    rw [setIn, get?_mk_cons, get?_mk_nil]
    by_cases h : other = key
    · simp [h]
    · simp [h, Ne.symm h]
  | cons entry entries ih =>
    rw [setIn]
    split
    case isTrue hkey =>
      rw [get?_mk_cons, get?_mk_cons, hkey]
      by_cases h : other = key
      · simp [h]
      · simp [h, Ne.symm h]
    case isFalse hkey =>
      rw [get?_mk_cons, get?_mk_cons, ih]
      by_cases h : entry.1 = other
      · have hne : other ≠ key := fun hc => hkey (h.trans hc)
        simp [h, hne]
      · simp [h]

lemma get?_erase (t : Table β) (key other : String) :
    (t.erase key).get? other = if other = key then none else t.get? other := by
  obtain ⟨entries⟩ := t
  show (⟨entries.filter fun entry => entry.1 ≠ key⟩ : Table β).get? other = _
  induction entries with
  | nil => simp [get?_mk_nil]
  | cons entry entries ih =>
    rw [List.filter_cons]
    by_cases hkey : entry.1 = key
    · rw [if_neg (by simp [hkey]), ih, get?_mk_cons]
      by_cases h : other = key
      · simp [h]
      · simp [h, hkey, Ne.symm h]
    · rw [if_pos (by simp [hkey]), get?_mk_cons, get?_mk_cons, ih]
      by_cases h : entry.1 = other
      · have hne : other ≠ key := fun hc => hkey (h.trans hc)
        simp [h, hne]
      · simp [h]

/-- The keys are those that have a value. -/
lemma mem_keys_iff (t : Table β) (key : String) :
    key ∈ t.keys ↔ ∃ value, t.get? key = some value := by
  obtain ⟨entries⟩ := t
  induction entries with
  | nil => simp [keys, get?_mk_nil]
  | cons entry entries ih =>
    rw [keys_mk_cons, List.mem_cons, ih, get?_mk_cons]
    by_cases h : entry.1 = key
    · simp [h]
    · simp [h, Ne.symm h]

/-- A value that a key has is that of an entry. -/
lemma mem_entries_of_get? (h : t.get? key = some value) : (key, value) ∈ t.entries := by
  obtain ⟨entries⟩ := t
  induction entries with
  | nil => simp [get?_mk_nil] at h
  | cons entry entries ih =>
    rw [get?_mk_cons] at h
    split at h
    case isTrue hkey =>
      rw [Option.some.injEq] at h
      exact List.mem_cons.mpr (.inl (by rw [← hkey, ← h]))
    case isFalse => exact List.mem_cons_of_mem _ (ih h)

/-- Setting the value of a key adds the key at the end, unless it is there. -/
lemma keys_set (t : Table β) (key : String) (value : β) :
    (t.set key value).keys = if key ∈ t.keys then t.keys else t.keys ++ [key] := by
  obtain ⟨entries⟩ := t
  show (⟨setIn key value entries⟩ : Table β).keys = _
  induction entries with
  | nil => rfl
  | cons entry entries ih =>
    rw [setIn]
    split
    case isTrue hkey => simp [keys_mk_cons, hkey]
    case isFalse hkey =>
      rw [keys_mk_cons, keys_mk_cons, ih]
      by_cases hmem : key ∈ (⟨entries⟩ : Table β).keys
      · simp [hmem]
      · simp [hmem, Ne.symm hkey]

lemma nodup_keys_set (h : t.keys.Nodup) (key : String) (value : β) :
    (t.set key value).keys.Nodup := by
  rw [keys_set]
  split
  case isTrue => exact h
  case isFalse hkey =>
    rw [List.nodup_append]
    exact ⟨h, List.nodup_singleton key, fun a ha b hb => by
      rw [List.mem_singleton.mp hb]
      exact fun hab => hkey (hab ▸ ha)⟩

/-- A key that is not there goes to the end with its value. -/
lemma set_of_not_mem (h : key ∉ t.keys) (value : β) :
    t.set key value = ⟨t.entries ++ [(key, value)]⟩ := by
  obtain ⟨entries⟩ := t
  show (⟨setIn key value entries⟩ : Table β) = _
  congr 1
  induction entries with
  | nil => rfl
  | cons entry entries ih =>
    rw [keys_mk_cons, List.mem_cons, not_or] at h
    rw [setIn, if_neg (Ne.symm h.1), ih h.2]
    rfl

/-- Entries whose keys are all distinct and new go to the end in their order. -/
lemma update_of_nodup {other : Table β} (h : (t.keys ++ other.keys).Nodup) :
    t.update other = ⟨t.entries ++ other.entries⟩ := by
  obtain ⟨entries⟩ := other
  rw [update]
  induction entries generalizing t with
  | nil => simp
  | cons entry entries ih =>
    rw [keys_mk_cons] at h
    have hnew : entry.1 ∉ t.keys := fun hmem =>
      (List.nodup_append.mp h).2.2 _ hmem _ List.mem_cons_self rfl
    have hset : (t.set entry.1 entry.2).keys = t.keys ++ [entry.1] := by
      rw [keys_set, if_neg hnew]
    have hrest : ((t.set entry.1 entry.2).keys ++ (⟨entries⟩ : Table β).keys).Nodup := by
      rw [hset, List.append_assoc]
      exact h
    rw [List.foldl_cons, ih hrest, set_of_not_mem hnew]
    simp

/-- A table with distinct keys is the one of its entries. -/
lemma ofList_entries (h : t.keys.Nodup) : ofList t.entries = t := by
  have hnodup : ((⟨[]⟩ : Table β).keys ++ (⟨t.entries⟩ : Table β).keys).Nodup := h
  exact update_of_nodup hnodup

lemma nodup_keys_erase (h : t.keys.Nodup) (key : String) : (t.erase key).keys.Nodup :=
  h.sublist (List.filter_sublist.map _)

end Seamark.Table

import Mathlib

/-!
# Lists between separators

What lists that are joined by a separator consist of, and what becomes of them under a map.
-/

namespace List

variable {α β : Type}

lemma mem_intersperse {x sep : α} {xs : List α} (h : x ∈ xs.intersperse sep) :
    x = sep ∨ x ∈ xs := by
  induction xs with
  | nil => simp at h
  | cons y ys ih =>
    cases ys with
    | nil => exact Or.inr h
    | cons z zs =>
      rw [intersperse_cons_cons, mem_cons, mem_cons] at h
      rcases h with rfl | rfl | h
      · exact Or.inr mem_cons_self
      · exact Or.inl rfl
      · exact (ih h).imp_right (mem_cons_of_mem y)

lemma mem_intercalate {x : α} {sep : List α} {xs : List (List α)} (h : x ∈ sep.intercalate xs) :
    x ∈ sep ∨ ∃ ys ∈ xs, x ∈ ys := by
  obtain ⟨ys, hys, hx⟩ := mem_flatten.mp h
  rcases mem_intersperse hys with rfl | hmem
  · exact Or.inl hx
  · exact Or.inr ⟨ys, hmem, hx⟩

lemma map_intersperse (f : α → β) (sep : α) (xs : List α) :
    (xs.intersperse sep).map f = (xs.map f).intersperse (f sep) := by
  induction xs with
  | nil => rfl
  | cons y ys ih =>
    cases ys with
    | nil => rfl
    | cons z zs =>
      rw [intersperse_cons_cons, map_cons, map_cons, ih]
      rfl

lemma map_intercalate (f : α → β) (sep : List α) (xs : List (List α)) :
    (sep.intercalate xs).map f = (sep.map f).intercalate (xs.map (map f)) := by
  rw [intercalate, intercalate, map_flatten, map_intersperse]

/-- A list is found again between the separators. -/
lemma infix_intercalate {piece : List α} {pieces : List (List α)} (h : piece ∈ pieces)
    (sep : List α) : piece <:+: sep.intercalate pieces := by
  induction pieces with
  | nil => cases h
  | cons first pieces ih =>
    cases pieces with
    | nil => rw [mem_singleton.mp h, intercalate_singleton]
    | cons next pieces =>
      rw [intercalate_cons_cons]
      rcases mem_cons.mp h with rfl | hp
      · rw [append_assoc]
        exact (prefix_append piece _).isInfix
      · exact (ih hp).trans (suffix_append _ _).isInfix

/-- A list without what it ends with, and that. -/
lemma append_takeWhile_reverse (p : α → Bool) (l : List α) :
    (l.reverse.dropWhile p).reverse ++ (l.reverse.takeWhile p).reverse = l := by
  rw [← reverse_append, takeWhile_append_dropWhile, reverse_reverse]

end List

import Seamark.Proofs.List
import Seamark.Text.Blank

/-!
# Cutting a text and joining it again

Cutting a text at a separator and joining pieces by it are inverse to each other, as long as there
is a piece and no piece holds the separator; words and spaces are a case of it.  What is trimmed
off a text are blanks, and a text without blanks is found again between any blanks
(`trim_between`).  A text is settled already if it is made of words without blanks with single
spaces between them.
-/

namespace Seamark.Text

variable {sep : Char} {p cs : List Char}

/-! ### Pieces between separators -/

/-- Texts are cut as lists of anything are. -/
lemma splitAt_eq_splitOn (sep : Char) (cs : List Char) : splitAt sep cs = cs.splitOn sep := by
  induction cs with
  | nil => rfl
  | cons c cs ih =>
    rw [splitAt, List.splitOn_cons_eq_if_modifyHead, ← ih]
    by_cases hc : c = sep
    · rw [if_pos hc, if_pos (beq_iff_eq.mpr hc)]
    · rw [if_neg hc, if_neg (by simpa using hc)]
      cases hcs : splitAt sep cs with
      | nil => exact absurd (hcs ▸ ih) (List.splitOn_ne_nil sep cs).symm
      | cons piece pieces => rfl

lemma splitAt_ne_nil (sep : Char) (cs : List Char) : splitAt sep cs ≠ [] := by
  rw [splitAt_eq_splitOn]
  exact List.splitOn_ne_nil sep cs

/-- A text without the separator is one piece. -/
lemma splitAt_of_not_mem (h : sep ∉ p) : splitAt sep p = [p] := by
  rw [splitAt_eq_splitOn, List.splitOn_eq_singleton h]

/-- Two texts with a separator between them are cut apart there. -/
lemma splitAt_append_cons (ps cs : List Char) :
    splitAt sep (ps ++ sep :: cs) = splitAt sep ps ++ splitAt sep cs := by
  simp only [splitAt_eq_splitOn, List.splitOn_append_cons_self]

/-- What stands before the first separator is the first piece. -/
lemma splitAt_append (h : sep ∉ p) (cs : List Char) :
    splitAt sep (p ++ sep :: cs) = p :: splitAt sep cs := by
  rw [splitAt_append_cons, splitAt_of_not_mem h, List.singleton_append]

/-- The pieces of a text, joined by the separator, are the text. -/
lemma intercalate_splitAt (sep : Char) (cs : List Char) :
    [sep].intercalate (splitAt sep cs) = cs := by
  rw [splitAt_eq_splitOn, List.intercalate_splitOn]

/-- Pieces that are joined by a separator, which none of them holds, are cut apart at it again. -/
lemma splitAt_intercalate {pieces : List (List Char)} (hne : pieces ≠ [])
    (h : ∀ piece ∈ pieces, sep ∉ piece) : splitAt sep ([sep].intercalate pieces) = pieces := by
  rw [splitAt_eq_splitOn, List.splitOn_intercalate sep h hne]

/-- No piece holds the separator. -/
lemma not_mem_of_mem_splitAt (h : p ∈ splitAt sep cs) : sep ∉ p := by
  induction cs generalizing p with
  | nil =>
    rw [List.mem_singleton.mp h]
    exact List.not_mem_nil
  | cons c cs ih =>
    rw [splitAt] at h
    split_ifs at h with hc
    · rcases List.mem_cons.mp h with rfl | hp
      · exact List.not_mem_nil
      · exact ih hp
    · obtain ⟨piece, pieces, hcs⟩ := List.exists_cons_of_ne_nil (splitAt_ne_nil sep cs)
      rw [hcs] at h ih
      rcases List.mem_cons.mp h with rfl | hp
      · exact List.not_mem_cons_of_ne_of_not_mem (Ne.symm hc) (ih List.mem_cons_self)
      · exact ih (List.mem_cons_of_mem _ hp)

lemma infix_of_mem_splitAt (h : p ∈ splitAt sep cs) : p <:+: cs := by
  rw [← intercalate_splitAt sep cs]
  exact List.infix_intercalate h [sep]

/-! ### Words and spaces -/

lemma unwords_cons {w : List Char} {ws : List (List Char)} (h : ws ≠ []) :
    unwords (w :: ws) = w ++ ' ' :: unwords ws := by
  cases ws with
  | nil => exact absurd rfl h
  | cons v vs => rfl

lemma unwords_eq_intercalate (ws : List (List Char)) : unwords ws = [' '].intercalate ws := by
  induction ws with
  | nil => rfl
  | cons w ws ih =>
    cases ws with
    | nil => rw [unwords, List.intercalate_singleton]
    | cons v vs =>
      rw [unwords_cons (List.cons_ne_nil v vs), ih, List.intercalate_cons_cons, List.append_assoc,
        List.singleton_append]

/-- The pieces between the spaces of a text, joined by spaces, are the text. -/
lemma unwords_splitAt (cs : List Char) : unwords (splitAt ' ' cs) = cs := by
  rw [unwords_eq_intercalate, intercalate_splitAt]

/-- Words without spaces are the pieces between the spaces when they are joined by spaces. -/
lemma splitAt_unwords {ws : List (List Char)} (hne : ws ≠ []) (h : ∀ w ∈ ws, ' ' ∉ w) :
    splitAt ' ' (unwords ws) = ws := by
  rw [unwords_eq_intercalate, splitAt_intercalate hne h]

/-! ### Trimming -/

/-- Nothing of a text without blanks is dropped. -/
lemma dropWhile_isBlank_of_forall (h : ∀ c ∈ cs, isBlank c = false) :
    cs.dropWhile isBlank = cs := by
  cases cs with
  | nil => rfl
  | cons c cs => rw [List.dropWhile_cons_of_neg (by simp [h c])]

/-- A text without blanks is what is left when the blanks around it are trimmed. -/
lemma trim_between {before behind : List Char} (hbefore : ∀ c ∈ before, isBlank c = true)
    (hbehind : ∀ c ∈ behind, isBlank c = true) (h : ∀ c ∈ cs, isBlank c = false) :
    trim (before ++ cs ++ behind) = cs := by
  cases cs with
  | nil =>
    have hall : ∀ c ∈ before ++ behind, isBlank c = true := fun c hc =>
      (List.mem_append.mp hc).elim (hbefore c) (hbehind c)
    rw [List.append_nil, trim, trimLeft, List.dropWhile_eq_nil_iff.mpr hall]
    rfl
  | cons c rest =>
    have hleft : trimLeft (before ++ (c :: rest) ++ behind) = (c :: rest) ++ behind := by
      rw [trimLeft, List.append_assoc, List.dropWhile_append_of_pos hbefore, List.cons_append,
        List.dropWhile_cons_of_neg (by simp [h c])]
    rw [trim, hleft, List.reverse_append,
      List.dropWhile_append_of_pos fun d hd => hbehind d (List.mem_reverse.mp hd),
      dropWhile_isBlank_of_forall fun d hd => h d (List.mem_reverse.mp hd), List.reverse_reverse]

/-- A text of no blanks is trimmed already. -/
lemma trim_of_forall (h : ∀ c ∈ cs, isBlank c = false) : trim cs = cs := by
  simpa using trim_between (List.forall_mem_nil _) (List.forall_mem_nil _) h

/-- What is trimmed off are blanks. -/
lemma exists_eq_trim (cs : List Char) : ∃ before behind, (∀ c ∈ before, isBlank c = true) ∧
    (∀ c ∈ behind, isBlank c = true) ∧ cs = before ++ trim cs ++ behind := by
  refine ⟨cs.takeWhile isBlank, ((trimLeft cs).reverse.takeWhile isBlank).reverse,
    fun c hc => List.mem_takeWhile_imp hc,
    fun c hc => List.mem_takeWhile_imp (List.mem_reverse.mp hc), ?_⟩
  rw [trim, List.append_assoc, List.append_takeWhile_reverse, trimLeft,
    List.takeWhile_append_dropWhile]

lemma infix_trim (cs : List Char) : trim cs <:+: cs := by
  obtain ⟨before, behind, -, -, heq⟩ := exists_eq_trim cs
  exact ⟨before, behind, heq.symm⟩

/-! ### Texts without blanks -/

/-- A word without blanks is read as it is. -/
lemma headWords_append {w : List Char} (h : ∀ c ∈ w, isBlank c = false) (cs : List Char) :
    headWords (w ++ cs) = (w ++ (headWords cs).1, (headWords cs).2) := by
  induction w with
  | nil => rfl
  | cons c w ih =>
    have hc : isBlank c = false := h c (by simp)
    rw [List.cons_append, headWords, ih fun d hd => h d (by simp [hd]), wordsStep, hc]
    rfl

/-- What stands before the first space is the first word. -/
lemma words_append_space {w : List Char} (hne : w ≠ []) (h : ∀ c ∈ w, isBlank c = false)
    (cs : List Char) : words (w ++ ' ' :: cs) = w :: words cs := by
  have hspace : headWords (' ' :: cs) = ([], words cs) := rfl
  rw [words, headWords_append h, hspace, List.append_nil]
  simp [hne]

/-- Words without blanks are the words of the text in which they are joined by spaces. -/
lemma words_unwords {ws : List (List Char)}
    (h : ∀ w ∈ ws, w ≠ [] ∧ ∀ c ∈ w, isBlank c = false) : words (unwords ws) = ws := by
  induction ws with
  | nil => rfl
  | cons w ws ih =>
    obtain ⟨hne, hw⟩ := h w (by simp)
    have hrest := ih fun v hv => h v (by simp [hv])
    cases ws with
    | nil =>
      have hword := headWords_append hw []
      rw [List.append_nil] at hword
      rw [unwords, words, hword]
      simp [headWords, hne]
    | cons v vs => rw [unwords_cons (by simp), words_append_space hne hw, hrest]

/-- Words without blanks that are joined by spaces are a settled text. -/
lemma settle_unwords {ws : List (List Char)}
    (h : ∀ w ∈ ws, w ≠ [] ∧ ∀ c ∈ w, isBlank c = false) : settle (unwords ws) = unwords ws := by
  rw [settle, words_unwords h]

end Seamark.Text

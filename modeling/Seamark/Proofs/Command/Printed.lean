import Mathlib
import Seamark.Command.Outcome

/-!
# The text of an outcome

The text that a command prints is that of its chunks in order, and lines are printed each with a
line end behind it.
-/

namespace Seamark.Command.Outcome

variable {α : Type}

@[simp] lemma text_mk (printed : List (Chunk α)) (ending : Ending) :
    (⟨printed, ending⟩ : Outcome α).text = String.join (printed.map (·.text)) := rfl

variable [Scalar α]

@[simp] lemma map_text_chunksOf (lines : List String) :
    (chunksOf lines : List (Chunk α)).map (·.text) = lines.map (· ++ "\n") := by
  simp [chunksOf]

lemma chunksOf_append (lines lines' : List String) :
    (chunksOf (lines ++ lines') : List (Chunk α)) = chunksOf lines ++ chunksOf lines' :=
  List.map_append

lemma text_ofLines (lines : List String) (code : Nat) :
    (ofLines lines code : Outcome α).text = String.join (lines.map (· ++ "\n")) := by
  simp [ofLines]

@[simp] lemma ending_ofLines (lines : List String) (code : Nat) :
    (ofLines lines code : Outcome α).ending = .status code := rfl

/-- A reported trouble is one more line. -/
lemma printed_troubled (printed : List (Chunk α)) (trouble : Trouble) :
    (troubled printed trouble).printed = printed ++
      if trouble.isReported then [⟨0.0, "Error: " ++ trouble.message ++ "\n"⟩] else [] := by
  unfold troubled
  split_ifs
  · rfl
  · exact (List.append_nil _).symm

lemma ending_troubled (printed : List (Chunk α)) (trouble : Trouble) :
    (troubled printed trouble).ending =
      if trouble.isReported then .status 1 else .unreported trouble := by
  unfold troubled
  split_ifs <;> rfl

lemma text_troubled (printed : List (Chunk α)) {trouble : Trouble} (h : trouble.isReported = true) :
    (troubled printed trouble).text =
      String.join (printed.map (·.text)) ++ ("Error: " ++ trouble.message ++ "\n") := by
  simp [text, printed_troubled, h]

end Seamark.Command.Outcome

import Mathlib
import Seamark.Document.Printer
import Seamark.Document.Reader
import Seamark.Proofs.Decimal.Spelling

/-!
# Reading a document that was written

What the readers of written catalogues and configurations share: the value of a key in a list of
entries that is written out, and the two ends of a text, the spelling of a double and the draft that
the text is read into, each told by a few numbers that can be computed.
-/

namespace Seamark

namespace Value

lemma field?_cons (k : String) (v : Value) (entries : List (Value × Value)) (key : String) :
    field? ((.text k, v) :: entries) key = if k = key then some v else field? entries key := by
  unfold field?
  rw [List.find?_cons]
  by_cases h : k = key <;> simp [isText, h]

lemma isNothing_text {s : String} (hs : s ≠ "") : (Value.text s).isNothing = false :=
  decide_eq_false hs

end Value

namespace Document

/-- The spelling of a double between a ten-thousandth and ten to the sixteen, from its sign, its
shape and its shortest decimal. -/
lemma write_of_shape {x : Float} {negative : Bool} {b : Binary} {d : Decimal}
    (hx : doubleShape x = .finite negative b) (hb : b.mantissa ≠ 0) (hd : b.shortest = d)
    (hstrip : d.strip = d) (hplaces : -4 < d.places ∧ d.places ≤ 16) :
    floatSpelling.write x = (if negative then "-" else "") ++ d.positional := by
  rw [write_eq_of_shape _ hx hb (by rw [hd, hstrip]), if_pos hplaces]

/-- A draft is told by its root and the list of its parts. -/
lemma eq_of_parts_eq {result : Except ReadError Draft} {d : Draft}
    (h : result.toOption.map (fun d => (d.root, d.parts.toList)) = some (d.root, d.parts.toList)) :
    result = .ok d := by
  cases result with
  | error cause => cases h
  | ok d' =>
    obtain ⟨root, parts⟩ := d
    obtain ⟨root', parts'⟩ := d'
    injection h with h
    injection h with hroot hparts
    cases hroot
    obtain rfl : parts' = parts := Array.toList_inj.mp hparts
    rfl

/-- A text whose draft has nothing left to settle is read as the value of this draft. -/
lemma read_of_draftOf {text : String} {d : Draft} (hdraft : draftOf text = .ok d)
    (hsettled : d.settled = .ok d) : read text = .ok d.value := by
  rw [read, hdraft]
  show (d.settled >>= fun d => Except.ok d.value) = .ok d.value
  rw [hsettled]
  rfl

end Document

end Seamark

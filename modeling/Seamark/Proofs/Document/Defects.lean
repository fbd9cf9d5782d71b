import Mathlib
import Seamark.Catalog.Range
import Seamark.Document.Value

/-!
# What is wrong with a value

A value may be asked for as a number, as a text, or as a range.  Here the things that are wrong with
it are told apart from the conversion that is tried: an integer is written with all its digits
wherever it stands inside a list or a map, so a value has one defect as a text for every integer in
it that has too many (`textDefects`).  A conversion comes upon the first defect and fails for it,
and succeeds if there is none (`FailsFirst`).  Conversions that are done one after the other have
the defects of all of them in turn (`FailsFirst.bind`), and so have the readers that are made of
them.
-/

namespace Seamark

/-- What is done in order and fails for the first of some defects, or succeeds if there is none. -/
inductive FailsFirst {ε β : Type} : Except ε β → List ε → Prop where
  /-- Without a defect, there is a result. -/
  | ok (b : β) : FailsFirst (.ok b) []
  /-- The first defect is the cause of failure, whatever comes after it. -/
  | error (e : ε) (more : List ε) : FailsFirst (.error e) (e :: more)

/-- The defects of something of which only the result is known. -/
def defectOf {ε β : Type} : Except ε β → List ε
  | .ok _ => []
  | .error e => [e]

namespace FailsFirst

variable {ε β γ : Type} {x : Except ε β} {f : β → Except ε γ} {defects more : List ε}

/-- What is done after another thing fails for its own defects if the other one has none. -/
lemma bind (hx : FailsFirst x defects) (hf : ∀ b, x = .ok b → FailsFirst (f b) more) :
    FailsFirst (x >>= f) (defects ++ more) := by
  cases hx with
  | ok b => exact hf b rfl
  | error e rest => exact .error e (rest ++ more)

/-- A last step that cannot fail adds no defect. -/
lemma bind_ok {g : β → γ} (hx : FailsFirst x defects) :
    FailsFirst (x >>= fun b => .ok (g b)) defects := by
  simpa using hx.bind (f := fun b => .ok (g b)) fun b _ => .ok (g b)

lemma map (hx : FailsFirst x defects) (g : β → γ) : FailsFirst (x.map g) defects := by
  cases hx with
  | ok b => exact .ok (g b)
  | error e rest => exact .error e rest

/-- There is a result and no defect, or the first defect is the cause of failure. -/
lemma ok_or_error (hx : FailsFirst x defects) :
    (∃ b, x = .ok b ∧ defects = []) ∨ ∃ e rest, x = .error e ∧ defects = e :: rest := by
  cases hx with
  | ok b => exact .inl ⟨b, rfl, rfl⟩
  | error e rest => exact .inr ⟨e, rest, rfl, rfl⟩

/-- A cause of failure that is made a part of another one makes every defect a part of another. -/
lemma mapError {δ : Type} (hx : FailsFirst x defects) (g : ε → δ) :
    FailsFirst (x.mapError g) (defects.map g) := by
  cases hx with
  | ok b => exact .ok b
  | error e rest => exact .error (g e) (rest.map g)

end FailsFirst

namespace Value

/-! ### Values as texts -/

mutual

/-- The integers that are written for a value, in order.  A list or a map that is met again within
itself is not written again. -/
def integersWithin (around : List Nat) : Value → List Int
  | int n => [n]
  | list items => itemIntegersWithin around items
  | map entries => entryIntegersWithin around entries
  | loop number v => if around.contains number then [] else integersWithin (number :: around) v
  | _ => []

/-- The integers that are written for the items of a list. -/
def itemIntegersWithin (around : List Nat) : List Value → List Int
  | [] => []
  | v :: vs => integersWithin around v ++ itemIntegersWithin around vs

/-- The integers that are written for the entries of a map. -/
def entryIntegersWithin (around : List Nat) : List (Value × Value) → List Int
  | [] => []
  | (k, v) :: rest =>
    integersWithin around k ++ (integersWithin around v ++ entryIntegersWithin around rest)

end

/-- What is wrong with some integers that are to be written: those with too many digits. -/
def digitDefects (integers : List Int) : List ConversionError :=
  integers.flatMap fun n => if tenTo maxDigits ≤ n.natAbs then [.tooManyDigits] else []

/-- What is wrong with a value that is asked for as a text. -/
def textDefects (v : Value) : List ConversionError :=
  digitDefects (v.integersWithin [])

lemma digitDefects_append (first others : List Int) :
    digitDefects (first ++ others) = digitDefects first ++ digitDefects others :=
  List.flatMap_append

lemma failsFirst_intText (n : Int) : FailsFirst (intText n) (digitDefects [n]) := by
  rw [intText, digitDefects, List.flatMap_singleton]
  split_ifs
  · exact .error _ []
  · exact .ok _

mutual

/-- Writing a value fails for the first integer in it that has too many digits. -/
lemma failsFirst_literalWithin (around : List Nat) (v : Value) :
    FailsFirst (v.literalWithin around) (digitDefects (v.integersWithin around)) := by
  cases v with
  | int n => exact failsFirst_intText n
  | list items => exact (failsFirst_literalsWithin around items).bind_ok
  | map entries => exact (failsFirst_entryLiteralsWithin around entries).bind_ok
  | loop number v =>
    rw [literalWithin, integersWithin]
    split_ifs
    · exact .ok _
    · exact failsFirst_literalWithin (number :: around) v
  | _ => exact .ok _

lemma failsFirst_literalsWithin (around : List Nat) (items : List Value) :
    FailsFirst (literalsWithin around items) (digitDefects (itemIntegersWithin around items)) := by
  cases items with
  | nil => exact .ok _
  | cons v vs =>
    rw [itemIntegersWithin, digitDefects_append]
    exact (failsFirst_literalWithin around v).bind fun _ _ =>
      (failsFirst_literalsWithin around vs).bind_ok

lemma failsFirst_entryLiteralsWithin (around : List Nat) (entries : List (Value × Value)) :
    FailsFirst (entryLiteralsWithin around entries)
      (digitDefects (entryIntegersWithin around entries)) := by
  cases entries with
  | nil => exact .ok _
  | cons entry rest =>
    obtain ⟨k, v⟩ := entry
    rw [entryIntegersWithin, digitDefects_append, digitDefects_append]
    exact (failsFirst_literalWithin around k).bind fun _ _ =>
      (failsFirst_literalWithin around v).bind fun _ _ =>
        (failsFirst_entryLiteralsWithin around rest).bind_ok

end

/-- A value is taken as a text unless an integer in it has too many digits. -/
lemma failsFirst_toText (v : Value) : FailsFirst v.toText v.textDefects := by
  cases v with
  | text s => exact .ok s
  | moment m => exact .ok m.text
  | _ => exact failsFirst_literalWithin [] _

/-! ### Values as numbers -/

/-- What is wrong with a value that is asked for as a number: it is of another kind, a text that
denotes none, or an integer beyond every double. -/
def numberDefects : Value → List ConversionError
  | bool _ | float _ => []
  | int n => if (floatOfInt? n).isSome then [] else [.numberTooLarge]
  | text s => if (Decimal.readFloat? s).isSome then [] else [.badNumber s]
  | _ => [.notNumeric]

lemma failsFirst_toFloat (v : Value) : FailsFirst v.toFloat v.numberDefects := by
  cases v with
  | bool b => exact .ok _
  | float x => exact .ok x
  | int n =>
    rw [toFloat, numberDefects]
    cases floatOfInt? n with
    | none => exact .error _ []
    | some x => exact .ok x
  | text s =>
    rw [toFloat, numberDefects]
    cases Decimal.readFloat? s with
    | none => exact .error _ []
    | some x => exact .ok x
  | _ => exact .error _ []

/-- What is wrong with a value that is asked for as a range: a text always gives one or none. -/
def rangeDefects : Value → List ConversionError
  | null | bool _ | text _ => []
  | v => v.numberDefects

lemma failsFirst_rangeMeters (v : Value) :
    FailsFirst (Catalog.rangeMeters v) v.rangeDefects := by
  cases v with
  | null => exact .ok _
  | bool b => exact .ok _
  | text s => exact .ok _
  | _ => exact (failsFirst_toFloat _).bind_ok

end Value

end Seamark

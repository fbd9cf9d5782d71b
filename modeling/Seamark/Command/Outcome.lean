import Seamark.Command.Trouble

/-!
# Outcome of a command

A command prints texts at certain times and ends in one of three ways: with a status, with a refusal
of its arguments, or with a trouble that it does not report.
-/

namespace Seamark.Command

/-- A text with the time on the clock when it is printed. -/
structure Chunk (α : Type) where
  /-- The time. -/
  time : α
  /-- The text, with its line end if it has one. -/
  text : String

/-- How a command ends. -/
inductive Ending where
  /-- With a status: zero if all went well. -/
  | status (code : Nat)
  /-- With a refusal of the arguments, and a status. -/
  | usage (code : Nat)
  /-- With a trouble that is not reported. -/
  | unreported (trouble : Trouble)
deriving DecidableEq, Repr

/-- What a command prints and how it ends. -/
structure Outcome (α : Type) where
  /-- What it prints, in order. -/
  printed : List (Chunk α)
  /-- How it ends. -/
  ending : Ending

namespace Outcome

variable {α : Type}

/-- All that is printed. -/
def text (o : Outcome α) : String :=
  String.join (o.printed.map (·.text))

variable [Scalar α]

/-- Lines as texts that are printed at once. -/
def chunksOf (lines : List String) : List (Chunk α) :=
  lines.map fun line => ⟨0.0, line ++ "\n"⟩

/-- Prints lines and ends with a status. -/
def ofLines (lines : List String) (code : Nat) : Outcome α :=
  ⟨chunksOf lines, .status code⟩

/-- The ending of a command that has a trouble, after what it printed. A reported trouble is a line of
its own and the status one. -/
def troubled (printed : List (Chunk α)) (trouble : Trouble) : Outcome α :=
  if trouble.isReported then
    ⟨printed ++ chunksOf ["Error: " ++ trouble.message], .status 1⟩
  else ⟨printed, .unreported trouble⟩

end Outcome

end Seamark.Command

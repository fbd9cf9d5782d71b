import Seamark.Text.Letter

/-!
# Padding

Columns of a printed table: texts filled up with spaces to a width. A longer text is left as it is.
-/

namespace Seamark.Text

/-- A text padded on the left with spaces to a number of columns. -/
def padLeft (columns : Nat) (s : String) : String :=
  "".pushn ' ' (columns - width s) ++ s

/-- A text padded on the right with spaces to a number of columns. -/
def padRight (columns : Nat) (s : String) : String :=
  s.pushn ' ' (columns - width s)

end Seamark.Text

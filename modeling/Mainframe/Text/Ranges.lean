/-
  Classes of characters given as ranges of code points.

  A table lists the first and the last code point of each range, in ascending
  order and with gaps in between. `inRanges` is the class that a table stands
  for.
-/

namespace Mainframe.Text

/-- Whether the code point lies in one of the ranges. -/
def inRanges (table : List (Nat × Nat)) (n : Nat) : Bool :=
  table.any (fun r => decide (r.1 ≤ n) && decide (n ≤ r.2))

end Mainframe.Text

/-! # Edit distance

The least number of insertions, deletions and replacements of single characters
that turn one text into another.  It is computed a row at a time: the row of a
text holds its distances from all beginnings of the other one.
-/

namespace ScriptJar.Text

/-- The entries of a row after its first, for one more character `c`: `left` is the
    entry before, and the old row gives those above. -/
def fillRow (c : Char) : Nat → List Char → List Nat → List Nat
  | left, d :: ds, diagonal :: above :: row =>
    let replaced := if c = d then diagonal else diagonal + 1
    let entry := min replaced (min (above + 1) (left + 1))
    entry :: fillRow c entry ds (above :: row)
  | _, _, _ => []

def nextRow (other : List Char) (row : List Nat) (c : Char) : List Nat :=
  match row with
  | [] => []
  | first :: _ => (first + 1) :: fillRow c (first + 1) other row

def editDistance (s other : List Char) : Nat :=
  ((s.foldl (nextRow other) (List.range (other.length + 1))).getLast?).getD 0

end ScriptJar.Text

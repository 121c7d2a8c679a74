import ScriptJar.Text.Blank
import ScriptJar.Text.EditDistance
import ScriptJar.Text.LowerCase

/-! # Suggestions

What someone may have meant by a name that was not found: at most three of the
names that exist, the closest first.  Case does not count in the distance.  The
answer depends only on which names exist, not on the order they are given in.

How far two texts are apart is left to a measure; `suggest` counts edits.
-/

namespace ScriptJar.Suggestion

/-- The largest distance at which a name still counts as close; longer names may
    differ more.  Lengths are counted in UTF-8 bytes. -/
def limit (needle : String) : Nat :=
  let size := needle.utf8ByteSize
  if size ≤ 3 then 1 else if size ≤ 6 then 2 else if size ≤ 10 then 3 else 4

abbrev Measure := List Char → List Char → Nat

/-- The distance of two names, without regard to case. -/
def distance (measure : Measure) (needle name : String) : Nat :=
  measure (Text.lower needle.toList) (Text.lower name.toList)

structure Scored where
  distance : Nat
  name : String
  deriving DecidableEq, Repr

/-- The closer name comes first, then the shorter, then the smaller. -/
def Scored.le (a b : Scored) : Bool :=
  if a.distance ≠ b.distance then decide (a.distance < b.distance)
  else if a.name.utf8ByteSize ≠ b.name.utf8ByteSize then
    decide (a.name.utf8ByteSize < b.name.utf8ByteSize)
  else decide (a.name ≤ b.name)

/-- The names that are close to the needle, but neither empty nor the needle. -/
def close (measure : Measure) (needle : String) (names : List String) : List Scored :=
  ((names.filter fun n => n ≠ "" ∧ n ≠ needle).map fun n => ⟨distance measure needle n, n⟩).filter
    fun s => s.distance ≤ limit needle

/-- At most three names close to the needle, in order and without repetition. -/
def suggestBy (measure : Measure) (needle : String) (names : List String) : List String :=
  let needle := Text.trimmed needle
  if needle = "" then []
  else ((((close measure needle names).mergeSort Scored.le).map Scored.name).eraseReps).take 3

def suggest (needle : String) (names : List String) : List String :=
  suggestBy Text.editDistance needle names

def didYouMean (needle : String) (names : List String) : Option String :=
  match suggest needle names with
  | [] => none
  | [only] => some s!"did you mean `{only}`?"
  | several =>
    let quoted := several.map fun n => s!"`{n}`"
    some ("did you mean one of: " ++ ", ".intercalate quoted ++ "?")

end ScriptJar.Suggestion

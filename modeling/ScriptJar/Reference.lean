import ScriptJar.Path

/-! # References to classes

A script asks for a class by a name that may be short.  The libraries may offer
several classes for it; they are the candidates, and one of them is selected.  The
selection starts at the first candidate and only moves forward.
-/

namespace ScriptJar

/-- A class that a request may stand for, and the library that holds it. -/
structure Candidate where
  name : String
  library : Path
  deriving DecidableEq, Repr

structure Reference where
  raw : String
  /-- The libraries it was asked from, if the script says. -/
  hint : Option String := none
  /-- The classes it may stand for, in the order they are tried. -/
  candidates : List Candidate := []
  selected : Nat := 0
  deriving DecidableEq, Repr

namespace Reference

def isResolved (r : Reference) : Bool :=
  !r.candidates.isEmpty

/-- The name to import now: the selected candidate's, or the requested one. -/
def current (r : Reference) : String :=
  match r.candidates[r.selected]? with
  | some c => c.name
  | none => r.raw

def library? (r : Reference) : Option Path :=
  r.candidates[r.selected]?.map Candidate.library

def canAdvance (r : Reference) : Bool :=
  decide (r.selected + 1 < r.candidates.length)

/-- Selects the next candidate; past the last one, stays there. -/
def advance (r : Reference) : Reference :=
  if r.canAdvance then { r with selected := r.selected + 1 }
  else { r with selected := r.candidates.length - 1 }

def untried (r : Reference) : Nat :=
  r.candidates.length - 1 - r.selected

theorem untried_advance {r : Reference} (h : r.canAdvance = true) :
    r.advance.untried + 1 = r.untried := by
  have lt : r.selected + 1 < r.candidates.length := by simpa [canAdvance] using h
  simp only [advance, h, untried, ite_true]
  omega

/-- Advancing past the last candidate leaves none to try, as before. -/
theorem untried_advance_of_last {r : Reference} (h : ¬ r.canAdvance = true) :
    r.advance.untried = r.untried := by
  have ge : ¬ r.selected + 1 < r.candidates.length := by simpa [canAdvance] using h
  simp only [advance, h, untried]
  simp only [Bool.false_eq_true, ite_false]
  omega

end Reference

end ScriptJar

import ScriptJar.Proofs.Lexemes

/-! # Texts one after the other

Literals and `\"` marks end with their line, so at the end of a line only an open block
comment, open braces and the pending statement can matter for what follows.  Outside
comments and braces the next line ends the pending statement, whatever it is; then the rest
is split as if nothing had been before.

* `Closed` — a text after which this is so;
* `finished_foldl_scanLine` — what is split from a settled draft on;
* `foldl_scanLine_settled` — the lines of a further text settle the draft first;
* `split_append_newline` — the statements of two texts are those of the first and those of
  the second.
-/

namespace ScriptJar

/-! ## Lines -/

/-- A line end after a text ends its last line, or makes an empty one if there is none to
    end. -/
theorem Text.lines_concat_newline {a : List Char} (noReturn : a.getLast? ≠ some '\r') :
    lines (a ++ ['\n']) = lines a ∨ lines (a ++ ['\n']) = lines a ++ [[]] := by
  have tail {c : Char} {a : List Char} (h : (c :: a).getLast? ≠ some '\r') :
      a.getLast? ≠ some '\r' := by
    intro last
    exact h (by rw [List.getLast?_cons, last]; rfl)
  fun_induction lines a with
  | case1 => exact .inr rfl
  | case2 rest ih =>
    rw [List.cons_append, lines]
    exact (ih (tail noReturn)).imp (congrArg _) (congrArg _)
  | case3 rest ih =>
    rw [List.cons_append, List.cons_append, lines]
    exact (ih (tail (tail noReturn))).imp (congrArg _) (congrArg _)
  | case4 c rest inside pair none ih =>
    obtain rfl : rest = [] := by
      by_contra some
      exact lines_ne_nil some none
    left
    rw [List.singleton_append, lines_cons inside]
    · rfl
    · rintro rfl
      exact absurd rfl noReturn
  | case5 c rest inside pair first others split ih =>
    -- the text after `c` is not empty, so what `c` and the next character are stays the same
    have single : c = '\r' → (rest ++ ['\n']).head? ≠ some '\n' := by
      intro cr next
      cases rest with
      | nil => simp [lines] at split
      | cons d rest =>
        obtain rfl : d = '\n' := by simpa using next
        exact pair rest cr rfl
    rw [List.cons_append, lines_cons inside single]
    rcases ih (tail noReturn) with same | longer
    · left
      rw [same, split]
      rfl
    · right
      rw [longer, split]
      rfl

namespace Statement

/-! ## Between two texts -/

/-- Whether a block comment is open after a text, and the draft there. -/
def stateAfter (text : String) : Bool × Draft :=
  (Text.lines text.toList).foldl scanLine (false, {})

/-- A text that ends outside block comments, with all braces closed. -/
structure Closed (text : String) : Prop where
  comment : (stateAfter text).1 = false
  braces : (stateAfter text).2.depth = 0

instance (text : String) : Decidable (Closed text) :=
  decidable_of_iff ((stateAfter text).1 = false ∧ (stateAfter text).2.depth = 0)
    ⟨fun h => ⟨h.1, h.2⟩, fun h => ⟨h.comment, h.braces⟩⟩

/-- The statements but for a last one that is empty. -/
def dropEmptyLast (statements : List String) : List String :=
  if statements.getLast? = some "" then statements.dropLast else statements

theorem dropEmptyLast_concat (statements : List String) (last : String) :
    dropEmptyLast (statements ++ [last]) =
      if last = "" then statements else statements ++ [last] := by
  simp [dropEmptyLast]

namespace Draft

/-- Nothing is pending and no brace is open. -/
structure Settled (d : Draft) : Prop where
  pending : d.pending = []
  depth : d.depth = 0

variable {d : Draft}

theorem settled_startLine (closed : d.depth = 0) : (d.startLine false).Settled := by
  by_cases empty : d.pending = []
  · have same : d.startLine false = d := by simp [startLine, empty]
    rw [same]
    exact ⟨empty, closed⟩
  · have ends : d.startLine false = d.finish := by simp [startLine, empty, closed]
    rw [ends]
    exact ⟨rfl, closed⟩

/-- The pending statement counts unless it is empty. -/
theorem finished_startLine (closed : d.depth = 0) :
    (d.startLine false).finished.reverse = dropEmptyLast d.finish.finished.reverse := by
  by_cases empty : d.pending = []
  · simp [startLine, empty, finish, dropEmptyLast_concat]
  · have other : String.ofList d.pending.reverse ≠ "" := by
      intro same
      exact empty (by simpa using same)
    simp [startLine, empty, closed, finish, dropEmptyLast_concat, other]

theorem Settled.startLine (h : d.Settled) (inComment : Bool) : d.startLine inComment = d := by
  simp [Draft.startLine, h.pending]

end Draft

/-- From a settled draft on, a text is split as if nothing had been before. -/
theorem finished_foldl_scanLine {d : Draft} (settled : d.Settled) (text : String) :
    ((Text.lines text.toList).foldl scanLine (false, d)).2.finish.finished.reverse =
      d.finished.reverse ++ split text := by
  have sound : d.Sound := fun deep => absurd settled.depth deep
  rw [foldl_scanLine, Draft.finished_foldl_take _ sound, settled.pending, settled.depth,
    split_eq_cut]
  rfl

theorem scanLine_settled {d : Draft} (closed : d.depth = 0) (line : List Char) :
    scanLine (false, d) line = scanLine (false, d.startLine false) line := by
  simp only [scanLine, (Draft.settled_startLine closed).startLine]

theorem foldl_scanLine_settled {d : Draft} (closed : d.depth = 0) {lines : List (List Char)}
    (some : lines ≠ []) :
    lines.foldl scanLine (false, d) = lines.foldl scanLine (false, d.startLine false) := by
  cases lines with
  | nil => exact absurd rfl some
  | cons line rest => rw [List.foldl_cons, List.foldl_cons, scanLine_settled closed]

/-- Where the first of two texts ends outside block comments and braces, the statements are
    those of the first, but for an empty last one, and then those of the second. -/
theorem split_append_newline {a b : String} (closed : Closed a)
    (noReturn : a.toList.getLast? ≠ some '\r') (some : b ≠ "") :
    split (a ++ "\n" ++ b) = dropEmptyLast (split a) ++ split b := by
  have whole : (a ++ "\n" ++ b).toList = a.toList ++ '\n' :: b.toList := by simp
  have further : Text.lines b.toList ≠ [] := Text.lines_ne_nil (by simpa using some)
  have state : stateAfter a = (false, (stateAfter a).2) := Prod.ext closed.comment rfl
  have settled := Draft.settled_startLine closed.braces
  -- the line end may make an empty line, which only settles the draft
  have lines : (Text.lines (a ++ "\n" ++ b).toList).foldl scanLine (false, {}) =
      (Text.lines b.toList).foldl scanLine (false, (stateAfter a).2.startLine false) := by
    rw [whole, Text.lines_append_newline, List.foldl_append]
    rcases Text.lines_concat_newline noReturn with same | longer
    · rw [same, ← stateAfter, state, foldl_scanLine_settled closed.braces further]
    · rw [longer, List.foldl_append, ← stateAfter, state]
      rfl
  rw [split, lines, finished_foldl_scanLine settled, Draft.finished_startLine closed.braces]
  rfl

/-- A closing brace too many, a string and a quote that are not closed, braces around a
    comment over two lines, and a line end. -/
def ragged : String :=
  "\x7d s = \"open\nc = '\nvoid f() \x7b/* \x7d\n; */ \x7d\ng();\n"

theorem split_append_newline_ragged :
    Closed ragged ∧ ragged.toList.getLast? ≠ some '\r' ∧ "\n\"; x" ≠ "" ∧
      split ragged = ["\x7d s = \"open", "c = '", "void f() \x7b\n \x7d", "g();", ""] ∧
      split "\n\"; x" = ["\"; x"] ∧
      split (ragged ++ "\n" ++ "\n\"; x") = dropEmptyLast (split ragged) ++ split "\n\"; x" := by
  have closed : Closed ragged := by decide +kernel
  have noReturn : ragged.toList.getLast? ≠ some '\r' := by decide
  have some : "\n\"; x" ≠ "" := by decide
  exact ⟨closed, noReturn, some, by decide +kernel, by decide +kernel,
    split_append_newline closed noReturn some⟩

end Statement

end ScriptJar

import ScriptJar.Proofs.Rejection

/-! # Corrections by a source line

A correction by a line moves the first reference whose selected name and a semicolon end the
line.  That the word `import` stands before the name is not asked for, so the line may import
a longer name, or be no import at all.

* `Graph.MovedByLine` — what such a correction does;
* `Graph.correctByLine_precise_iff` — when the line is the import of the reference that moves;
* `Graph.correctByLine_misled` — when it is not.
-/

namespace ScriptJar.Graph

open Text

variable {g g' : Graph}

/-- A line ends with the import of a reference. -/
def Imports (line : List Char) (r : Reference) : Prop :=
  (Module.importOf r.current).toList <:+ line

instance (line : List Char) (r : Reference) : Decidable (Imports line r) :=
  inferInstanceAs (Decidable (_ <:+ _))

/-- Of the references whose selected name and a semicolon end a line, the first one moved on,
    and nothing else changed.  `front` is the line up to the name. -/
structure MovedByLine (g g' : Graph) (line front : List Char) (before : List Reference)
    (r : Reference) (after : List Reference) : Prop where
  place : g.references = before ++ r :: after
  first : ∀ x ∈ before, endsLine line x = false
  ends : line = front ++ r.current.toList ++ [';']
  left : r.selected + 1 < r.candidates.length
  moved : g'.references = before ++ { r with selected := r.selected + 1 } :: after
  others : g.Changed Reference.Raised g'

theorem correctByLine_moved {line : String} (moved : g.correctByLine line = (true, g')) :
    ∃ front before r after, g.MovedByLine g' (trimEnd line.toList) front before r after := by
  rcases advanceFirst_cases moved with
    ⟨-, none, -⟩ | ⟨before, r, after, place, first, fits, can, rfl⟩
  · cases none
  · obtain ⟨left, raised⟩ := Reference.advance_raised can.symm
    rw [endsLine, List.isSuffixOf_iff_suffix] at fits
    obtain ⟨front, ends⟩ := fits
    refine ⟨front, before, r, after, place, first, ?ends, left, ?moved, ?others⟩
    case ends => rw [List.append_assoc, ends]
    case moved => simp [references_modifyReference, place, modify_append, raised]
    case others => exact changed_modifyReference (getElem?_place place) ⟨left, raised⟩

theorem imports_iff_front {front : List Char} (r : Reference) :
    Imports (front ++ r.current.toList ++ [';']) r ↔ "import ".toList <:+ front := by
  rw [Imports, Module.toList_importOf, List.suffix_append_self_iff, List.suffix_append_self_iff]

/-- The import of a name without blanks ends with no import but itself. -/
theorem imports_importOf_iff {name : String} (solid : Solid name) (r : Reference) :
    Imports (Module.importOf name).toList r ↔ r.current = name := by
  constructor
  · rintro ⟨front, whole⟩
    rw [Module.toList_importOf, Module.toList_importOf, ← List.append_assoc, ← List.append_assoc,
      List.append_cancel_right_eq] at whole
    rcases List.append_eq_append_iff.1 whole with ⟨more, start, rest⟩ | ⟨more, start, rest⟩
    · have long := congrArg List.length start
      have none : more = [] := by
        apply List.eq_nil_of_length_eq_zero
        simp only [List.length_append] at long
        omega
      rw [none, List.nil_append] at rest
      exact String.toList_inj.1 rest
    · rcases List.eq_nil_or_concat more with rfl | ⟨begin_, last, rfl⟩
      · exact (String.toList_inj.1 rest).symm
      · -- the blank after a further `import` would be one of the name
        obtain rfl : ' ' = last := by
          have ends := congrArg List.getLast? start
          rw [List.concat_eq_append, ← List.append_assoc, List.getLast?_concat] at ends
          simpa using ends
        have blank := solid ' ' (by rw [rest]; simp)
        exact absurd blank (by decide)
  · rintro rfl
    exact List.suffix_refl _

/-- A correction by a line is precise if and only if `import` stands before the name.  If the
    line is the import of a name without blanks, it is precise if and only if the reference
    that moves is imported by that name, and otherwise the selected name is an ending of it. -/
theorem correctByLine_precise_iff {line : String} (moved : g.correctByLine line = (true, g')) :
    ∃ front before r after,
      g.MovedByLine g' (trimEnd line.toList) front before r after ∧
      (Imports (trimEnd line.toList) r ↔ "import ".toList <:+ front) ∧
      ∀ name, Solid name → trimEnd line.toList = (Module.importOf name).toList →
        (Imports (trimEnd line.toList) r ↔ r.current = name) ∧
          (Solid r.current → r.current.toList <:+ name.toList) := by
  obtain ⟨front, before, r, after, byLine⟩ := correctByLine_moved moved
  refine ⟨front, before, r, after, byLine, ?_, fun name solid isImport => ⟨?_, fun solid' => ?_⟩⟩
  · rw [byLine.ends]
    exact imports_iff_front r
  · rw [isImport]
    exact imports_importOf_iff solid r
  · apply suffix_of_endsLine solid'
    rw [trimEnd_importOf, ← isImport, endsLine, List.isSuffixOf_iff_suffix]
    exact ⟨front, by rw [← List.append_assoc, ← byLine.ends]⟩

/-- Two requests for one class, in libraries of which the second has its packages below
    another one. -/
def relocated : Graph where
  modules := [
    { identifier := "Main"
      references := [
        { raw := "List", hint := some "a.jar"
          candidates := [⟨"util.List", ⟨"a.jar"⟩⟩, ⟨"x.List", ⟨"a.jar"⟩⟩] },
        { raw := "List", hint := some "b.jar"
          candidates := [⟨"java.util.List", ⟨"b.jar"⟩⟩, ⟨"java.awt.List", ⟨"b.jar"⟩⟩] }] }]
  entryIndex := some 0

theorem correctByLine_precise_iff_relocated :
    ∃ g', relocated.correctByLine "import util.List; " = (true, g') ∧
      ∃ front before r after,
        relocated.MovedByLine g' (trimEnd "import util.List; ".toList) front before r after ∧
        (Imports (trimEnd "import util.List; ".toList) r ↔ "import ".toList <:+ front) ∧
        r.current = "util.List" ∧ Imports (trimEnd "import util.List; ".toList) r := by
  obtain ⟨⟨moved, g'⟩, corrected, isMoved⟩ : ∃ answer,
      relocated.correctByLine "import util.List; " = answer ∧ answer.1 = true :=
    ⟨_, rfl, by decide +kernel⟩
  obtain rfl : moved = true := isMoved
  have isImport : trimEnd "import util.List; ".toList = (Module.importOf "util.List").toList := by
    decide +kernel
  obtain ⟨front, before, r, after, byLine, precise, named⟩ := correctByLine_precise_iff corrected
  -- the first reference of all fits the line
  have current : r.current = "util.List" := by
    have place := byLine.place
    cases before with
    | nil => exact congrArg Reference.current (List.cons.inj place).1.symm
    | cons x before =>
      have earlier := byLine.first x List.mem_cons_self
      rw [← (List.cons.inj place).1] at earlier
      exact absurd earlier (by decide +kernel)
  have imports := (named "util.List" (by decide) isImport).1.2 current
  exact ⟨g', corrected, front, before, r, after, byLine, precise, current, imports⟩

/-- A class that is in no package. -/
def unpackaged : Graph where
  modules := [
    { identifier := "Main"
      references := [
        { raw := "List", candidates := [⟨"List", ⟨"a.jar"⟩⟩, ⟨"util.List", ⟨"b.jar"⟩⟩] }] }]
  entryIndex := some 0

/-- The import of one reference moves another one, whose selected name is an ending of the
    imported one; and a line that is no import moves a reference as well. -/
theorem correctByLine_misled :
    ((relocated.correctByLine "import java.util.List;").1 = true ∧
      relocated.references.map Reference.current = ["util.List", "java.util.List"] ∧
      (relocated.correctByLine "import java.util.List;").2.references.map Reference.current =
        ["x.List", "java.util.List"] ∧
      ¬ (Module.importOf "util.List").toList <:+ trimEnd "import java.util.List;".toList) ∧
    (unpackaged.correctByLine "return emptyList;").1 = true ∧
      unpackaged.references.map Reference.current = ["List"] ∧
      (unpackaged.correctByLine "return emptyList;").2.references.map Reference.current =
        ["util.List"] ∧
      ¬ (Module.importOf "List").toList <:+ trimEnd "return emptyList;".toList := by
  decide +kernel

end ScriptJar.Graph

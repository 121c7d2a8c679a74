import ScriptJar.Proofs.BuildLog
import ScriptJar.Proofs.Rejection

/-! # When a build fails

A build that fails had an error pointed out to it and found nothing to correct.  If the
error is at the import of a reference, the first reference that the line fits is out of
candidates.  It is the one that is imported there, unless an earlier one fits the line as
well: the file that the error is in does not count.

* `Graph.advanceFirst_failed` — an advance in vain;
* `Job.build_failed_exhausted` — what is out of candidates when a build fails;
* `Job.build_failed_shadowed` — it need not be the reference in question.
-/

namespace ScriptJar

open Text

/-- No candidate comes after the selected one. -/
def Reference.Exhausted (r : Reference) : Prop :=
  r.candidates = [] ∨ r.selected + 1 = r.candidates.length

instance (r : Reference) : Decidable r.Exhausted :=
  inferInstanceAs (Decidable (_ ∨ _))

theorem Reference.exhausted_of_last {r : Reference}
    (inRange : r.selected < max 1 r.candidates.length) (last : r.canAdvance = false) :
    r.Exhausted := by
  have ge : ¬ r.selected + 1 < r.candidates.length := by simpa [canAdvance] using last
  cases candidates : r.candidates with
  | nil => exact .inl candidates
  | cons c rest =>
    rw [candidates, List.length_cons] at inRange ge
    right
    rw [candidates, List.length_cons]
    omega

/-- A diagnostic points at the import of a reference in the source of a module. -/
@[mk_iff]
structure Diagnostic.PointsAt (d : Diagnostic) (files : FileTree) (m : Module) (r : Reference) :
    Prop where
  member : r ∈ m.allReferences
  source : files.readText d.file = .ok m.javaText
  counted : d.line ≠ 0
  line : (linesOf m.javaText)[d.line - 1]? = some (Module.importOf r.current)

instance (d : Diagnostic) (files : FileTree) (m : Module) (r : Reference) :
    Decidable (d.PointsAt files m r) :=
  decidable_of_iff (r ∈ m.allReferences ∧ (files.readText d.file).toOption = some m.javaText ∧
      d.line ≠ 0 ∧ (linesOf m.javaText)[d.line - 1]? = some (Module.importOf r.current))
    (by rw [toOption_eq_some, Diagnostic.pointsAt_iff])

theorem Diagnostic.PointsAt.sourceLine {d : Diagnostic} {files : FileTree} {m : Module}
    {r : Reference} (h : d.PointsAt files m r) :
    d.sourceLine files = .ok (some (Module.importOf r.current)) := by
  simp only [Diagnostic.sourceLine, if_neg h.counted, h.source, h.line]

namespace Graph

variable {g g' : Graph}

/-- An advance is in vain if the first reference that fits has no candidate left. -/
theorem advanceFirst_failed {fits : Reference → Bool} {x : Reference}
    (h : g.advanceFirst fits = (false, g')) (first : g.references.find? fits = some x) :
    x.canAdvance = false := by
  obtain ⟨fit, front, rest, place, before⟩ := List.find?_eq_some_iff_append.1 first
  rcases advanceFirst_cases h with ⟨none, -⟩ | ⟨earlier, r, after, place', before', fit', last, -⟩
  · simp [none x (by simp [place])] at fit
  · have same : g.references.find? fits = some r :=
      List.find?_eq_some_iff_append.2 ⟨fit', earlier, after, place', by simpa using before'⟩
    obtain rfl : x = r := Option.some.inj (first.symm.trans same)
    exact last.symm

/-- The reference of an import, or an earlier one that its line fits, is the first one
    that the line fits. -/
theorem find?_endsLine {before after : List Reference} {r : Reference}
    (place : g.references = before ++ r :: after) :
    ∃ x, (before ++ [r]).find? (endsLine (Module.importOf r.current).toList) = some x ∧
      g.references.find? (endsLine (Module.importOf r.current).toList) = some x := by
  have fits := endsLine_importOf (r := r) rfl
  rw [trimEnd_importOf] at fits
  rw [place]
  -- the line fits the reference itself, so nothing after it is looked at
  cases earlier : before.find? (endsLine (Module.importOf r.current).toList) with
  | some x => exact ⟨x, by simp [earlier], by simp [earlier]⟩
  | none => exact ⟨r, by simp [earlier, fits], by simp [earlier, fits]⟩

end Graph

namespace Job

variable {σ : Type} {job : Job} {t : Toolchain σ} {g g' : Graph} {w w' : World σ}

/-- When a build fails, the last report pointed at an error.  If that is the import of a
    reference, then of all references up to this one the first that the line fits has no
    candidate left. -/
theorem build_failed_exhausted {text : String} (inRange : g.InRange)
    (built : job.build t g w = (.ok (.failed text), g', w')) :
    ∃ events report d, w'.log = w.log ++ events ∧ lastReport? events = some report ∧
      Diagnostic.first? report.stderr = some d ∧
      ∀ m ∈ g'.modules, ∀ r, d.PointsAt w'.files m r →
        ∀ before after, g'.references = before ++ r :: after →
          ∃ x, (before ++ [r]).find? (Graph.endsLine (Module.importOf r.current).toList) = some x ∧
            x.Exhausted := by
  obtain ⟨n, reached⟩ := reaches_of_build built
  obtain ⟨s₁, report, d, warnings, before, phase, first, failed, world⟩ :=
    reached.of_failed rfl rfl
  simp only at failed world
  -- the attempt at a correction changed nothing, so the last graph is the one compiled
  have inRange₁ := (before.counted (.start inRange)).inRange
  have same : g' = s₁.graph := Graph.correct_spec inRange₁ failed
  obtain ⟨-, events, log, accounts⟩ := before.recorded (.start job t g w)
  rw [phase] at accounts
  obtain ⟨-, last, answered⟩ := accounts
  have answered := answered.append (compilations_warned warnings)
  refine ⟨_, report, d, by rw [world, World.warn, log, List.append_assoc], answered.lastReport?,
    first, fun m _ r points before after place => ?_⟩
  obtain ⟨x, upTo, overall⟩ := Graph.find?_endsLine place
  refine ⟨x, upTo, ?_⟩
  rw [same] at overall
  have line := points.sourceLine
  rw [world] at line
  -- the line could be read, so the first attempt went by it, and it was in vain
  rcases Graph.correct_cases failed with ⟨none, -⟩ | ⟨_, here, ⟨moved, -⟩ | ⟨_, byLine, -⟩⟩
  · exact absurd line (none _)
  · cases moved
  · obtain rfl := Option.some.inj (Except.ok.inj (here.symm.trans line))
    rw [Graph.correctByLine, trimEnd_importOf] at byLine
    exact Reference.exhausted_of_last (inRange₁ x (List.mem_of_find?_eq_some overall))
      (Graph.advanceFirst_failed byLine overall)

end Job

/-- Against a compiler that always complains, both references run out of candidates. -/
theorem Job.build_failed_exhausted_ambiguous :
    Graph.ambiguous.InRange ∧ ∃ text g' w', ∃ d : Diagnostic, ∃ m r after x,
      Job.scratch.build (.stubborn "job/src/Main.java:1: error: cannot access List") .ambiguous
        .scratch = (.ok (.failed text), g', w') ∧
      m ∈ g'.modules ∧ d.PointsAt w'.files m r ∧ g'.references = r :: after ∧
      [r].find? (Graph.endsLine (Module.importOf r.current).toList) = some x ∧ x.Exhausted := by
  have inRange : Graph.ambiguous.InRange := by decide
  obtain ⟨⟨result, g', w'⟩, built, ends, facts⟩ : ∃ b,
      Job.scratch.build (.stubborn "job/src/Main.java:1: error: cannot access List") .ambiguous
        .scratch = b ∧
      b.1.toOption = some (.failed "job/src/Main.java:1: error: cannot access List") ∧
      ∃ m ∈ b.2.1.modules, ∃ r ∈ b.2.1.references.head?,
        ∃ report ∈ lastReport? b.2.2.log, ∃ d ∈ Diagnostic.first? report.stderr,
          d.PointsAt b.2.2.files m r :=
    ⟨_, rfl, by decide +kernel⟩
  obtain rfl := toOption_eq_some.1 ends
  obtain ⟨m, member, r, head, report, last, d, first, points⟩ := facts
  obtain ⟨events, report', d', log, last', first', exhausted⟩ :=
    build_failed_exhausted inRange built
  obtain rfl : w'.log = events := log
  obtain rfl : report = report' := Option.some.inj (last.symm.trans last')
  obtain rfl : d = d' := Option.some.inj (first.symm.trans first')
  obtain ⟨after, place⟩ := List.head?_eq_some_iff.1 head
  obtain ⟨x, found, out⟩ := exhausted m member r points [] after place
  exact ⟨inRange, _, _, _, d, m, r, after, x, built, member, points, place, found, out⟩

/-- Two modules that ask for one name, the first of them in a single library. -/
def Graph.shadowed : Graph where
  modules := [
    { identifier := "Helper"
      references := [{ raw := "Date", hint := some "a.jar"
                       candidates := [⟨"a.Date", ⟨"a.jar"⟩⟩] }] },
    { identifier := "Main"
      references := [{ raw := "Date"
                       candidates := [⟨"a.Date", ⟨"a.jar"⟩⟩, ⟨"b.Date", ⟨"b.jar"⟩⟩] }] }]
  entryIndex := some 1

/-- The build fails at an import although there is another candidate for it: the import in
    the first module looks the same. -/
theorem Job.build_failed_shadowed :
    ∃ text g' w' report d m r,
      Job.scratch.build (.stubborn "job/src/Main.java:1: error: cannot access Date") .shadowed
        .scratch = (.ok (.failed text), g', w') ∧
      Graph.shadowed.InRange ∧ Job.scratch.Apart Graph.shadowed.modules World.scratch.files ∧
      lastReport? w'.log = some report ∧ Diagnostic.first? report.stderr = some d ∧
      m ∈ g'.modules ∧ d.PointsAt w'.files m r ∧ ¬ r.Exhausted := by
  obtain ⟨⟨result, g', w'⟩, built, ends, facts⟩ : ∃ b,
      Job.scratch.build (.stubborn "job/src/Main.java:1: error: cannot access Date") .shadowed
        .scratch = b ∧
      b.1.toOption = some (.failed "job/src/Main.java:1: error: cannot access Date") ∧
      ∃ m ∈ b.2.1.modules, ∃ r ∈ m.allReferences, ∃ report ∈ lastReport? b.2.2.log,
        ∃ d ∈ Diagnostic.first? report.stderr, d.PointsAt b.2.2.files m r ∧ ¬ r.Exhausted :=
    ⟨_, rfl, by decide +kernel⟩
  obtain rfl := toOption_eq_some.1 ends
  obtain ⟨m, member, r, -, report, last, d, first, points, more⟩ := facts
  exact ⟨_, _, _, report, d, m, r, built, by decide, by decide +kernel, last, first, member, points,
    more⟩

end ScriptJar

import ScriptJar.Build.Job
import ScriptJar.Proofs.Selection

/-! # Runs of a build

A build goes from phase to phase until it is done, and nothing counts its passes.
`Job.Reaches` is the run as a relation; `Counted` is the invariant that ties the
calls of the compiler, the corrections and the selections to one another at every
point of it.

* `Job.run_reaches` — a build ends in a state that its run reaches;
* `Job.Step.raised`, `Job.Step.unchanged` — only the step that goes back to writing the
  sources changes the graph;
* `Job.build_within_untried` — how often the compiler is called.
-/

namespace ScriptJar

/-! ## Calls of the compiler -/

def Event.isCompile : Event → Bool
  | .compiled _ _ _ => true
  | _ => false

namespace World

variable {σ : Type}

def compileCalls (w : World σ) : Nat :=
  w.log.countP Event.isCompile

theorem countP_warned (ws : List Warning) :
    (ws.map Event.warned).countP Event.isCompile = 0 := by
  simp [List.countP_eq_zero, Event.isCompile]

@[simp] theorem compileCalls_warn (w : World σ) (ws : List Warning) :
    (w.warn ws).compileCalls = w.compileCalls := by
  rw [compileCalls, warn, List.countP_append, countP_warned]
  rfl

@[simp] theorem compileCalls_withFiles (w : World σ) (files : FileTree) :
    (w.withFiles files).compileCalls = w.compileCalls := rfl

theorem compileCalls_compile {w w' : World σ} {t : Toolchain σ} {request : CompileRequest}
    {result : Except Failure CompileReport} (h : w.compile t request = (result, w')) :
    w'.compileCalls = w.compileCalls + 1 := by
  obtain ⟨-, rfl⟩ := Prod.mk.inj h
  simp only [compileCalls, List.countP_append, List.countP_cons, countP_warned]
  rfl

end World

namespace Job

variable {σ : Type} {job : Job} {t : Toolchain σ} {s s' : Progress σ}

/-- Packing fails before the archiver is called and leaves everything as it was, or it
    writes the manifest and gives what the archiver says. -/
theorem package_spec {g : Graph} {w w' : World σ} {result : Except Failure (List String)}
    (h : job.package t g w = (result, w')) :
    (∃ e, result = .error e ∧ w' = w) ∨
      ∃ entry files reply, ∃ warnings : List Warning, g.entry? = some entry ∧
        w.files.writeText job.staging.manifest
          (manifestText entry.qualifiedName g.selectedLibraries) = .ok files ∧
        t.archive (job.archiveRequest g files) files w.tools = reply ∧
        result = reply.result.map ArchiveReport.stderr ∧ w'.tools = reply.tools ∧
        w'.log = w.log ++ .archived (job.archiveRequest g files) files reply.result ::
          warnings.map .warned := by
  unfold package at h
  cases entry : g.entry? with
  | none =>
    simp only [entry, Prod.mk.injEq] at h
    exact .inl ⟨_, h.1.symm, h.2.symm⟩
  | some m =>
    cases written : w.files.writeText job.staging.manifest
        (manifestText m.qualifiedName g.selectedLibraries) with
    | error e =>
      simp only [entry, written, Prod.mk.injEq] at h
      exact .inl ⟨_, h.1.symm, h.2.symm⟩
    | ok files =>
      rcases called : t.archive (job.archiveRequest g files) files w.tools with
        ⟨answer, warnings, files', tools⟩
      have packed : (w.withFiles files).archive t (job.archiveRequest g files) =
          (answer, ⟨files', tools, w.log ++ .archived (job.archiveRequest g files) files answer ::
            warnings.map .warned⟩) := by
        simp only [World.archive, World.withFiles, called]
      right
      cases answer with
      | error e =>
        simp only [entry, written, packed, Prod.mk.injEq] at h
        obtain ⟨rfl, rfl⟩ := h
        exact ⟨m, files, _, warnings, rfl, written, called, rfl, rfl, rfl⟩
      | ok report =>
        simp only [entry, written, packed, Prod.mk.injEq] at h
        obtain ⟨rfl, rfl⟩ := h
        refine ⟨m, files, _, warnings ++ if report.stderr.length = 0 then []
          else [.archiverErrors report.stderr.length job.archive],
          rfl, written, called, rfl, rfl, ?_⟩
        rw [World.warn, List.map_append, List.append_assoc, List.cons_append]

theorem compileCalls_package {g : Graph} {w w' : World σ}
    {result : Except Failure (List String)} (h : job.package t g w = (result, w')) :
    w'.compileCalls = w.compileCalls := by
  rcases package_spec h with ⟨_, -, rfl⟩ | ⟨_, _, _, warnings, -, -, -, -, -, log⟩
  · rfl
  · simp only [World.compileCalls, log, List.countP_append, List.countP_cons, World.countP_warned]
    rfl

/-! ## Steps -/

/-- What a step can do, one constructor for each way out of a phase. -/
inductive Step (job : Job) (t : Toolchain σ) : Progress σ → Progress σ → Prop where
  | written {n g w sources files} :
      job.generate g.modules w.files = (.ok sources, files) →
      Step job t ⟨.generate, n, g, w⟩ ⟨.compile sources, n, g, w.withFiles files⟩
  | unwritten {n g w e files} :
      job.generate g.modules w.files = (.error e, files) →
      Step job t ⟨.generate, n, g, w⟩ ⟨.done (.error e), n, g, w.withFiles files⟩
  | compiled {n g w w' sources report} :
      w.compile t (job.compileRequest g sources) = (.ok report, w') →
      Step job t ⟨.compile sources, n, g, w⟩ ⟨.diagnose report, n, g, w'⟩
  | uncompiled {n g w w' sources e} :
      w.compile t (job.compileRequest g sources) = (.error e, w') →
      Step job t ⟨.compile sources, n, g, w⟩ ⟨.done (.error e), n, g, w'⟩
  | unlocated {n g w report} :
      Diagnostic.first? report.stderr = none →
      Step job t ⟨.diagnose report, n, g, w⟩
        ⟨.archive (unlocatedErrors report), n, g, w.warn (unlocatedWarnings report)⟩
  | corrected {n g g' w report d warnings} :
      Diagnostic.first? report.stderr = some d →
      g.correct w.files d = (true, g', warnings) →
      Step job t ⟨.diagnose report, n, g, w⟩ ⟨.generate, n + 1, g', w.warn warnings⟩
  | gaveUp {n g g' w report d warnings} :
      Diagnostic.first? report.stderr = some d →
      g.correct w.files d = (false, g', warnings) →
      Step job t ⟨.diagnose report, n, g, w⟩
        ⟨.done (.ok (giveUp report)), n, g', w.warn warnings⟩
  | packaged {n g w w' compilerErrors archiverErrors} :
      job.package t g w = (.ok archiverErrors, w') →
      Step job t ⟨.archive compilerErrors, n, g, w⟩
        ⟨.done (.ok (.packaged job.archive compilerErrors archiverErrors n)), n, g, w'⟩
  | unpackaged {n g w w' compilerErrors e} :
      job.package t g w = (.error e, w') →
      Step job t ⟨.archive compilerErrors, n, g, w⟩ ⟨.done (.error e), n, g, w'⟩
  | stopped {n g w result} : Step job t ⟨.done result, n, g, w⟩ ⟨.done result, n, g, w⟩

theorem step_spec (job : Job) (t : Toolchain σ) (s : Progress σ) : Step job t s (job.step t s) := by
  obtain ⟨phase, n, g, w⟩ := s
  cases phase with
  | generate =>
    rcases h : job.generate g.modules w.files with ⟨_ | _, files⟩
    · simpa only [step, h] using .unwritten h
    · simpa only [step, h] using .written h
  | compile sources =>
    rcases h : w.compile t (job.compileRequest g sources) with ⟨_ | _, w'⟩
    · simpa only [step, h] using .uncompiled h
    · simpa only [step, h] using .compiled h
  | diagnose report =>
    cases first : Diagnostic.first? report.stderr with
    | none => simpa only [step, first] using .unlocated first
    | some d =>
      rcases h : g.correct w.files d with ⟨_ | _, g', warnings⟩
      · simpa only [step, first, h] using .gaveUp first h
      · simpa only [step, first, h] using .corrected first h
  | archive compilerErrors =>
    rcases h : job.package t g w with ⟨_ | _, w'⟩
    · simpa only [step, h] using .unpackaged h
    · simpa only [step, h] using .packaged h
  | done result => exact .stopped

/-- Whether a step goes back to writing the sources after a report. -/
def Retries (s s' : Progress σ) : Prop :=
  ∃ report, s.phase = .diagnose report ∧ s'.phase = .generate

theorem Step.raised (h : Step job t s s') (inRange : s.graph.InRange) (retries : Retries s s') :
    s.graph.Changed Reference.Raised s'.graph := by
  obtain ⟨report, before, after⟩ := retries
  cases h with
  | corrected first moved => exact Graph.correct_spec inRange moved
  | _ => cases before <;> cases after

theorem Step.unchanged (h : Step job t s s') (inRange : s.graph.InRange)
    (goesOn : ¬ Retries s s') : s'.graph = s.graph := by
  cases h with
  | corrected => exact absurd ⟨_, rfl, rfl⟩ goesOn
  | gaveUp first failed => exact Graph.correct_spec inRange failed
  | _ => rfl

/-! ## Runs -/

/-- A state that a build comes to from another one. -/
inductive Reaches (job : Job) (t : Toolchain σ) (s : Progress σ) : Progress σ → Prop where
  | refl : Reaches job t s s
  | next {s' : Progress σ} : Reaches job t s s' → Reaches job t s (job.step t s')

/-- What holds at the start and is kept by every step holds all along. -/
theorem Reaches.invariant {P : Progress σ → Prop} (h : job.Reaches t s s') (start : P s)
    (keeps : ∀ s, P s → P (job.step t s)) : P s' := by
  induction h with
  | refl => exact start
  | next _ ih => exact keeps _ ih

theorem Reaches.of_step (h : job.Reaches t (job.step t s) s') : job.Reaches t s s' := by
  induction h with
  | refl => exact .next .refl
  | next _ ih => exact .next ih

theorem Phase.eq_done {phase : Phase} {result : Except Failure Outcome}
    (h : phase.result? = some result) : phase = .done result := by
  cases phase <;> simp_all [Phase.result?]

/-- A build comes to an end, and what it returns is the state it ends in. -/
theorem run_reaches (job : Job) (t : Toolchain σ) (s : Progress σ) :
    ∃ s' result, job.Reaches t s s' ∧ s'.phase = .done result ∧
      job.run t s = (result, s'.graph, s'.world) := by
  -- along the recursion of `run`: its first step comes before those of the rest
  fun_induction run job t s with
  | case1 s result h => exact ⟨s, result, .refl, Phase.eq_done h, rfl⟩
  | case2 s h ih =>
    obtain ⟨s', result, reached, done, eq⟩ := ih
    exact ⟨s', result, reached.of_step, done, eq⟩

theorem reaches_of_build {g g' : Graph} {w w' : World σ} {result : Except Failure Outcome}
    (built : job.build t g w = (result, g', w')) :
    ∃ n, job.Reaches t { graph := g, world := w } ⟨.done result, n, g', w'⟩ := by
  obtain ⟨⟨phase, n, g₁, w₁⟩, result₁, reached, done, ran⟩ :=
    run_reaches job t { graph := g, world := w }
  cases built.symm.trans ran
  cases done
  exact ⟨n, reached⟩

/-- A build fails after a report that points at an error, when a correction is in vain. -/
theorem Reaches.of_failed {text : String} (h : job.Reaches t s s')
    (going : s.phase.result? = none) (failed : s'.phase = .done (.ok (.failed text))) :
    ∃ s₁ report d warnings, job.Reaches t s s₁ ∧ s₁.phase = .diagnose report ∧
      Diagnostic.first? report.stderr = some d ∧
      s₁.graph.correct s₁.world.files d = (false, s'.graph, warnings) ∧
      s'.world = s₁.world.warn warnings := by
  induction h with
  | refl => simp [failed, Phase.result?] at going
  | @next s' reached ih =>
    have step := step_spec job t s'
    generalize job.step t s' = s'' at step failed
    cases step with
    | gaveUp first inVain => exact ⟨_, _, _, _, reached, rfl, first, inVain, rfl⟩
    | stopped => exact ih failed
    | _ => cases failed

theorem step_finished (job : Job) (t : Toolchain σ) {s : Progress σ}
    (finished : s.phase.result?.isSome = true) : job.step t s = s := by
  obtain ⟨result, finished⟩ := Option.isSome_iff_exists.1 finished
  simp only [step, Phase.eq_done finished]

/-- Whether a run is over after some steps, with a property all along. -/
def holdsFor (job : Job) (t : Toolchain σ) (P : Progress σ → Bool) : Nat → Progress σ → Bool
  | 0, s => P s && s.phase.result?.isSome
  | n + 1, s => P s && holdsFor job t P n (job.step t s)

theorem Reaches.eq_or_step (h : job.Reaches t s s') : s' = s ∨ job.Reaches t (job.step t s) s' := by
  induction h with
  | refl => exact .inl rfl
  | next _ ih =>
    rcases ih with rfl | later
    · exact .inr .refl
    · exact .inr later.next

theorem Reaches.of_holdsFor {P : Progress σ → Bool} {n : Nat} (h : job.Reaches t s s')
    (holds : job.holdsFor t P n s = true) : P s' = true := by
  induction n generalizing s with
  | zero =>
    simp only [holdsFor, Bool.and_eq_true] at holds
    -- nothing is reached from a state that is done but itself
    have stays : s = s' := by
      refine h.invariant rfl fun s₁ same => ?_
      rw [← same]
      exact (step_finished job t holds.2).symm
    rw [← stays]
    exact holds.1
  | succ n ih =>
    simp only [holdsFor, Bool.and_eq_true] at holds
    rcases h.eq_or_step with rfl | later
    · exact holds.1
    · exact ih later holds.2

/-! ## Counting -/

/-- What the calls of the compiler can be beyond one for each correction. -/
def Phase.Calls (n : Nat) : Phase → Prop
  | .generate | .compile _ => n = 0
  | .diagnose _ | .archive _ | .done (.ok _) => n = 1
  | .done (.error _) => n ≤ 1

/-- How far a build has come since it was at `s₀`: every correction is a call of the
    compiler, a raised selection and a candidate used up. -/
structure Counted (s₀ s : Progress σ) : Prop where
  inRange : s.graph.InRange
  selected : s.graph.total Reference.selected =
    s₀.graph.total Reference.selected + s.corrections
  untried : s.graph.untried + s.corrections = s₀.graph.untried
  calls : ∃ n, s.phase.Calls n ∧
    s.world.compileCalls = s₀.world.compileCalls + s.corrections + n
  packaged : ∀ archive compilerErrors archiverErrors n,
    s.phase = .done (.ok (.packaged archive compilerErrors archiverErrors n)) →
      n = s.corrections

theorem Counted.start {g : Graph} {w : World σ} (inRange : g.InRange) :
    Counted { graph := g, world := w } { graph := g, world := w } where
  inRange := inRange
  selected := rfl
  untried := rfl
  calls := ⟨0, rfl, rfl⟩
  packaged := by intro _ _ _ _ h; cases h

theorem Step.counted {s₀ : Progress σ} (h : Step job t s s') (counted : Counted s₀ s) :
    Counted s₀ s' := by
  obtain ⟨inRange, selected, untried, ⟨n, more, calls⟩, packaged⟩ := counted
  -- a call of the compiler is one more than the corrections until one follows from it
  cases h with
  | written => exact ⟨inRange, selected, untried, ⟨n, more, calls⟩, by simp⟩
  | unwritten =>
    obtain rfl : n = 0 := more
    exact ⟨inRange, selected, untried, ⟨0, Nat.zero_le 1, calls⟩, by simp⟩
  | compiled answered =>
    obtain rfl : n = 0 := more
    have one := World.compileCalls_compile answered
    exact ⟨inRange, selected, untried, ⟨1, rfl, by rw [one, calls]⟩, by simp⟩
  | uncompiled failed =>
    obtain rfl : n = 0 := more
    have one := World.compileCalls_compile failed
    exact ⟨inRange, selected, untried, ⟨1, Nat.le_refl 1, by rw [one, calls]⟩, by simp⟩
  | unlocated => exact ⟨inRange, selected, untried, ⟨n, more, by simpa using calls⟩, by simp⟩
  | corrected first moved =>
    obtain rfl : n = 1 := more
    have raised := Graph.correct_spec inRange moved
    have sum := Graph.selected_of_raised raised
    have used := Graph.untried_correct moved
    simp only [Bool.toNat_true] at selected untried calls sum used
    refine ⟨inRange.of_raised raised, ?_, ?_, ⟨0, rfl, ?_⟩, by simp⟩
    · simp only
      omega
    · simp only
      omega
    · rw [World.compileCalls_warn, calls]
      rfl
  | gaveUp first failed =>
    -- a failed attempt leaves the graph alone, so the sums stay
    have same := Graph.correct_spec inRange failed
    simp only [Bool.false_eq_true, ite_false] at same
    subst same
    exact ⟨inRange, selected, untried, ⟨n, more, by simpa using calls⟩, by simp [giveUp]⟩
  | packaged done =>
    have none := compileCalls_package done
    refine ⟨inRange, selected, untried, ⟨n, more, by rw [none]; exact calls⟩, ?_⟩
    rintro _ _ _ _ ⟨⟩
    rfl
  | unpackaged failed =>
    obtain rfl : n = 1 := more
    have none := compileCalls_package failed
    exact ⟨inRange, selected, untried, ⟨1, Nat.le_refl 1, by rw [none]; exact calls⟩, by simp⟩
  | stopped => exact ⟨inRange, selected, untried, ⟨n, more, calls⟩, packaged⟩

theorem Reaches.counted {s₀ : Progress σ} (h : job.Reaches t s s') (counted : Counted s₀ s) :
    Counted s₀ s' :=
  h.invariant counted fun s => (step_spec job t s).counted

theorem Phase.Calls.le_one {phase : Phase} {n : Nat} (h : phase.Calls n) : n ≤ 1 := by
  unfold Phase.Calls at h
  split at h <;> omega

/-- Whatever the tools answer, a build ends, and it calls the compiler at most once
    more than there are candidates left to try.  Each retry raises one selection by one
    and no other step changes the graph, nor does an attempt at a correction that fails.
    If the build has an outcome, the compiler was called once more than selections were
    raised. -/
theorem build_within_untried (job : Job) (t : Toolchain σ) (g : Graph) (w : World σ)
    (inRange : g.InRange) :
    ∃ result g' w', job.build t g w = (result, g', w') ∧
      (∃ s, job.Reaches t { graph := g, world := w } s ∧ s.phase = .done result ∧
        s.graph = g' ∧ s.world = w') ∧
      w'.compileCalls ≤ w.compileCalls + (1 + g.untried) ∧
      (∀ s, job.Reaches t { graph := g, world := w } s →
        (Retries s (job.step t s) → s.graph.Changed Reference.Raised (job.step t s).graph) ∧
        (¬ Retries s (job.step t s) → (job.step t s).graph = s.graph) ∧
        (∀ line g₁, s.graph.correctByLine line = (false, g₁) → g₁ = s.graph) ∧
        (∀ text g₁, s.graph.correctLoosely text = (false, g₁) → g₁ = s.graph)) ∧
      (∀ outcome, result = .ok outcome →
        w'.compileCalls + g.total Reference.selected =
          w.compileCalls + 1 + g'.total Reference.selected ∧
        ∀ archive compilerErrors archiverErrors corrections,
          outcome = .packaged archive compilerErrors archiverErrors corrections →
            corrections + g.total Reference.selected = g'.total Reference.selected) := by
  obtain ⟨s', result, reached, done, built⟩ := run_reaches job t { graph := g, world := w }
  have all (s : Progress σ) (h : job.Reaches t { graph := g, world := w } s) :
      Counted { graph := g, world := w } s := h.counted (.start inRange)
  obtain ⟨_, selected, untried, ⟨n, more, calls⟩, packaged⟩ := all s' reached
  simp only at selected untried calls
  refine ⟨result, s'.graph, s'.world, built, ⟨s', reached, done, rfl, rfl⟩, ?_, ?_, ?_⟩
  · have := more.le_one
    omega
  · intro s h
    have inRange := (all s h).inRange
    have step := step_spec job t s
    exact ⟨step.raised inRange, step.unchanged inRange,
      fun _ _ failed => Graph.advanceFirst_spec inRange failed,
      fun _ _ failed => Graph.advanceFirst_spec inRange failed⟩
  · rintro outcome rfl
    rw [done] at more
    obtain rfl : n = 1 := more
    refine ⟨by omega, ?_⟩
    rintro archive compilerErrors archiverErrors corrections rfl
    have := packaged _ _ _ _ done
    omega

end Job

/-- A reference to a name that two packages offer. -/
def Reference.ambiguous : Reference where
  raw := "List"
  candidates := [⟨"java.awt.List", ⟨"rt.jar"⟩⟩, ⟨"java.util.List", ⟨"rt.jar"⟩⟩]

/-- A graph whose entry has an ambiguous reference, and so has its donor. -/
def Graph.ambiguous : Graph where
  modules := [{
    identifier := "Main"
    references := [.ambiguous]
    donors := [{ identifier := "Base", references := [.ambiguous] }] }]
  entryIndex := some 0

/-- A job with a staging directory where the build is started. -/
def Job.scratch : Job := ⟨⟨⟨"job"⟩⟩, ⟨"Main.jar"⟩⟩

/-- A world in which there is that directory and nothing else. -/
def World.scratch : World Unit where
  files := { nodes := [(["job"], .directory)] }
  tools := ()

/-- Tools of which the compiler always says the same. -/
def Toolchain.stubborn (line : String) : Toolchain Unit where
  compile _ files tools := { result := .ok { stderr := [line] }, files, tools }
  archive _ files tools := { result := .ok {}, files, tools }

/-- The compiler complains of one name in every pass.  The first reference to it is moved to
    its other candidate and all is compiled again; then it has none left, and the build gives
    up. -/
theorem Job.build_within_untried_stubborn :
    Graph.ambiguous.InRange ∧ Graph.ambiguous.untried = 2 ∧
      (∃ s, Job.scratch.Reaches (.stubborn "A.java:1: error: List here")
          { graph := .ambiguous, world := .scratch } s ∧
        Retries s (Job.scratch.step (.stubborn "A.java:1: error: List here") s) ∧
        s.graph.Changed Reference.Raised
          (Job.scratch.step (.stubborn "A.java:1: error: List here") s).graph) ∧
      ∃ outcome g' w',
        Job.scratch.build (.stubborn "A.java:1: error: List here") .ambiguous .scratch =
          (.ok outcome, g', w') ∧
        g'.total Reference.selected = 1 ∧ w'.compileCalls = 2 ∧ w'.compileCalls ≤ 3 := by
  have inRange : Graph.ambiguous.InRange := by decide
  obtain ⟨result, g', w', built, -, few, steps, counts⟩ := Job.build_within_untried .scratch
    (.stubborn "A.java:1: error: List here") .ambiguous .scratch inRange
  refine ⟨inRange, by decide, ⟨_, Reaches.refl.next.next, ?_⟩, ?_⟩
  · exact ⟨⟨_, rfl, rfl⟩, (steps _ Reaches.refl.next.next).1 ⟨_, rfl, rfl⟩⟩
  · obtain ⟨_, same, ends, raised⟩ : ∃ b,
        Job.scratch.build (.stubborn "A.java:1: error: List here") .ambiguous .scratch = b ∧
        b.1.toOption = some (.failed "A.java:1: error: List here") ∧
        b.2.1.total Reference.selected = 1 := ⟨_, rfl, by decide +kernel⟩
    obtain rfl := same.symm.trans built
    cases result with
    | error e => cases ends
    | ok outcome =>
      obtain ⟨calls, -⟩ := counts outcome rfl
      refine ⟨outcome, g', w', built, raised, ?_, few⟩
      rw [raised] at calls
      exact calls

end ScriptJar

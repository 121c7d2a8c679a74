import ScriptJar.Proofs.BuildRun
import ScriptJar.Proofs.Generation

/-! # The log of a build

What a build did can be read off its log: which calls of the compiler and the archiver
there were, with the files they found and what they answered.  `Job.Accounts` says what
the log tells in each phase of a build, up to the outcome.

* `Job.Step.log` — only the step that compiles logs a call of the compiler;
* `Job.Reaches.called` — every such call was made in a state of the run;
* `Job.build_accounts` — what the log of a build tells about its result.
-/

namespace ScriptJar

/-! ## Calls of the tools -/

structure Compilation where
  request : CompileRequest
  /-- The files as the compiler found them. -/
  found : FileTree
  result : Except Failure CompileReport

structure Archiving where
  request : ArchiveRequest
  /-- The files as the archiver found them. -/
  found : FileTree
  result : Except Failure ArchiveReport

def Event.compilation? : Event → Option Compilation
  | .compiled request found result => some ⟨request, found, result⟩
  | _ => none

def Event.archiving? : Event → Option Archiving
  | .archived request found result => some ⟨request, found, result⟩
  | _ => none

def compilations (events : List Event) : List Compilation :=
  events.filterMap Event.compilation?

def archivings (events : List Event) : List Archiving :=
  events.filterMap Event.archiving?

theorem toOption_eq_some {ε α : Type} {x : Except ε α} {a : α} :
    x.toOption = some a ↔ x = .ok a := by
  cases x <;> simp [Except.toOption]

/-- The answer to the last call of the compiler, if it was a report. -/
def lastReport? (events : List Event) : Option CompileReport :=
  (compilations events).getLast?.bind (·.result.toOption)

section Events

variable (events more : List Event) (warnings : List Warning)

@[simp] theorem compilations_append :
    compilations (events ++ more) = compilations events ++ compilations more :=
  List.filterMap_append

@[simp] theorem archivings_append :
    archivings (events ++ more) = archivings events ++ archivings more :=
  List.filterMap_append

@[simp] theorem compilations_warned : compilations (warnings.map .warned) = [] := by
  simp [compilations, Event.compilation?]

@[simp] theorem archivings_warned : archivings (warnings.map .warned) = [] := by
  simp [archivings, Event.archiving?]

@[simp] theorem compilations_compiled (request : CompileRequest) (found : FileTree)
    (result : Except Failure CompileReport) :
    compilations (.compiled request found result :: events) =
      ⟨request, found, result⟩ :: compilations events := rfl

@[simp] theorem archivings_compiled (request : CompileRequest) (found : FileTree)
    (result : Except Failure CompileReport) :
    archivings (.compiled request found result :: events) = archivings events := rfl

@[simp] theorem compilations_archived (request : ArchiveRequest) (found : FileTree)
    (result : Except Failure ArchiveReport) :
    compilations (.archived request found result :: events) = compilations events := rfl

@[simp] theorem archivings_archived (request : ArchiveRequest) (found : FileTree)
    (result : Except Failure ArchiveReport) :
    archivings (.archived request found result :: events) =
      ⟨request, found, result⟩ :: archivings events := rfl

theorem warned_ne_compiled {front back : List Event} {request : CompileRequest}
    {found : FileTree} {answer : Except Failure CompileReport} :
    warnings.map .warned ≠ front ++ .compiled request found answer :: back := by
  intro same
  have none := compilations_warned warnings
  simp [same] at none

end Events

namespace World

variable {σ : Type} {w w' : World σ} {t : Toolchain σ}

theorem log_compile {request : CompileRequest} {result : Except Failure CompileReport}
    (h : w.compile t request = (result, w')) :
    (t.compile request w.files w.tools).result = result ∧
      ∃ warnings : List Warning,
        w'.log = w.log ++ .compiled request w.files result :: warnings.map .warned := by
  obtain ⟨rfl, rfl⟩ := Prod.mk.inj h
  exact ⟨rfl, _, rfl⟩

end World

namespace Job

variable {σ : Type} {job : Job} {t : Toolchain σ} {s s' s₀ : Progress σ} {g : Graph}

/-! ## What a step logs -/

/-- Only the step that compiles logs a call of the compiler: one, and first. -/
theorem Step.log (h : Step job t s s') :
    ∃ more, s'.world.log = s.world.log ++ more ∧
      ∀ front request found answer back, more = front ++ .compiled request found answer :: back →
        front = [] ∧ ∃ sources, s.phase = .compile sources ∧
          request = job.compileRequest s.graph sources ∧ found = s.world.files := by
  cases h with
  | written | unwritten | stopped => exact ⟨[], by simp [World.withFiles], by simp⟩
  | unlocated | corrected | gaveUp =>
    exact ⟨_, rfl, fun _ _ _ _ _ more => absurd more (warned_ne_compiled _)⟩
  | compiled called | uncompiled called =>
    obtain ⟨-, warnings, log⟩ := World.log_compile called
    refine ⟨_, log, fun front request found answer back more => ?_⟩
    cases front with
    | nil =>
      obtain ⟨⟨rfl, rfl, -⟩, -⟩ := by simpa using more
      exact ⟨rfl, _, rfl, rfl, rfl⟩
    | cons e front =>
      exact absurd (List.cons.inj more).2 (warned_ne_compiled warnings)
  | packaged done | unpackaged done =>
    rcases package_spec done with ⟨e, -, rfl⟩ | ⟨_, _, _, warnings, -, -, -, -, -, log⟩
    · exact ⟨[], by simp, by simp⟩
    · refine ⟨_, log, fun front request found answer back more => ?_⟩
      cases front with
      | nil => cases (List.cons.inj more).1
      | cons e front =>
        exact absurd (List.cons.inj more).2 (warned_ne_compiled warnings)

/-- Every call of the compiler in a run was made in a state of the run, for the graph and
    with the files of that state. -/
theorem Reaches.called (h : job.Reaches t s₀ s) {before after : List Event}
    {request : CompileRequest} {found : FileTree} {answer : Except Failure CompileReport}
    (logged : s.world.log =
      s₀.world.log ++ (before ++ .compiled request found answer :: after)) :
    ∃ s₁ sources, job.Reaches t s₀ s₁ ∧ s₁.phase = .compile sources ∧
      s₁.world.log = s₀.world.log ++ before ∧ s₁.world.files = found ∧
      request = job.compileRequest s₁.graph sources := by
  induction h generalizing after with
  | refl => simp at logged
  | @next s reached ih =>
    obtain ⟨more, step, calls⟩ := (step_spec job t s).log
    rw [step, ← List.append_assoc] at logged
    -- the call was logged by this step or before it
    rcases List.append_eq_append_iff.1 logged with ⟨front, whole, rest⟩ | ⟨back, earlier, rest⟩
    · obtain ⟨rfl, sources, phase, asked, files⟩ := calls _ _ _ _ _ rest
      exact ⟨s, sources, reached, phase, by simpa using whole.symm, files.symm, asked⟩
    · cases back with
      | nil =>
        obtain ⟨-, sources, phase, asked, files⟩ := calls [] _ _ _ _ (by simpa using rest.symm)
        exact ⟨s, sources, reached, phase, by simpa using earlier, files.symm, asked⟩
      | cons e back =>
        obtain ⟨rfl, -⟩ := List.cons.inj rest
        exact ih (by simpa using earlier)

/-! ## What the log tells -/

/-- The last call of the compiler was for a graph, and a report was the answer. -/
structure Answered (job : Job) (t : Toolchain σ) (g : Graph) (events : List Event)
    (last : Compilation) (report : CompileReport) : Prop where
  isLast : (compilations events).getLast? = some last
  request : last.request = job.compileRequest g (g.modules.map job.staging.sourceFile)
  result : last.result = .ok report
  answer : ∃ tools, (t.compile last.request last.found tools).result = .ok report

/-- The archiver was called once, for a graph, and found the manifest. -/
structure Packed (job : Job) (g : Graph) (events : List Event) (made : Archiving)
    (archiverErrors : List String) : Prop where
  only : archivings events = [made]
  result : made.result = .ok ⟨archiverErrors⟩
  request : made.request = job.archiveRequest g made.found
  manifest : ∃ entry, g.entry? = some entry ∧ made.found.readText job.staging.manifest =
    .ok (manifestText entry.qualifiedName g.selectedLibraries)

/-- What the log of a build tells in each phase. -/
def Accounts (job : Job) (t : Toolchain σ) (g : Graph) (files : FileTree) (events : List Event) :
    Phase → Prop
  | .generate => archivings events = []
  | .compile sources => archivings events = [] ∧ sources = g.modules.map job.staging.sourceFile ∧
    (job.Apart g.modules files → job.Staged g files)
  | .diagnose report => archivings events = [] ∧ ∃ last, job.Answered t g events last report
  | .archive errors => archivings events = [] ∧ ∃ last report, job.Answered t g events last report ∧
    Diagnostic.first? report.stderr = none ∧ errors = unlocatedErrors report
  | .done (.ok (.packaged _ compilerErrors archiverErrors _)) =>
    ∃ last report made, job.Answered t g events last report ∧
      Diagnostic.first? report.stderr = none ∧ compilerErrors = unlocatedErrors report ∧
      job.Packed g events made archiverErrors
  | .done (.ok (.failed text)) => archivings events = [] ∧
    ∃ g₁ last report, job.Answered t g₁ events last report ∧
      text = "\n".intercalate report.stderr
  | .done (.error _) => True

theorem Answered.lastReport? {events : List Event} {last : Compilation} {report : CompileReport}
    (h : job.Answered t g events last report) : lastReport? events = some report := by
  simp [ScriptJar.lastReport?, h.isLast, h.result, Except.toOption]

theorem Answered.append {events more : List Event} {last : Compilation} {report : CompileReport}
    (h : job.Answered t g events last report) (quiet : compilations more = []) :
    job.Answered t g (events ++ more) last report :=
  ⟨by simpa [quiet] using h.isLast, h.request, h.result, h.answer⟩

theorem answered_compile {w w' : World σ} {report : CompileReport} (events : List Event)
    (h : w.compile t (job.compileRequest g (g.modules.map job.staging.sourceFile)) =
      (.ok report, w')) :
    ∃ more last, w'.log = w.log ++ more ∧ archivings more = [] ∧
      job.Answered t g (events ++ more) last report := by
  obtain ⟨answer, warnings, log⟩ := World.log_compile h
  let last : Compilation :=
    ⟨job.compileRequest g (g.modules.map job.staging.sourceFile), w.files, .ok report⟩
  exact ⟨_, last, log, by simp, by simp [last], rfl, rfl, w.tools, answer⟩

theorem packed_package {w w' : World σ} {events : List Event} {archiverErrors : List String}
    (fresh : archivings events = []) (h : job.package t g w = (.ok archiverErrors, w')) :
    ∃ more made, w'.log = w.log ++ more ∧ compilations more = [] ∧
      job.Packed g (events ++ more) made archiverErrors := by
  rcases package_spec h with
    ⟨e, failed, -⟩ | ⟨m, files, reply, warnings, entry, written, -, done, -, log⟩
  · cases failed
  · cases answer : reply.result with
    | error e =>
      rw [answer] at done
      cases done
    | ok report =>
      rw [answer] at done
      cases done
      let made : Archiving := ⟨job.archiveRequest g files, files, reply.result⟩
      exact ⟨_, made, log, by simp, by simp [fresh, made], answer, rfl, m, entry,
        FileTree.readText_of_written written⟩

/-- What is known along a run from `s₀`: the modules are the same, and the log has grown
    by what the phase tells. -/
structure Recorded (job : Job) (t : Toolchain σ) (s₀ s : Progress σ) : Prop where
  alike : s₀.graph.Alike s.graph
  log : ∃ events, s.world.log = s₀.world.log ++ events ∧
    job.Accounts t s.graph s.world.files events s.phase

theorem Recorded.start (job : Job) (t : Toolchain σ) (g : Graph) (w : World σ) :
    job.Recorded t { graph := g, world := w } { graph := g, world := w } :=
  ⟨.refl g, [], by simp, rfl⟩

theorem Step.recorded (h : Step job t s s') (recorded : job.Recorded t s₀ s) :
    job.Recorded t s₀ s' := by
  obtain ⟨alike, events, log, accounts⟩ := recorded
  -- a report stays the last one until the sources are written again
  cases h with
  | @written _ _ _ _ files done =>
    obtain ⟨sources, stays, -⟩ := generate_spec done
    refine ⟨alike, events, log, accounts, sources, fun apart m member => ?_⟩
    exact generate_own done (apart.congr rfl stays.symm) member
  | unwritten => exact ⟨alike, events, log, trivial⟩
  | compiled called =>
    obtain ⟨fresh, sources, -⟩ := accounts
    rw [sources] at called
    obtain ⟨more, last, grown, quiet, answered⟩ := answered_compile events called
    exact ⟨alike, _, by rw [grown, log, List.append_assoc], by simp [fresh, quiet], last, answered⟩
  | uncompiled called =>
    obtain ⟨-, warnings, grown⟩ := World.log_compile called
    exact ⟨alike, _, by rw [grown, log, List.append_assoc], trivial⟩
  | unlocated none =>
    obtain ⟨fresh, last, answered⟩ := accounts
    exact ⟨alike, _, by rw [World.warn, log, List.append_assoc], by simp [fresh], last, _,
      answered.append (by simp), none, rfl⟩
  | corrected first moved =>
    obtain ⟨fresh, -⟩ := accounts
    refine ⟨alike.trans (Graph.correct_alike moved), _,
      by rw [World.warn, log, List.append_assoc], ?_⟩
    simpa [Accounts] using fresh
  | gaveUp first failed =>
    obtain ⟨fresh, last, answered⟩ := accounts
    exact ⟨alike.trans (Graph.correct_alike failed), _, by rw [World.warn, log, List.append_assoc],
      by simp [fresh], _, last, _, answered.append (by simp), rfl⟩
  | packaged done =>
    obtain ⟨fresh, last, report, answered, none, rfl⟩ := accounts
    obtain ⟨more, made, grown, quiet, packed⟩ := packed_package fresh done
    exact ⟨alike, _, by rw [grown, log, List.append_assoc], last, report, made,
      answered.append quiet, none, rfl, packed⟩
  | unpackaged failed =>
    obtain ⟨more, grown, -⟩ := (Step.unpackaged failed).log
    exact ⟨alike, _, by rw [grown, log, List.append_assoc], trivial⟩
  | stopped => exact ⟨alike, events, log, accounts⟩

theorem Reaches.recorded (h : job.Reaches t s₀ s) (start : job.Recorded t s₀ s₀) :
    job.Recorded t s₀ s :=
  h.invariant start fun s => (step_spec job t s).recorded

/-- The log of a build accounts for its result. -/
theorem build_accounts {w w' : World σ} {g' : Graph} {result : Except Failure Outcome}
    (built : job.build t g w = (result, g', w')) :
    ∃ events, w'.log = w.log ++ events ∧ g.Alike g' ∧
      job.Accounts t g' w'.files events (.done result) := by
  obtain ⟨n, reached⟩ := reaches_of_build built
  obtain ⟨alike, events, log, accounts⟩ := reached.recorded (.start job t g w)
  exact ⟨events, log, alike, accounts⟩

/-! ## The state of the tools -/

theorem Step.tools {P : σ → Prop} (h : Step job t s s')
    (compile : ∀ request files tools, P tools → P (t.compile request files tools).tools)
    (archive : ∀ request files tools, P tools → P (t.archive request files tools).tools)
    (before : P s.world.tools) : P s'.world.tools := by
  cases h with
  | compiled called | uncompiled called =>
    obtain ⟨-, rfl⟩ := Prod.mk.inj called
    exact compile _ _ _ before
  | packaged done | unpackaged done =>
    rcases package_spec done with ⟨_, -, rfl⟩ | ⟨_, files, _, _, -, -, rfl, -, tools, -⟩
    · exact before
    · rw [tools]
      exact archive _ files _ before
  | _ => exact before

/-- What the calls of the compiler and the archiver keep, a run keeps. -/
theorem Reaches.tools {P : σ → Prop} (h : job.Reaches t s₀ s)
    (compile : ∀ request files tools, P tools → P (t.compile request files tools).tools)
    (archive : ∀ request files tools, P tools → P (t.archive request files tools).tools)
    (start : P s₀.world.tools) : P s.world.tools :=
  h.invariant (P := fun s => P s.world.tools) start
    fun s => (step_spec job t s).tools compile archive

end Job

end ScriptJar

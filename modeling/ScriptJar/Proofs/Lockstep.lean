import ScriptJar.Proofs.BuildLog
import ScriptJar.Proofs.Rejection

/-! # What a build sees of a report

Of the lines that the compiler writes in a pass, a build acts on the first one that points
at an error, and on no other.  Two compilers that agree on that line in every pass, and
change the files in the same way, take a build through the same phases.

* `CompileReport.Matches` — reports that differ in lines that do not matter;
* `Job.Progress.Alike.step` — one step of each of two builds, phase by phase;
* `Job.Abreast.paired` — two builds after equally many steps;
* `Job.build_lockstep` — two whole builds.
-/

namespace ScriptJar

variable {σ σ' : Type}

/-! ## Reports -/

/-- No line points at an error. -/
def Silent (lines : List String) : Prop :=
  ∀ line ∈ lines, Diagnostic.parse? line = none

/-- The first line that points at an error is the same in both reports, whatever else they
    say before it and after it, or neither report has one.  Whether the compiler succeeded
    does not matter. -/
inductive CompileReport.Matches (report report' : CompileReport) : Prop where
  | located {before before' after after' : List String} {line : String} :
      Silent before → Silent before' → (Diagnostic.parse? line).isSome = true →
      report.stderr = before ++ line :: after → report'.stderr = before' ++ line :: after' →
      Matches report report'
  | unlocated : Silent report.stderr → Silent report'.stderr → Matches report report'

theorem first?_silent {lines : List String} (silent : Silent lines) :
    Diagnostic.first? lines = none :=
  List.findSome?_eq_none_iff.2 silent

theorem first?_located {before : List String} {line : String} (silent : Silent before)
    (located : (Diagnostic.parse? line).isSome = true) (after : List String) :
    Diagnostic.first? (before ++ line :: after) = Diagnostic.parse? line := by
  obtain ⟨d, parsed⟩ := Option.isSome_iff_exists.1 located
  have nothing : before.findSome? Diagnostic.parse? = none := first?_silent silent
  simp [Diagnostic.first?, List.findSome?_append, nothing, parsed]

theorem CompileReport.Matches.first? {report report' : CompileReport}
    (h : report.Matches report') :
    Diagnostic.first? report.stderr = Diagnostic.first? report'.stderr := by
  cases h with
  | located silent silent' located lines lines' =>
    rw [lines, lines', first?_located silent located, first?_located silent' located]
  | unlocated silent silent' => rw [first?_silent silent, first?_silent silent']

/-- Two answers are both failures, or both results that a relation relates. -/
def SameSort {α β : Type} (R : α → β → Prop) : Except Failure α → Except Failure β → Prop
  | .ok a, .ok b => R a b
  | .error _, .error _ => True
  | _, _ => False

theorem SameSort.cases {α β : Type} {R : α → β → Prop} {x : Except Failure α}
    {y : Except Failure β} (h : SameSort R x y) :
    (∃ e e', x = .error e ∧ y = .error e') ∨ ∃ a b, x = .ok a ∧ y = .ok b ∧ R a b := by
  cases x with
  | error e =>
    cases y with
    | error e' => exact .inl ⟨e, e', rfl, rfl⟩
    | ok b => cases h
  | ok a =>
    cases y with
    | error e' => cases h
    | ok b => exact .inr ⟨a, b, rfl, rfl, h⟩

/-- Two outcomes differ in the texts of the compiler at most. -/
def Outcome.SameKind : Outcome → Outcome → Prop
  | .packaged archive _ archiverErrors corrections,
    .packaged archive' _ archiverErrors' corrections' =>
    archive = archive' ∧ archiverErrors = archiverErrors' ∧ corrections = corrections'
  | .failed _, .failed _ => True
  | _, _ => False

namespace World

/-- What the compiler was asked, in order. -/
def requests (w : World σ) : List CompileRequest :=
  (compilations w.log).map Compilation.request

@[simp] theorem requests_warn (w : World σ) (warnings : List Warning) :
    (w.warn warnings).requests = w.requests := by
  simp [requests, warn]

@[simp] theorem requests_withFiles (w : World σ) (files : FileTree) :
    (w.withFiles files).requests = w.requests := rfl

theorem requests_compile {w w' : World σ} {t : Toolchain σ} {request : CompileRequest}
    {result : Except Failure CompileReport} (h : w.compile t request = (result, w')) :
    w'.requests = w.requests ++ [request] := by
  obtain ⟨-, warnings, log⟩ := log_compile h
  simp [requests, log]

end World

namespace Job

variable {job : Job} {t : Toolchain σ} {t' : Toolchain σ'}
  {s₀ s : Progress σ} {s₀' s' : Progress σ'}

/-- What a build asks the compiler in its next step. -/
def asks (job : Job) (s : Progress σ) : List CompileRequest :=
  match s.phase with
  | .compile sources => [job.compileRequest s.graph sources]
  | _ => []

theorem result?_of_asks {request : CompileRequest} (asked : request ∈ job.asks s) :
    s.phase.result? = none := by
  unfold asks at asked
  split at asked
  · next phase => rw [phase]; rfl
  · cases asked

theorem requests_package {g : Graph} {w w' : World σ} {result : Except Failure (List String)}
    (h : job.package t g w = (result, w')) : w'.requests = w.requests := by
  rcases package_spec h with ⟨_, -, rfl⟩ | ⟨_, _, _, warnings, -, -, -, -, -, log⟩
  · rfl
  · simp [World.requests, log]

theorem requests_step (job : Job) (t : Toolchain σ) (s : Progress σ) :
    (job.step t s).world.requests = s.world.requests ++ job.asks s := by
  have step := step_spec job t s
  generalize job.step t s = s₁ at step ⊢
  cases step with
  | compiled called | uncompiled called => exact World.requests_compile called
  | packaged done | unpackaged done => simp [asks, requests_package done]
  | _ => simp [asks]

/-! ## Two builds -/

/-- The call of the compiler that comes after `n` others in a run: what it is asked, and the
    files and the state of the tools that it finds. -/
def Calls (job : Job) (t : Toolchain σ) (s₀ : Progress σ) (n : Nat) (request : CompileRequest)
    (found : FileTree) (tools : σ) : Prop :=
  ∃ s, job.Reaches t s₀ s ∧ request ∈ job.asks s ∧
    s.world.requests.length = s₀.world.requests.length + n ∧
    found = s.world.files ∧ tools = s.world.tools

/-- The state of the tools when a run comes to packing the classes. -/
def Packs (job : Job) (t : Toolchain σ) (s₀ : Progress σ) (tools : σ) : Prop :=
  ∃ s errors, job.Reaches t s₀ s ∧ s.phase = .archive errors ∧ tools = s.world.tools

/-- Tools that a build cannot tell apart.  The calls of the compiler that come after equally
    many others, if they are for the same sources in the same files, have reports that match
    and change the files in the same way, and the archivers answer alike. -/
structure Indistinct (job : Job) (t : Toolchain σ) (t' : Toolchain σ') (s₀ : Progress σ)
    (s₀' : Progress σ') : Prop where
  compile : ∀ n request found tools tools',
    job.Calls t s₀ n request found tools → job.Calls t' s₀' n request found tools' →
    SameSort CompileReport.Matches (t.compile request found tools).result
        (t'.compile request found tools').result ∧
      (t.compile request found tools).files = (t'.compile request found tools').files
  archive : ∀ tools tools', job.Packs t s₀ tools → job.Packs t' s₀' tools' →
    ∀ request found,
      (t.archive request found tools).result = (t'.archive request found tools').result

/-- Two phases in which the same is done next. -/
def Phase.Alike : Phase → Phase → Prop
  | .generate, .generate => True
  | .compile sources, .compile sources' => sources = sources'
  | .diagnose report, .diagnose report' => report.Matches report'
  | .archive _, .archive _ => True
  | .done result, .done result' => SameSort Outcome.SameKind result result'
  | _, _ => False

/-- Two builds are at the same point, with the same selections. -/
structure Progress.Alike (s : Progress σ) (s' : Progress σ') : Prop where
  phase : s.phase.Alike s'.phase
  graph : s.graph = s'.graph
  corrections : s.corrections = s'.corrections
  files : s.phase.result? = none → s.world.files = s'.world.files

/-- Two builds after equally many steps. -/
inductive Abreast (job : Job) (t : Toolchain σ) (t' : Toolchain σ') (s₀ : Progress σ)
    (s₀' : Progress σ') : Progress σ → Progress σ' → Prop where
  | start : Abreast job t t' s₀ s₀' s₀ s₀'
  | next {s : Progress σ} {s' : Progress σ'} : Abreast job t t' s₀ s₀' s s' →
      Abreast job t t' s₀ s₀' (job.step t s) (job.step t' s')

theorem Abreast.reaches (h : job.Abreast t t' s₀ s₀' s s') :
    job.Reaches t s₀ s ∧ job.Reaches t' s₀' s' := by
  induction h with
  | start => exact ⟨.refl, .refl⟩
  | next _ ih => exact ⟨ih.1.next, ih.2.next⟩

theorem Reaches.abreast (h : job.Reaches t s₀ s) (t' : Toolchain σ') (s₀' : Progress σ') :
    ∃ s', job.Abreast t t' s₀ s₀' s s' := by
  induction h with
  | refl => exact ⟨s₀', .start⟩
  | next _ ih =>
    obtain ⟨s', abreast⟩ := ih
    exact ⟨_, abreast.next⟩

/-- Two builds at the same point, which have asked the compiler the same. -/
structure Paired (s₀ : Progress σ) (s₀' : Progress σ') (s : Progress σ) (s' : Progress σ') :
    Prop where
  alike : s.Alike s'
  asked : ∃ asked, s.world.requests = s₀.world.requests ++ asked ∧
    s'.world.requests = s₀'.world.requests ++ asked

/-! ## One step of each -/

theorem Progress.Alike.asks (h : s.Alike s') : job.asks s = job.asks s' := by
  obtain ⟨phase, n, g, w⟩ := s
  obtain ⟨phase', n', g', w'⟩ := s'
  obtain ⟨alike, graph, -, -⟩ := h
  simp only at alike graph
  cases phase <;> cases phase' <;> simp_all [Job.asks, Phase.Alike]

theorem package_congr (job : Job) {g : Graph} {w : World σ} {w' : World σ'}
    (files : w.files = w'.files) (archive : ∀ request found,
      (t.archive request found w.tools).result = (t'.archive request found w'.tools).result) :
    (job.package t g w).1 = (job.package t' g w').1 := by
  unfold package
  cases g.entry? with
  | none => rfl
  | some m =>
    simp only [← files]
    cases w.files.writeText job.staging.manifest
        (manifestText m.qualifiedName g.selectedLibraries) with
    | error e => rfl
    | ok written =>
      have same := archive (job.archiveRequest g written) written
      simp only [World.archive, World.withFiles, same]
      cases (t'.archive (job.archiveRequest g written) written w'.tools).result with
      | error e => rfl
      | ok report => rfl

section Phases

variable {n : Nat} {g : Graph} {w : World σ} {w' : World σ'}

theorem alike_generate (files : w.files = w'.files) :
    (job.step t ⟨.generate, n, g, w⟩).Alike (job.step t' ⟨.generate, n, g, w'⟩) := by
  rcases written : job.generate g.modules w.files with ⟨_ | sources, later⟩
  · simp only [step, ← files, written]
    exact ⟨trivial, rfl, rfl, fun _ => rfl⟩
  · simp only [step, ← files, written]
    exact ⟨rfl, rfl, rfl, fun _ => rfl⟩

theorem alike_compile {sources : List Path}
    (answers : SameSort CompileReport.Matches
      (t.compile (job.compileRequest g sources) w.files w.tools).result
      (t'.compile (job.compileRequest g sources) w'.files w'.tools).result)
    (changed : (t.compile (job.compileRequest g sources) w.files w.tools).files =
      (t'.compile (job.compileRequest g sources) w'.files w'.tools).files) :
    (job.step t ⟨.compile sources, n, g, w⟩).Alike
      (job.step t' ⟨.compile sources, n, g, w'⟩) := by
  simp only [step, World.compile]
  rcases answers.cases with ⟨e, e', failed, failed'⟩ | ⟨report, report', answer, answer', same⟩
  · rw [failed, failed']
    exact ⟨trivial, rfl, rfl, fun _ => changed⟩
  · rw [answer, answer']
    exact ⟨same, rfl, rfl, fun _ => changed⟩

/-- The diagnostic and the files that it points into are all that counts. -/
theorem alike_diagnose {report report' : CompileReport} (same : report.Matches report')
    (files : w.files = w'.files) :
    (job.step t ⟨.diagnose report, n, g, w⟩).Alike
      (job.step t' ⟨.diagnose report', n, g, w'⟩) := by
  cases found : Diagnostic.first? report.stderr with
  | none =>
    simp only [step, ← same.first?, found]
    exact ⟨trivial, rfl, rfl, fun _ => files⟩
  | some d =>
    rcases corrected : g.correct w.files d with ⟨_ | _, g₁, warnings⟩
    · simp only [step, ← same.first?, found, ← files, corrected]
      exact ⟨trivial, rfl, rfl, fun _ => files⟩
    · simp only [step, ← same.first?, found, ← files, corrected]
      exact ⟨trivial, rfl, rfl, fun _ => files⟩

theorem alike_archive {errors errors' : List String} (files : w.files = w'.files)
    (archive : ∀ request found,
      (t.archive request found w.tools).result = (t'.archive request found w'.tools).result) :
    (job.step t ⟨.archive errors, n, g, w⟩).Alike
      (job.step t' ⟨.archive errors', n, g, w'⟩) := by
  have results := package_congr job (g := g) files archive
  rcases packed : job.package t g w with ⟨result, w₁⟩
  rcases packed' : job.package t' g w' with ⟨result', w₁'⟩
  rw [packed, packed'] at results
  obtain rfl : result = result' := results
  cases result with
  | error e =>
    simp only [step, packed, packed']
    exact ⟨trivial, rfl, rfl, fun going => by cases going⟩
  | ok said =>
    simp only [step, packed, packed']
    exact ⟨⟨rfl, rfl, rfl⟩, rfl, rfl, fun going => by cases going⟩

end Phases

/-- Builds that are at the same point are so after one more step of each, if the tools that
    are called in it cannot be told apart. -/
theorem Progress.Alike.step (h : s.Alike s')
    (compile : ∀ request ∈ job.asks s,
      SameSort CompileReport.Matches (t.compile request s.world.files s.world.tools).result
          (t'.compile request s'.world.files s'.world.tools).result ∧
        (t.compile request s.world.files s.world.tools).files =
          (t'.compile request s'.world.files s'.world.tools).files)
    (archive : ∀ errors errors', s.phase = .archive errors → s'.phase = .archive errors' →
      ∀ request found, (t.archive request found s.world.tools).result =
        (t'.archive request found s'.world.tools).result) :
    (job.step t s).Alike (job.step t' s') := by
  obtain ⟨phase, n, g, w⟩ := s
  obtain ⟨phase', n', g', w'⟩ := s'
  obtain ⟨alike, graph, corrections, files⟩ := h
  simp only at alike graph corrections files compile archive
  subst graph corrections
  cases phase with
  | generate =>
    cases phase' with
    | generate => exact alike_generate (files rfl)
    | _ => cases alike
  | compile sources =>
    cases phase' with
    | compile sources' =>
      obtain rfl : sources = sources' := alike
      obtain ⟨answers, changed⟩ := compile _ List.mem_cons_self
      exact alike_compile answers changed
    | _ => cases alike
  | diagnose report =>
    cases phase' with
    | diagnose report' => exact alike_diagnose alike (files rfl)
    | _ => cases alike
  | archive errors =>
    cases phase' with
    | archive errors' => exact alike_archive (files rfl) (archive _ _ rfl rfl)
    | _ => cases alike
  | done result =>
    cases phase' with
    | done result' => exact ⟨alike, rfl, rfl, files⟩
    | _ => cases alike

/-! ## Whole runs -/

theorem Paired.next (same : job.Indistinct t t' s₀ s₀') (reached : job.Reaches t s₀ s)
    (reached' : job.Reaches t' s₀' s') (paired : Paired s₀ s₀' s s') :
    Paired s₀ s₀' (job.step t s) (job.step t' s') := by
  obtain ⟨alike, asked, before, before'⟩ := paired
  refine ⟨alike.step (fun request member => ?_) (fun errors errors' phase phase' => ?_),
    asked ++ job.asks s, ?_, ?_⟩
  · have files := alike.files (result?_of_asks member)
    have calls : job.Calls t s₀ asked.length request s.world.files s.world.tools :=
      ⟨s, reached, member, by simp [before], rfl, rfl⟩
    have calls' : job.Calls t' s₀' asked.length request s.world.files s'.world.tools :=
      ⟨s', reached', alike.asks ▸ member, by simp [before'], files, rfl⟩
    rw [← files]
    exact same.compile _ _ _ _ _ calls calls'
  · exact same.archive _ _ ⟨s, errors, reached, phase, rfl⟩ ⟨s', errors', reached', phase', rfl⟩
  · rw [requests_step, before, List.append_assoc]
  · rw [requests_step, before', alike.asks, List.append_assoc]

theorem Abreast.paired (same : job.Indistinct t t' s₀ s₀') (start : s₀.Alike s₀')
    (h : job.Abreast t t' s₀ s₀' s s') : Paired s₀ s₀' s s' := by
  induction h with
  | start => exact ⟨start, [], by simp, by simp⟩
  | next abreast ih => exact ih.next same abreast.reaches.1 abreast.reaches.2

theorem run_step (job : Job) (t : Toolchain σ) (s : Progress σ) :
    job.run t (job.step t s) = job.run t s := by
  cases finished : s.phase.result? with
  | some result => rw [step_finished job t (by simp [finished])]
  | none =>
    conv => rhs; unfold run
    split
    · simp_all
    · rfl

/-- A build returns whatever state it reaches in which it is done. -/
theorem Reaches.run_eq {result : Except Failure Outcome} (h : job.Reaches t s₀ s)
    (done : s.phase = .done result) : job.run t s₀ = (result, s.graph, s.world) := by
  have same : job.run t s = job.run t s₀ :=
    h.invariant (P := fun s => job.run t s = job.run t s₀) rfl
      fun s ih => (run_step job t s).trans ih
  have finished : s.phase.result? = some result := by rw [done]; rfl
  rw [← same]
  unfold run
  split
  · simp_all
  · simp_all

/-- Two compilers agree, in every pass, on the first line that points at an error or on
    there being none, and change the files in the same way; the archivers answer alike.
    Then builds of the same graph in the same files ask the compilers the same, make the
    same selections all along, and end in the same way, after equally many corrections. -/
theorem build_lockstep (job : Job) (t : Toolchain σ) (t' : Toolchain σ') (g : Graph)
    (w : World σ) (w' : World σ') (files : w.files = w'.files)
    (same : job.Indistinct t t' { graph := g, world := w } { graph := g, world := w' }) :
    ∃ result result' g₁ w₁ w₁' asked,
      job.build t g w = (result, g₁, w₁) ∧ job.build t' g w' = (result', g₁, w₁') ∧
      SameSort Outcome.SameKind result result' ∧
      w₁.requests = w.requests ++ asked ∧ w₁'.requests = w'.requests ++ asked ∧
      ∀ s s', job.Abreast t t' { graph := g, world := w } { graph := g, world := w' } s s' →
        s.Alike s' ∧ ∃ asked, s.world.requests = w.requests ++ asked ∧
          s'.world.requests = w'.requests ++ asked := by
  have all {s s'}
      (h : job.Abreast t t' { graph := g, world := w } { graph := g, world := w' } s s') :=
    h.paired same ⟨trivial, rfl, rfl, fun _ => files⟩
  obtain ⟨s, result, reached, done, built⟩ := run_reaches job t { graph := g, world := w }
  obtain ⟨s', abreast⟩ := reached.abreast t' { graph := g, world := w' }
  obtain ⟨⟨alike, graph, -, -⟩, asked, requests, requests'⟩ := all abreast
  -- the other build is done after as many steps
  rw [done] at alike
  cases done' : s'.phase with
  | done result' =>
    rw [done'] at alike
    refine ⟨result, result', s.graph, s.world, s'.world, asked, built, ?_, alike, requests,
      requests', fun s s' h => ⟨(all h).alike, (all h).asked⟩⟩
    rw [graph]
    exact abreast.reaches.2.run_eq done'
  | _ =>
    rw [done'] at alike
    cases alike

end Job

/-- A report with a note before all else and, where there is an error to point at, another
    one after it. -/
def CompileReport.chatty (report : CompileReport) : CompileReport :=
  { report with
    stderr := "Note: recompile with -Xlint" :: report.stderr ++
      match Diagnostic.first? report.stderr with
      | none => ["1 warning"]
      | some _ => ["Other.java:9: error: cannot find symbol"] }

/-- Tools whose compiler says more. -/
def Toolchain.chatty (t : Toolchain σ) : Toolchain σ where
  compile request files tools :=
    let reply := t.compile request files tools
    { reply with result := reply.result.map CompileReport.chatty }
  archive := t.archive

theorem CompileReport.matches_chatty (report : CompileReport) : report.Matches report.chatty := by
  have note {lines : List String} (silent : Silent lines) :
      Silent ("Note: recompile with -Xlint" :: lines) :=
    List.forall_mem_cons.2 ⟨by decide +kernel, silent⟩
  cases first : Diagnostic.first? report.stderr with
  | none =>
    have silent : Silent report.stderr := List.findSome?_eq_none_iff.1 first
    refine .unlocated silent ?_
    simp only [chatty, first, List.cons_append]
    refine note (List.forall_mem_append.2 ⟨silent, List.forall_mem_singleton.2 ?_⟩)
    decide +kernel
  | some d =>
    obtain ⟨before, line, after, lines, parsed, silent⟩ := List.findSome?_eq_some_iff.1 first
    have whole : report.chatty.stderr = ("Note: recompile with -Xlint" :: before) ++
        line :: (after ++ ["Other.java:9: error: cannot find symbol"]) := by
      simp only [chatty, first]
      simp [lines]
    exact .located silent (note silent) (by rw [parsed]; rfl) lines whole

theorem Job.indistinct_chatty (job : Job) (t : Toolchain Unit) (s₀ s₀' : Progress Unit) :
    job.Indistinct t t.chatty s₀ s₀' where
  compile _ request found _ _ _ _ := by
    refine ⟨?_, rfl⟩
    simp only [Toolchain.chatty]
    cases (t.compile request found ()).result with
    | error e => trivial
    | ok report => exact report.matches_chatty
  archive _ _ _ _ _ _ := rfl

/-- Two corrections, told by a compiler that says what has to be said and by one that says more. -/
theorem Job.build_lockstep_chatty :
    ∃ (t : Toolchain Unit) (result result' : Except Failure Outcome) (g₁ : Graph)
      (w₁ w₁' : World Unit),
      Job.scratch.Indistinct t t.chatty { graph := .ambiguous, world := .scratch }
        { graph := .ambiguous, world := .scratch } ∧
      Job.scratch.build t .ambiguous .scratch = (result, g₁, w₁) ∧
      Job.scratch.build t.chatty .ambiguous .scratch = (result', g₁, w₁') ∧
      result = .ok (.packaged ⟨"Main.jar"⟩ [] [] 2) ∧ SameSort Outcome.SameKind result result' ∧
      w₁'.requests = w₁.requests := by
  have same := Job.scratch.indistinct_chatty (.rejecting (· == "java.awt.List"))
    { graph := .ambiguous, world := .scratch } { graph := .ambiguous, world := .scratch }
  obtain ⟨result, result', g₁, w₁, w₁', asked, built, built', kind, requests, requests', -⟩ :=
    Job.build_lockstep .scratch _ _ .ambiguous .scratch .scratch rfl same
  have packaged :
      (Job.scratch.build (.rejecting (· == "java.awt.List")) .ambiguous .scratch).1.toOption =
        some (.packaged ⟨"Main.jar"⟩ [] [] 2) := by decide +kernel
  rw [built] at packaged
  exact ⟨_, result, result', g₁, w₁, w₁', same, built, built', toOption_eq_some.1 packaged, kind,
    by rw [requests, requests']⟩

end ScriptJar

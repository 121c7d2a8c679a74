import ScriptJar.Build.Correction
import ScriptJar.Build.Package
import ScriptJar.Build.Staging
import ScriptJar.Build.World
import ScriptJar.JavaSource

/-! # Building a graph

`Job.build` writes the sources of a graph, has them compiled, and packs the
classes.  When the compiler points at an error, another candidate is tried for one
reference and everything is compiled anew; only the first error of a pass counts.
Nothing counts the passes: the build ends because each of them leaves one candidate
less to try.

* `Job.generate` — writing the sources;
* `Job.package` — the archive;
* `Job.step` — from one phase of a build to the next;
* `Job.build` — steps until the build is done.
-/

namespace ScriptJar

inductive Outcome where
  /-- The archive was made.  The compiler's lines are those of a last pass that
      failed without pointing at an error. -/
  | packaged (archive : Path) (compilerErrors archiverErrors : List String)
    (corrections : Nat)
  /-- The compiler's error output, when no correction was left. -/
  | failed (diagnostics : String)
  deriving DecidableEq, Repr

/-- Whether the archive was made and neither tool complained. -/
def Outcome.isRunnable : Outcome → Bool
  | .packaged _ compilerErrors archiverErrors _ =>
    compilerErrors.isEmpty && archiverErrors.isEmpty
  | .failed _ => false

structure Job where
  staging : Staging
  archive : Path
  deriving DecidableEq, Repr

abbrev Built (σ : Type) := Except Failure Outcome × Graph × World σ

namespace Job

variable {σ : Type}

/-! ## Sources -/

/-- Goes on from the answer of an operation that succeeded, with the tree it left. -/
def andThen {α β : Type} (first : Except Failure α × FileTree)
    (go : α → FileTree → Except Failure β × FileTree) : Except Failure β × FileTree :=
  match first with
  | (.error e, files) => (.error e, files)
  | (.ok a, files) => go a files

def generate (job : Job) : List Module → FileTree → Except Failure (List Path) × FileTree
  | [], files => (.ok [], files)
  | m :: ms, files =>
    andThen (job.staging.writeSource m m.javaText files) fun file files =>
      andThen (generate job ms files) fun sources files => (.ok (file :: sources), files)

def compileRequest (job : Job) (g : Graph) (sources : List Path) : CompileRequest :=
  { classpath := g.selectedLibraries, output := job.staging.classes, sources }

/-! ## The archive -/

def archiveRequest (job : Job) (g : Graph) (files : FileTree) : ArchiveRequest where
  archive := job.archive
  manifest := job.staging.manifest
  classes := job.staging.classes
  entries := g.modules.flatMap (Module.classEntries files job.staging.classes)

/-- Writes the manifest and makes the archive; gives the archiver's error output. -/
def package (job : Job) (t : Toolchain σ) (g : Graph) (w : World σ) :
    Except Failure (List String) × World σ :=
  match g.entry? with
  | none => (.error .noEntryModule, w)
  | some entry =>
    let manifest := job.staging.manifest
    match w.files.writeText manifest (manifestText entry.qualifiedName g.selectedLibraries) with
    | .error e => (.error (e.during (.writing manifest)), w)
    | .ok files =>
      match (w.withFiles files).archive t (job.archiveRequest g files) with
      | (.error e, w) => (.error e, w)
      | (.ok report, w) =>
        let count := report.stderr.length
        (.ok report.stderr,
          w.warn (if count = 0 then [] else [.archiverErrors count job.archive]))

/-! ## Phases -/

/-- The lines that a pass without diagnostic counts as errors. -/
def unlocatedErrors (report : CompileReport) : List String :=
  if report.success then [] else report.stderr

def unlocatedWarnings (report : CompileReport) : List Warning :=
  if report.success then []
  else .compilerFailed report.timedOut :: report.stderr.map .compilerLine

def giveUp (report : CompileReport) : Outcome :=
  .failed ("\n".intercalate report.stderr)

inductive Phase where
  | generate
  | compile (sources : List Path)
  | diagnose (report : CompileReport)
  /-- Pack the classes; the lines are what the last pass counts as errors. -/
  | archive (compilerErrors : List String)
  | done (result : Except Failure Outcome)

def Phase.result? : Phase → Option (Except Failure Outcome)
  | .done result => some result
  | _ => none

/-- How many phases can follow before the sources are written again. -/
def Phase.rank : Phase → Nat
  | .generate => 4
  | .compile _ => 3
  | .diagnose _ => 2
  | .archive _ => 1
  | .done _ => 0

structure Progress (σ : Type) where
  phase : Phase := .generate
  corrections : Nat := 0
  graph : Graph
  world : World σ

def step (job : Job) (t : Toolchain σ) (s : Progress σ) : Progress σ :=
  match s.phase with
  | .generate =>
    match job.generate s.graph.modules s.world.files with
    | (.error e, files) =>
      { s with phase := .done (.error e), world := s.world.withFiles files }
    | (.ok sources, files) =>
      { s with phase := .compile sources, world := s.world.withFiles files }
  | .compile sources =>
    match s.world.compile t (job.compileRequest s.graph sources) with
    | (.error e, w) => { s with phase := .done (.error e), world := w }
    | (.ok report, w) => { s with phase := .diagnose report, world := w }
  | .diagnose report =>
    match Diagnostic.first? report.stderr with
    | none =>
      { s with
        phase := .archive (unlocatedErrors report)
        world := s.world.warn (unlocatedWarnings report) }
    | some d =>
      match s.graph.correct s.world.files d with
      | (true, g, warnings) => ⟨.generate, s.corrections + 1, g, s.world.warn warnings⟩
      | (false, g, warnings) =>
        ⟨.done (.ok (giveUp report)), s.corrections, g, s.world.warn warnings⟩
  | .archive compilerErrors =>
    match job.package t s.graph s.world with
    | (.error e, w) => { s with phase := .done (.error e), world := w }
    | (.ok archiverErrors, w) =>
      { s with
        phase := .done (.ok (.packaged job.archive compilerErrors archiverErrors s.corrections))
        world := w }
  | .done _ => s

/-- A bound on the number of steps that are left. -/
def Progress.remaining (s : Progress σ) : Nat :=
  5 * s.graph.untried + s.phase.rank

/-- Every step but the last leaves fewer to go. -/
theorem remaining_step (job : Job) (t : Toolchain σ) (s : Progress σ)
    (going : s.phase.result? = none) : (job.step t s).remaining < s.remaining := by
  obtain ⟨phase, corrections, g, w⟩ := s
  cases phase with
  | generate =>
    simp only [step, Progress.remaining]
    split <;> simp [Phase.rank]
  | compile sources =>
    simp only [step, Progress.remaining]
    split <;> simp [Phase.rank]
  | diagnose report =>
    simp only [step, Progress.remaining]
    split
    · simp [Phase.rank]
    · next d _ =>
      rcases h : g.correct w.files d with ⟨moved, g', warnings⟩
      have used := Graph.untried_correct h
      cases moved <;> simp only [Phase.rank, Bool.toNat_true, Bool.toNat_false] at used ⊢ <;>
        omega
  | archive compilerErrors =>
    simp only [step, Progress.remaining]
    split <;> simp [Phase.rank]
  | done result => simp [Phase.result?] at going

def run (job : Job) (t : Toolchain σ) (s : Progress σ) : Built σ :=
  match _ : s.phase.result? with
  | some result => (result, s.graph, s.world)
  | none => run job t (job.step t s)
termination_by s.remaining
decreasing_by exact remaining_step job t s ‹_›

def build (job : Job) (t : Toolchain σ) (g : Graph) (w : World σ) : Built σ :=
  job.run t { graph := g, world := w }

end Job

end ScriptJar

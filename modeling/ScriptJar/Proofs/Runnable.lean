import ScriptJar.CommandLine.Run
import ScriptJar.Proofs.BuildLog
import ScriptJar.Proofs.Paths
import ScriptJar.Proofs.Rejection

/-! # What can be run

Whether the outcome of a build can be run is told from the lines that the tools wrote,
and not from how they ended.  A compiler that fails in silence leaves no line, so the
outcome of such a build can be run too, and the command starts it.

* `Job.Accounts.isRunnable_iff` — when an outcome can be run;
* `CommandLine.run_guarded` — what came before a program is started;
* `runnable_of_last_report` — both, for all builds and all command lines;
* `runnable_after_silence` — a failure in silence.
-/

namespace ScriptJar

variable {σ : Type}

/-! ## Outcomes -/

theorem Job.unlocatedErrors_eq_nil {report : CompileReport} :
    unlocatedErrors report = [] ↔ report.success = true ∨ report.stderr = [] := by
  unfold unlocatedErrors
  split <;> simp_all

/-- Nothing that succeeds has run out of time. -/
def Toolchain.Honest (t : Toolchain σ) : Prop :=
  ∀ request files tools report, (t.compile request files tools).result = .ok report →
    report.success = true → report.timedOut = false

namespace Job

theorem Accounts.isRunnable_iff {job : Job} {t : Toolchain σ} {g : Graph} {files : FileTree}
    {events : List Event} {outcome : Outcome}
    (h : job.Accounts t g files events (.done (.ok outcome))) :
    ∃ g₁ last report, job.Answered t g₁ events last report ∧
      (outcome.isRunnable = true ↔ Diagnostic.first? report.stderr = none ∧
        (report.success = true ∨ report.stderr = []) ∧
        ∃ made, archivings events = [made] ∧ made.result = .ok ⟨[]⟩) := by
  cases outcome with
  | packaged archive compilerErrors archiverErrors corrections =>
    obtain ⟨last, report, made, answered, unlocated, rfl, packed⟩ := h
    refine ⟨g, last, report, answered, ?_⟩
    simp [Outcome.isRunnable, unlocated, unlocatedErrors_eq_nil, packed.only, packed.result]
  | failed text =>
    obtain ⟨none, g₁, last, report, answered, -⟩ := h
    refine ⟨g₁, last, report, answered, ?_⟩
    simp [Outcome.isRunnable, none]

end Job

/-! ## Programs -/

/-- The state of a launcher holds the programs that were started, the latest at the end. -/
def Launcher.Records (l : Launcher σ) (history : σ → List Command) : Prop :=
  ∀ c limit files tools, history (l.launch c limit files tools).2.2 = history tools ++ [c]

/-- Whether a program is the one that runs archives. -/
def Command.IsJava (c : Command) : Prop :=
  c.program.fileName? = some "java"

instance (c : Command) : Decidable c.IsJava :=
  inferInstanceAs (Decidable (_ = _))

theorem fileName?_toolPath (bin : Path) {name : String} (plain : '/' ∉ name.toList)
    (named : Path.isVoid name.toList = false) (down : name.toList ≠ ['.', '.']) :
    (toolPath bin name).fileName? = some name :=
  Path.fileName?_join (Path.fileName?_of_plain plain named down)

/-- Programs were started, but none that runs archives. -/
def Prepares (history : σ → List Command) (tools tools' : σ) : Prop :=
  ∃ started, history tools' = history tools ++ started ∧ ∀ c ∈ started, ¬ c.IsJava

section Launching

variable {l : Launcher σ} {history : σ → List Command} {tools tools' tools'' : σ}

theorem Prepares.refl (history : σ → List Command) (tools : σ) : Prepares history tools tools :=
  ⟨[], by simp, by simp⟩

theorem Prepares.trans (first : Prepares history tools tools')
    (second : Prepares history tools' tools'') : Prepares history tools tools'' := by
  obtain ⟨started, grown, none⟩ := first
  obtain ⟨started', grown', none'⟩ := second
  refine ⟨started ++ started', by rw [grown', grown, List.append_assoc], fun c member => ?_⟩
  rcases List.mem_append.1 member with early | late
  · exact none c early
  · exact none' c late

theorem Launcher.Records.start (records : l.Records history) (c : Command) (limit : Option Nat)
    (files : FileTree) (tools : σ) :
    ∃ started, history (l.start c limit files tools).2.2 = history tools ++ started ∧
      ∀ c' ∈ started, c' = c := by
  unfold Launcher.start
  dsimp only
  split
  · exact ⟨[], by simp, by simp⟩
  · split
    · exact ⟨[], by simp, by simp⟩
    · refine ⟨[c], ?_, by simp⟩
      rw [← records c limit files tools]
      rcases l.launch c limit files tools with ⟨_ | _, _, _⟩ <;> rfl

theorem Launcher.Records.prepares (records : l.Records history) {c : Command}
    (other : ¬ c.IsJava) (limit : Option Nat) (files : FileTree) (tools : σ) :
    Prepares history tools (l.start c limit files tools).2.2 := by
  obtain ⟨started, grown, only⟩ := records.start c limit files tools
  exact ⟨started, grown, fun c' member => only c' member ▸ other⟩

/-- Watching a program is running it, with a limit or without. -/
theorem Launcher.tools_watch (l : Launcher σ) (c : Command) (timeout : Nat) (files : FileTree)
    (tools : σ) :
    ∃ limit, (l.watch c timeout files tools).2.2 = (l.start c limit files tools).2.2 := by
  unfold watch
  rcases started : l.start c (some timeout) files tools with ⟨_ | e, files', tools'⟩
  · exact ⟨some timeout, by rw [started]⟩
  · dsimp only
    split
    · exact ⟨none, rfl⟩
    · exact ⟨some timeout, by rw [started]⟩

end Launching

namespace Jdk

variable {l : Launcher σ} {history : σ → List Command}

theorem tools_compile (jdk : Jdk) (l : Launcher σ) (request : CompileRequest) (files : FileTree)
    (tools : σ) : (jdk.compile l request files tools).tools =
      (l.watch ⟨jdk.tool "javac", request.arguments⟩ jdk.timeout files tools).2.2 := by
  unfold compile
  rcases watched : l.watch ⟨jdk.tool "javac", request.arguments⟩ jdk.timeout files tools with
    ⟨_ | _, _, _⟩
  all_goals simp only [watched]

theorem tools_archive (jdk : Jdk) (l : Launcher σ) (request : ArchiveRequest) (files : FileTree)
    (tools : σ) : (jdk.archive l request files tools).tools =
      (l.start ⟨jdk.tool "jar", request.arguments⟩ none files tools).2.2 := by
  unfold archive
  rcases l.start ⟨jdk.tool "jar", request.arguments⟩ none files tools with ⟨_ | _, _, _⟩ <;> rfl

theorem toolchain_honest (jdk : Jdk) (l : Launcher σ) : (jdk.toolchain l).Honest := by
  intro request files tools report answer success
  change (jdk.compile l request files tools).result = .ok report at answer
  unfold compile at answer
  simp only at answer
  split at answer
  · cases answer
  · cases answer
    simp only [reportOf, beq_iff_eq] at success ⊢
    rw [success]
    rfl

theorem not_isJava_tool (jdk : Jdk) {name : String} (arguments : List String)
    (plain : '/' ∉ name.toList) (named : Path.isVoid name.toList = false)
    (down : name.toList ≠ ['.', '.']) (other : name ≠ "java") :
    ¬ Command.IsJava ⟨jdk.tool name, arguments⟩ := by
  intro java
  have same := (fileName?_toolPath jdk.bin plain named down).symm.trans java
  exact other (Option.some.inj same)

/-- A build calls the compiler and the archiver only. -/
theorem reaches_prepares (records : l.Records history) {jdk : Jdk} {job : Job}
    {s₀ s : Job.Progress σ} (h : job.Reaches (jdk.toolchain l) s₀ s) :
    Prepares history s₀.world.tools s.world.tools := by
  refine h.tools (fun request files tools before => before.trans ?_)
    (fun request files tools before => before.trans ?_) (.refl history _)
  -- `javac` and `jar` are other names than `java`
  · obtain ⟨limit, same⟩ :=
      l.tools_watch ⟨jdk.tool "javac", request.arguments⟩ jdk.timeout files tools
    rw [toolchain, tools_compile, same]
    exact records.prepares
      (jdk.not_isJava_tool _ (by decide) (by decide) (by decide) (by decide)) _ _ _
  · rw [toolchain, tools_archive]
    exact records.prepares
      (jdk.not_isJava_tool _ (by decide) (by decide) (by decide) (by decide)) _ _ _

end Jdk

/-! ## Commands -/

/-- A compilation that came to its end well, or that ended badly in silence. -/
def CompileReport.Passes (report : CompileReport) : Prop :=
  (report.success = true ∧ report.timedOut = false) ∨ report.stderr = []

/-- What happened on the way to an outcome: nothing that runs archives was started, and
    if the outcome can be run, the last compilation passed. -/
structure Delivers (history : σ → List Command) (w : World σ) (result : Except Failure Outcome)
    (w' : World σ) (events : List Event) : Prop where
  log : w'.log = w.log ++ events
  prepares : Prepares history w.tools w'.tools
  passes : ∀ outcome, result = .ok outcome → outcome.isRunnable = true →
    ∃ report, lastReport? events = some report ∧ report.Passes

section Building

variable {l : Launcher σ} {history : σ → List Command} {jdk : Jdk} {w w' : World σ}
  {result : Except Failure Outcome}

theorem Job.build_delivers (records : l.Records history) {job : Job} {g g' : Graph}
    (built : job.build (jdk.toolchain l) g w = (result, g', w')) :
    ∃ events, Delivers history w result w' events := by
  obtain ⟨n, reached⟩ := reaches_of_build built
  obtain ⟨events, log, -, accounts⟩ := build_accounts built
  refine ⟨events, log, Jdk.reaches_prepares records reached, ?_⟩
  rintro outcome rfl runnable
  obtain ⟨_, last, report, answered, iff⟩ := accounts.isRunnable_iff
  obtain ⟨tools, answer⟩ := answered.answer
  refine ⟨report, answered.lastReport?, ?_⟩
  -- the kit takes the exit code for a success, so there was one
  exact (iff.1 runnable).2.1.imp_left fun success =>
    ⟨success, jdk.toolchain_honest l _ _ tools report answer success⟩

/-- Warnings before do not matter. -/
theorem Delivers.of_warned {w₀ : World σ} {warnings : List Warning} {events : List Event}
    (h : Delivers history w result w' events) (log : w.log = w₀.log ++ warnings.map .warned)
    (tools : w.tools = w₀.tools) :
    Delivers history w₀ result w' (warnings.map .warned ++ events) where
  log := by rw [h.log, log, List.append_assoc]
  prepares := tools ▸ h.prepares
  passes := by simpa [lastReport?] using h.passes

theorem Delivers.of_error {e : Failure} {events : List Event} (log : w'.log = w.log ++ events)
    (prepares : Prepares history w.tools w'.tools) : Delivers history w (.error e) w' events :=
  ⟨log, prepares, by simp⟩

theorem Session.buildIn_delivers (records : l.Records history) {session : Session}
    {staging : Staging} {keep : Bool} {g : Graph}
    (h : session.buildIn staging (jdk.toolchain l) keep g w = (result, w')) :
    ∃ events, Delivers history w result w' events := by
  unfold buildIn at h
  rcases built : Job.build ⟨staging, ⟨session.settings.archiveName⟩⟩ (jdk.toolchain l) g w with
    ⟨result₁, g₁, w₁⟩
  obtain ⟨events, delivers⟩ := Job.build_delivers records built
  simp only [built] at h
  cases keep with
  | true =>
    cases h
    exact ⟨events, delivers⟩
  | false =>
    cases removed : staging.remove w₁.files with
    | error e =>
      simp only [removed, Bool.false_eq_true, ite_false, Prod.mk.injEq] at h
      obtain ⟨rfl, rfl⟩ := h
      exact ⟨events, .of_error delivers.log delivers.prepares⟩
    | ok files =>
      simp only [removed, Bool.false_eq_true, ite_false, Prod.mk.injEq] at h
      obtain ⟨rfl, rfl⟩ := h
      exact ⟨events, delivers.log, delivers.prepares, delivers.passes⟩

theorem Session.buildFile_delivers (records : l.Records history) {session : Session} {host : Host}
    {entry : Path} {keep : Bool}
    (h : session.buildFile host entry (jdk.toolchain l) keep w = (result, w')) :
    ∃ events, Delivers history w result w' events := by
  unfold buildFile at h
  rcases loaded : session.loadGraph entry w.files with ⟨_ | g, warnings⟩
  · simp only [loaded, Prod.mk.injEq] at h
    obtain ⟨rfl, rfl⟩ := h
    exact ⟨_, .of_error rfl (.refl history _)⟩
  · simp only [loaded] at h
    split at h
    · cases h
      exact ⟨_, .of_error rfl (.refl history _)⟩
    · obtain ⟨events, delivers⟩ := buildIn_delivers records h
      exact ⟨_, delivers.of_warned rfl rfl⟩

end Building

/-- Whenever a program that runs archives was started, the last compilation had passed. -/
def Guarded (history : σ → List Command) (w w' : World σ) : Prop :=
  ∃ started events, history w'.tools = history w.tools ++ started ∧ w'.log = w.log ++ events ∧
    ∀ c ∈ started, c.IsJava → ∃ report, lastReport? events = some report ∧ report.Passes

section Commands

variable {history : σ → List Command} {w w' w₁ : World σ}

theorem Guarded.of_same (tools : w'.tools = w.tools) (log : w'.log = w.log) :
    Guarded history w w' :=
  ⟨[], [], by simp [tools], by simp [log], by simp⟩

theorem Delivers.guarded {result : Except Failure Outcome} {events : List Event}
    (h : Delivers history w result w' events) : Guarded history w w' := by
  obtain ⟨started, grown, none⟩ := h.prepares
  exact ⟨started, events, grown, h.log, fun c member java => absurd java (none c member)⟩

namespace CommandLine

variable {ctx : Context σ} {inv : Invocation} {exit : Exit}

theorem runArchive_spec (records : ctx.launcher.Records history) {root archive : Path}
    {arguments : List String} (h : runArchive ctx root archive arguments w = (exit, w')) :
    w'.log = w.log ∧ ∃ started, history w'.tools = history w.tools ++ started := by
  unfold runArchive at h
  obtain ⟨started, grown, -⟩ := records.start
    ⟨toolPath (root / "bin") "java", ["-jar", archive.text] ++ arguments⟩ none w.files w.tools
  simp only at h
  split at h
  · next ran =>
    cases h
    rw [ran] at grown
    exact ⟨rfl, started, grown⟩
  · next ran =>
    cases h
    rw [ran] at grown
    exact ⟨rfl, started, grown⟩

theorem conclude_guarded (records : ctx.launcher.Records history) {script root : Path}
    {outcome : Outcome} {events : List Event}
    (delivers : Delivers history w (.ok outcome) w₁ events)
    (h : conclude ctx inv script root outcome w₁ = (exit, w')) : Guarded history w w' := by
  unfold conclude at h
  split at h
  · cases h
    exact delivers.guarded
  · split at h
    · cases h
      exact delivers.guarded
    · next runnable =>
      split at h
      · cases h
        exact delivers.guarded
      · -- only here is a program started that runs archives
        obtain ⟨log, more, grown'⟩ := runArchive_spec records h
        obtain ⟨started, grown, -⟩ := delivers.prepares
        have passes := delivers.passes _ rfl (by simpa using runnable)
        exact ⟨started ++ more, events, by rw [grown', grown, List.append_assoc],
          log.trans delivers.log, fun _ _ _ => passes⟩

theorem buildAndRun_guarded (records : ctx.launcher.Records history) {settings : Settings}
    {script : Path} (h : buildAndRun ctx inv settings script w = (exit, w')) :
    Guarded history w w' := by
  unfold buildAndRun at h
  split at h
  · cases h
    exact .of_same rfl rfl
  · simp only at h
    split at h
    · next built =>
      obtain ⟨events, delivers⟩ := Session.buildFile_delivers records built
      exact conclude_guarded records (delivers.of_warned rfl rfl) h
    · next built =>
      split at h
      · next kept =>
        cases h
        obtain ⟨events, delivers⟩ := Session.buildFile_delivers records kept
        exact (delivers.of_warned rfl rfl).guarded
      · cases h
        obtain ⟨events, delivers⟩ := Session.buildFile_delivers records built
        exact (delivers.of_warned rfl rfl).guarded

theorem reset_same {p : Path} (h : reset ctx inv p w = (exit, w')) :
    w'.tools = w.tools ∧ w'.log = w.log := by
  unfold reset at h
  simp only at h
  split at h
  · split at h
    · cases h
      exact ⟨rfl, rfl⟩
    · cases h
      exact ⟨rfl, rfl⟩
  · cases h
    exact ⟨rfl, rfl⟩

theorem runWith_guarded (records : ctx.launcher.Records history) {p : Path} {settings : Settings}
    (h : runWith ctx inv p settings w = (exit, w')) : Guarded history w w' := by
  unfold runWith at h
  split at h
  · cases h
    exact .of_same rfl rfl
  · split at h
    · cases h
      exact .of_same rfl rfl
    · split at h
      · exact buildAndRun_guarded records h
      · cases h
        exact .of_same rfl rfl

theorem runInvocation_guarded (records : ctx.launcher.Records history)
    (h : runInvocation ctx inv w = (exit, w')) : Guarded history w w' := by
  unfold runInvocation at h
  split at h
  · cases h
    exact .of_same rfl rfl
  · split at h
    · obtain ⟨tools, log⟩ := reset_same h
      exact .of_same tools log
    · split at h
      · cases h
        exact .of_same rfl rfl
      · have guarded := runWith_guarded records h
        exact guarded

/-- However the command is called, it starts a program that runs archives only after a
    compilation that passed. -/
theorem run_guarded (records : ctx.launcher.Records history) {words : List String}
    (h : run ctx words w = (exit, w')) : Guarded history w w' := by
  unfold run runRequest at h
  cases request : Invocation.parse words with
  | run inv =>
    rw [request] at h
    exact runInvocation_guarded records h
  | usage | help | version =>
    rw [request] at h
    cases h
    exact .of_same rfl rfl

end CommandLine

end Commands

/-- The outcome of a build can be run if and only if the last report points at no error,
    is that of a success or has no lines, and the archiver had nothing to say.  So the
    command runs an archive only after a compilation that succeeded in time or wrote
    nothing. -/
theorem runnable_of_last_report (σ : Type) :
    (∀ (job : Job) (t : Toolchain σ) (g : Graph) (w : World σ) outcome g' w',
      job.build t g w = (.ok outcome, g', w') →
      ∃ events report, w'.log = w.log ++ events ∧ lastReport? events = some report ∧
        (t.Honest → report.success = true → report.timedOut = false) ∧
        (outcome.isRunnable = true ↔ Diagnostic.first? report.stderr = none ∧
          (report.success = true ∨ report.stderr = []) ∧
          ∃ made, archivings events = [made] ∧ made.result = .ok ⟨[]⟩)) ∧
    ∀ (ctx : CommandLine.Context σ) (history : σ → List Command),
      ctx.launcher.Records history → ∀ words w exit w',
        CommandLine.run ctx words w = (exit, w') → Guarded history w w' := by
  constructor
  · intro job t g w outcome g' w' built
    obtain ⟨events, log, -, accounts⟩ := Job.build_accounts built
    obtain ⟨_, last, report, answered, iff⟩ := accounts.isRunnable_iff
    obtain ⟨tools, answer⟩ := answered.answer
    exact ⟨events, report, log, answered.lastReport?,
      fun honest => honest _ _ tools report answer, iff⟩
  · intro ctx history records words w exit w' ran
    exact CommandLine.run_guarded records ran

/-! ## Programs that do nothing -/

/-- Every program ends at once, and the compiler with a given code. -/
def Launcher.idle (code : Nat) : Launcher (List Command) where
  launch c _ files started :=
    (.ok { ending := .exited (if c.program.fileName? = some "javac" then code else 0) }, files,
      started ++ [c])

def CommandLine.Context.idle (code : Nat) : Context (List Command) where
  environment := { values := [("HOME", "home"), ("JAVA_HOME", "jdk")] }
  host := ⟨⟨"tmp"⟩, 1⟩
  launcher := .idle code

/-- A world with one script. -/
def World.script : World (List Command) where
  files := { nodes := [(["home"], .directory), (["jdk"], .directory), (["tmp"], .directory),
    (["Main.jsc"], .file (.text "int x = 1;\n"))] }
  tools := []

/-- Tools of which the compiler never ends and writes nothing. -/
def Toolchain.silent : Toolchain Unit where
  compile _ files tools := { result := .ok { timedOut := true }, files, tools }
  archive _ files tools := { result := .ok {}, files, tools }

theorem runnable_of_last_report_idle :
    (∃ outcome g' w' report,
      Job.scratch.build (.rejecting (· == "java.awt.List")) .ambiguous .scratch =
        (.ok outcome, g', w') ∧ outcome.isRunnable = true ∧
      lastReport? w'.log = some report ∧ (report.success = true ∨ report.stderr = [])) ∧
    ∃ exit w' report, CommandLine.run (.idle 0) ["Main.jsc"] .script = (exit, w') ∧
      (∃ c ∈ w'.tools, c.IsJava) ∧ lastReport? w'.log = some report ∧ report.Passes := by
  constructor
  · obtain ⟨⟨result, g', w'⟩, built, ends⟩ : ∃ b,
        Job.scratch.build (.rejecting (· == "java.awt.List")) .ambiguous .scratch = b ∧
        b.1.toOption = some (.packaged ⟨"Main.jar"⟩ [] [] 2) :=
      ⟨_, rfl, by decide +kernel⟩
    obtain rfl := toOption_eq_some.1 ends
    obtain ⟨events, report, log, last, -, iff⟩ :=
      (runnable_of_last_report Unit).1 _ _ _ _ _ _ _ built
    obtain rfl : w'.log = events := log
    exact ⟨_, g', w', report, built, rfl, last, (iff.1 rfl).2.1⟩
  · obtain ⟨⟨exit, w'⟩, ran, java⟩ : ∃ b,
        CommandLine.run (.idle 0) ["Main.jsc"] .script = b ∧ ∃ c ∈ b.2.tools, c.IsJava :=
      ⟨_, rfl, by decide +kernel⟩
    obtain ⟨started, events, grown, log, guarded⟩ :=
      (runnable_of_last_report _).2 (.idle 0) id (fun _ _ _ _ => rfl) _ _ _ _ ran
    obtain ⟨c, member, isJava⟩ := java
    obtain rfl : w'.log = events := log
    obtain rfl : w'.tools = started := grown
    obtain ⟨report, last, passes⟩ := guarded c member isJava
    exact ⟨exit, w', report, ran, ⟨c, member, isJava⟩, last, passes⟩

/-- A compilation that runs out of time in silence leaves an outcome that can be run, and
    after one that fails in silence the command runs the archive. -/
theorem runnable_after_silence :
    (∃ outcome g' w' report, Job.scratch.build .silent .ambiguous .scratch =
        (.ok outcome, g', w') ∧ outcome.isRunnable = true ∧
      lastReport? w'.log = some report ∧ report.success = false ∧ report.timedOut = true) ∧
    ∃ exit w' report, CommandLine.run (.idle 1) ["Main.jsc"] .script = (exit, w') ∧
      (∃ c ∈ w'.tools, c.IsJava) ∧ lastReport? w'.log = some report ∧
      report.success = false := by
  constructor
  · obtain ⟨⟨result, g', w'⟩, built, ends, report, last, facts⟩ : ∃ b,
        Job.scratch.build .silent .ambiguous .scratch = b ∧
        b.1.toOption = some (.packaged ⟨"Main.jar"⟩ [] [] 0) ∧
        ∃ report ∈ lastReport? b.2.2.log, report.success = false ∧ report.timedOut = true :=
      ⟨_, rfl, by decide +kernel⟩
    obtain rfl := toOption_eq_some.1 ends
    exact ⟨_, g', w', report, built, rfl, last, facts⟩
  · obtain ⟨⟨exit, w'⟩, ran, java, report, last, failed⟩ : ∃ b,
        CommandLine.run (.idle 1) ["Main.jsc"] .script = b ∧ (∃ c ∈ b.2.tools, c.IsJava) ∧
        ∃ report ∈ lastReport? b.2.log, report.success = false :=
      ⟨_, rfl, by decide +kernel⟩
    exact ⟨exit, w', report, ran, java, last, failed⟩

end ScriptJar

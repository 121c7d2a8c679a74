import ScriptJar.Proofs.BuildLog
import ScriptJar.Proofs.Rejection

/-! # Nothing stale

Selections change in the course of a build, and the sources, the class path and the
manifest all depend on them.  Whenever the compiler is called, the sources and the class
path are those of the graph as it is at that moment; the manifest follows the class path
of the last call.

* `Job.Reaches.asked` — what the compiler is asked at a state of a build;
* `Job.build_never_stale` — all calls of the tools in a build.
-/

namespace ScriptJar.Job

variable {σ : Type} {job : Job} {t : Toolchain σ} {g : Graph} {w : World σ} {s : Progress σ}

/-- In a state that compiles, there is one source for each module, and where the sources
    have places of their own, its text is that of the module as it is now. -/
theorem Reaches.asked {sources : List Path} (h : job.Reaches t { graph := g, world := w } s)
    (phase : s.phase = .compile sources) :
    sources = s.graph.modules.map job.staging.sourceFile ∧
      (job.Apart g.modules s.world.files → job.Staged s.graph s.world.files) := by
  obtain ⟨alike, events, -, accounts⟩ := h.recorded (.start job t g w)
  rw [phase] at accounts
  obtain ⟨-, sources, staged⟩ := accounts
  exact ⟨sources, fun apart => staged (apart.congr alike.paths rfl)⟩

/-- Each call of the compiler in a build lists the sources of the modules in order, each
    with the text under the selections of that moment, and has the class path of these
    selections.  An archive is made in one call of the archiver, with a manifest for the
    entry and the last class path; when the build fails, the archiver was not called and
    the text is that of the last report. -/
theorem build_never_stale (job : Job) (t : Toolchain σ) (g : Graph) (w : World σ) :
    ∃ result g' w' events, job.build t g w = (result, g', w') ∧ w'.log = w.log ++ events ∧
      (∀ before request found answer after,
        events = before ++ .compiled request found answer :: after →
        ∃ s, job.Reaches t { graph := g, world := w } s ∧ s.phase = .compile request.sources ∧
          s.world.log = w.log ++ before ∧ s.world.files = found ∧
          request.sources = s.graph.modules.map job.staging.sourceFile ∧
          (job.Apart g.modules found → job.Staged s.graph found) ∧
          request.classpath = s.graph.selectedLibraries) ∧
      (∀ archive compilerErrors archiverErrors corrections,
        result = .ok (.packaged archive compilerErrors archiverErrors corrections) →
        ∃ last made name, (compilations events).getLast? = some last ∧
          archivings events = [made] ∧ g.entry?.map Module.qualifiedName = some name ∧
          made.found.readText made.request.manifest =
            .ok (manifestText name last.request.classpath)) ∧
      (∀ text, result = .ok (.failed text) → archivings events = [] ∧
        ∃ report, lastReport? events = some report ∧
          text = "\n".intercalate report.stderr) := by
  rcases built : job.build t g w with ⟨result, g', w'⟩
  obtain ⟨events, log, alike, accounts⟩ := build_accounts built
  refine ⟨result, g', w', events, rfl, log, ?_, ?_, ?_⟩
  · rintro before request found answer after rfl
    obtain ⟨n, ended⟩ := reaches_of_build built
    obtain ⟨s, sources, reached, phase, logged, files, rfl⟩ := ended.called log
    obtain ⟨sources, staged⟩ := reached.asked phase
    exact ⟨s, reached, phase, logged, files, sources, files ▸ staged, rfl⟩
  · rintro archive compilerErrors archiverErrors corrections rfl
    obtain ⟨last, report, made, answered, -, -, packed⟩ := accounts
    obtain ⟨entry, known, manifest⟩ := packed.manifest
    refine ⟨last, made, entry.qualifiedName, answered.isLast, packed.only, ?_, ?_⟩
    · rw [← alike.qualifiedName_entry?, known]
      rfl
    · rw [packed.request, answered.request]
      exact manifest
  · rintro text rfl
    obtain ⟨none, _, last, report, answered, text⟩ := accounts
    exact ⟨none, report, answered.lastReport?, text⟩

/-- Two references are corrected, one after the other, and the manifest has the class path
    of the third call of the compiler. -/
theorem build_never_stale_ambiguous :
    ∃ g' w' made,
      Job.scratch.build (.rejecting (· == "java.awt.List")) .ambiguous .scratch =
          (.ok (.packaged ⟨"Main.jar"⟩ [] [] 2), g', w') ∧
      (compilations w'.log).length = 3 ∧ archivings w'.log = [made] ∧
      made.found.readText made.request.manifest =
        .ok "Main-Class: Main\nClass-Path: rt.jar\n" := by
  obtain ⟨⟨result, g', w'⟩, ran, ends, paths⟩ : ∃ b,
      Job.scratch.build (.rejecting (· == "java.awt.List")) .ambiguous .scratch = b ∧
      b.1.toOption = some (.packaged ⟨"Main.jar"⟩ [] [] 2) ∧
      (compilations b.2.2.log).map (·.request.classpath) = List.replicate 3 [⟨"rt.jar"⟩] :=
    ⟨_, rfl, by decide +kernel⟩
  obtain rfl := toOption_eq_some.1 ends
  obtain ⟨_, _, _, events, built, log, -, packaged, -⟩ := build_never_stale .scratch
    (.rejecting (· == "java.awt.List")) .ambiguous .scratch
  cases ran.symm.trans built
  obtain rfl : w'.log = events := log
  obtain ⟨last, made, name, isLast, only, entry, manifest⟩ := packaged _ _ _ _ rfl
  have path : last.request.classpath = [⟨"rt.jar"⟩] := by
    have := congrArg List.getLast? paths
    simpa [isLast] using this
  obtain rfl : "Main" = name := Option.some.inj entry
  refine ⟨g', w', made, ran, by simpa using congrArg List.length paths, only, ?_⟩
  rw [manifest, path]
  exact congrArg Except.ok (by decide +kernel)

end ScriptJar.Job

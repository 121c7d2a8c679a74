import ScriptJar.Proofs.BuildRun
import ScriptJar.Proofs.Rejection

/-! # Repairing imports

Against a compiler that rejects a fixed set of imports, a build always finds the
candidates that are accepted.  `Repairable` is the invariant of the graph: everything
before a selection is rejected.  It survives a correction of another reference than the
one the compiler pointed at, since both are imported by the same name.  `OnCourse` is
what holds of the files and the compiler's answer in each phase.

* `Repairable.raise` — a correction keeps the invariant;
* `Job.Step.repairing` — so does every step of a build;
* `Job.build_repairs` — the build makes the archive.
-/

namespace ScriptJar

open Text

/-! ## What a correction leaves alone -/

namespace Module

variable {R : Reference → Reference → Prop} {m m' : Module}

theorem Changed.otherLines (h : m.Changed R m') : m'.otherLines = m.otherLines := by
  cases h with
  | own own =>
    obtain ⟨rs, -, rfl⟩ := own
    rfl
  | @donor ds replaced =>
    have same : ds.flatMap classScope = m.donors.flatMap classScope := by
      rw [List.flatMap_def, List.flatMap_def, replaced.map_eq]
      rintro d d' ⟨rs, -, rfl⟩
      rfl
    simp only [Module.otherLines, otherStatements, same]
    rfl

end Module

/-! ## The invariant of the graph -/

namespace Reference

/-- The names a reference may be imported by: those of the candidates, or the requested
    one if there are none. -/
def names (r : Reference) : List String :=
  if r.candidates = [] then [r.raw] else r.candidates.map Candidate.name

theorem current_mem_names {r : Reference} (inRange : r.selected < max 1 r.candidates.length) :
    r.current ∈ r.names := by
  unfold current names
  split
  · next none => simp [none]
  · next some =>
    have lt : r.selected < r.candidates.length := by
      have := List.length_pos_of_ne_nil some
      omega
    rw [List.getElem?_eq_getElem lt]
    exact List.mem_map_of_mem (List.getElem_mem lt)

/-- The reference with the first candidate selected that is not rejected. -/
def settled (rejected : String → Bool) (r : Reference) : Reference :=
  { r with selected := r.candidates.findIdx fun c => !rejected c.name }

/-- Everything before the selection is rejected. -/
def Tried (rejected : String → Bool) (r : Reference) : Prop :=
  ∀ c ∈ r.candidates.take r.selected, rejected c.name = true

/-- There is a candidate that is not rejected, or the requested name is not. -/
def HasAccepted (rejected : String → Bool) (r : Reference) : Prop :=
  (∃ c ∈ r.candidates, rejected c.name = false) ∨
    (r.candidates = [] ∧ rejected r.raw = false)

instance (rejected : String → Bool) (r : Reference) : Decidable (r.HasAccepted rejected) :=
  inferInstanceAs (Decidable (_ ∨ _))

variable {rejected : String → Bool} {r r' : Reference}

theorem current_of_getElem? {c : Candidate} (h : r.candidates[r.selected]? = some c) :
    r.current = c.name := by
  simp [current, h]

/-- A reference that is imported by a rejected name has another candidate to try. -/
theorem Tried.canAdvance (tried : r.Tried rejected) (accepted : r.HasAccepted rejected)
    (bad : rejected r.current = true) : r.canAdvance = true := by
  rcases accepted with ⟨c, member, good⟩ | ⟨none, good⟩
  · obtain ⟨j, lt, rfl⟩ := List.getElem_of_mem member
    have notBefore : ¬ j < r.selected := by
      intro before
      have := tried r.candidates[j] (List.mem_take_iff_getElem.2 ⟨j, by omega, rfl⟩)
      simp [this] at good
    have notHere : j ≠ r.selected := by
      rintro rfl
      rw [current_of_getElem? (List.getElem?_eq_getElem lt)] at bad
      simp [bad] at good
    simp only [Reference.canAdvance, decide_eq_true_eq]
    omega
  · have : r.current = r.raw := by simp [current, none]
    simp [this, good] at bad

theorem Tried.raised (tried : r.Tried rejected) (raised : r.Raised r')
    (bad : rejected r.current = true) : r'.Tried rejected := by
  obtain ⟨lt, rfl⟩ := raised
  have here : r.candidates[r.selected]? = some r.candidates[r.selected] :=
    List.getElem?_eq_getElem (by omega)
  intro c member
  rw [List.take_add_one, here, Option.toList_some, List.mem_append, List.mem_singleton] at member
  rcases member with before | rfl
  · exact tried c before
  · rwa [current_of_getElem? here] at bad

theorem Tried.settled_eq (tried : r.Tried rejected)
    (inRange : r.selected < max 1 r.candidates.length) (good : rejected r.current = false) :
    r.settled rejected = r := by
  have place : r.candidates.findIdx (fun c => !rejected c.name) = r.selected := by
    by_cases lt : r.selected < r.candidates.length
    · rw [current_of_getElem? (List.getElem?_eq_getElem lt)] at good
      rw [List.findIdx_eq lt]
      refine ⟨by simp [good], fun j before => ?_⟩
      have := tried r.candidates[j] (List.mem_take_iff_getElem.2 ⟨j, by omega, rfl⟩)
      simp [this]
    · have empty : r.candidates = [] := List.length_eq_zero_iff.1 (by omega)
      rw [empty] at inRange ⊢
      simp only [List.findIdx_nil]
      simp at inRange
      omega
  rw [settled, place]

end Reference

/-- All names by which references of a graph may be imported. -/
def Graph.names (g : Graph) : List String :=
  g.references.flatMap Reference.names

/-- What a graph must be like so that complaints lead to corrections. -/
structure Correctable (rejected : String → Bool) (st : Staging) (g : Graph) : Prop where
  entry : g.entry?.isSome
  accepted : ∀ r ∈ g.references, r.HasAccepted rejected
  /-- No name is the end of another one. -/
  apart : ∀ a ∈ g.names, ∀ b ∈ g.names, a.toList <:+ b.toList → a = b
  solid : ∀ name ∈ g.names, Solid name
  /-- Only references import what is rejected. -/
  others : ∀ m ∈ g.modules, ∀ line ∈ m.otherLines, ∀ name ∈ importedName? line,
    rejected name = false
  plain : ∀ m ∈ g.modules,
    ':' ∉ (st.sourceFile m).text.toList ∧ '\n' ∉ (st.sourceFile m).text.toList

/-- A graph that is being repaired, starting from `g₀`. -/
structure Repairable (rejected : String → Bool) (st : Staging) (g₀ g : Graph) : Prop
    extends Correctable rejected st g where
  inRange : g.InRange
  tried : ∀ r ∈ g.references, r.Tried rejected
  paths : g.modules.map Module.sourcePath = g₀.modules.map Module.sourcePath
  goal : g.references.map (Reference.settled rejected) =
    g₀.references.map (Reference.settled rejected)

namespace Repairable

variable {rejected : String → Bool} {st : Staging} {g₀ g g' : Graph} {name : String}

theorem start (h : Correctable rejected st g) (fresh : ∀ r ∈ g.references, r.selected = 0) :
    Repairable rejected st g g where
  toCorrectable := h
  inRange r member := by
    rw [fresh r member]
    omega
  tried r member := by simp [Reference.Tried, fresh r member]
  paths := rfl
  goal := rfl

theorem raise (h : Repairable rejected st g₀ g) (bad : rejected name = true)
    (changed : g.Changed (fun r r' => r.Raised r' ∧ r.current = name) g') :
    Repairable rejected st g₀ g' := by
  have references := changed.references
  have names : g'.names = g.names := by
    rw [Graph.names, Graph.names, List.flatMap_def, List.flatMap_def, references.map_eq]
    rintro r r' ⟨⟨-, rfl⟩, -⟩
    rfl
  obtain ⟨ms, modules, rfl⟩ := changed
  -- only what mentions selections needs that the name was rejected
  refine ⟨⟨?entry, ?accepted, ?apart, ?solid, ?others, ?plain⟩, ?inRange, ?tried, ?paths, ?goal⟩
  case entry =>
    have entry := h.entry
    simp only [Graph.entry?, Option.isSome_iff_exists, Option.bind_eq_some_iff] at entry ⊢
    obtain ⟨m, i, index, found⟩ := entry
    have lt : i < ms.length := by
      rw [modules.length_eq]
      exact (List.getElem?_eq_some_iff.1 found).1
    exact ⟨ms[i], i, index, List.getElem?_eq_getElem lt⟩
  case accepted =>
    apply references.forall_mem ?_ h.accepted
    rintro r r' ⟨⟨-, rfl⟩, -⟩ accepted
    exact accepted
  case apart =>
    rw [names]
    exact h.apart
  case solid =>
    rw [names]
    exact h.solid
  case others =>
    apply modules.forall_mem ?_ h.others
    intro m m' changed others
    rwa [changed.otherLines]
  case plain =>
    apply modules.forall_mem ?_ h.plain
    intro m m' changed plain
    rwa [Staging.sourceFile, changed.sourcePath]
  case inRange =>
    apply references.forall_mem ?_ h.inRange
    rintro r r' ⟨⟨lt, rfl⟩, -⟩ -
    simp only
    omega
  case tried =>
    apply references.forall_mem ?_ h.tried
    rintro r r' ⟨raised, rfl⟩ tried
    exact tried.raised raised bad
  case paths =>
    rw [← h.paths]
    exact modules.map_eq fun m m' changed => changed.sourcePath
  case goal =>
    rw [← h.goal]
    apply references.map_eq
    rintro r r' ⟨⟨-, rfl⟩, -⟩
    rfl

theorem solid_current (h : Repairable rejected st g₀ g) {r : Reference}
    (member : r ∈ g.references) : r.current ∈ g.names ∧ Solid r.current := by
  have known : r.current ∈ g.names := List.mem_flatMap.2
    ⟨r, member, Reference.current_mem_names (h.inRange r member)⟩
  exact ⟨known, h.solid _ known⟩

theorem correct (h : Repairable rejected st g₀ g) {files : FileTree} {d : Diagnostic}
    (line : d.sourceLine files = .ok (some (Module.importOf name))) (bad : rejected name = true)
    (known : ∃ r ∈ g.references, r.current = name) :
    ∃ g', g.correct files d = (true, g', []) ∧ Repairable rejected st g₀ g' := by
  obtain ⟨r₀, member₀, same₀⟩ := known
  obtain ⟨g', moved, changed⟩ := Graph.correct_import line ⟨r₀, member₀, same₀⟩
    (fun r member ends => by
      obtain ⟨known, solid⟩ := h.solid_current member
      have known₀ := (h.solid_current member₀).1
      rw [same₀] at known₀
      exact h.apart _ known _ known₀ (suffix_of_endsLine solid ends))
    (fun r member same =>
      (h.tried r member).canAdvance (h.accepted r member) (by rw [same]; exact bad))
  exact ⟨g', moved, h.raise bad changed⟩

end Repairable

/-! ## What the compiler says -/

namespace Job

variable {σ : Type} {job : Job} {t : Toolchain σ} {rejected : String → Bool}

/-- What a phase writes can be written. -/
def Writable (job : Job) (g : Graph) (files : FileTree) : Phase → Prop
  | .generate => (job.generate g.modules files).1.isOk = true
  | .archive _ => ∀ m ∈ g.entry?, (files.writeText job.staging.manifest
      (manifestText m.qualifiedName g.selectedLibraries)).isOk = true
  | _ => True

instance (job : Job) (g : Graph) (files : FileTree) : (phase : Phase) →
    Decidable (job.Writable g files phase)
  | .generate => inferInstanceAs (Decidable (_ = true))
  | .archive _ => inferInstanceAs (Decidable (∀ m ∈ g.entry?, _))
  | .compile _ | .diagnose _ | .done _ => inferInstanceAs (Decidable True)

/-- Nothing gets in the way of a build: substitutions leave the sources as they are,
    their lines can be counted in a machine word, and writing succeeds. -/
structure Undisturbed (job : Job) (s : Progress σ) : Prop where
  plain : ∀ m ∈ s.graph.modules, m.javaLines = m.plainLines
  short : ∀ m ∈ s.graph.modules, (linesOf m.javaText).length < wordBound
  writable : job.Writable s.graph s.world.files s.phase

instance (job : Job) (s : Progress σ) : Decidable (job.Undisturbed s) :=
  decidable_of_iff (_ ∧ _ ∧ _) ⟨fun ⟨a, b, c⟩ => ⟨a, b, c⟩, fun ⟨a, b, c⟩ => ⟨a, b, c⟩⟩

def complaints (job : Job) (rejected : String → Bool) (g : Graph) (files : FileTree) :
    List String :=
  (g.modules.map job.staging.sourceFile).flatMap (rejectionsAt rejected files)

section Complaints

variable {g₀ : Graph} {s : Progress σ} {complaint : String}

theorem mem_complaints {g : Graph} {files : FileTree} (staged : job.Staged g files) :
    complaint ∈ job.complaints rejected g files ↔
      ∃ m ∈ g.modules, ∃ i name, (linesOf m.javaText)[i]? = some (Module.importOf name) ∧
        rejected name = true ∧ complaint = rejection (job.staging.sourceFile m) (i + 1) name := by
  simp only [complaints, List.mem_flatMap, List.mem_map, exists_exists_and_eq_and]
  refine exists_congr fun m => and_congr_right fun isModule => ?_
  rw [rejectionsAt, staged m isModule]
  exact mem_rejections

variable (repairable : Repairable rejected job.staging g₀ s.graph) (calm : job.Undisturbed s)
  (staged : job.Staged s.graph s.world.files)

include repairable calm

theorem mem_lines_source {m : Module} (isModule : m ∈ s.graph.modules) (line : String) :
    line ∈ linesOf m.javaText ↔
      line ∈ m.otherLines ∨ ∃ r ∈ m.allReferences, line = Module.importOf r.current :=
  Module.mem_lines_javaText (calm.plain m isModule)
    (fun _ found => (repairable.solid_current (List.mem_flatMap.2 ⟨m, isModule, found⟩)).2) line

include staged

/-- A complaint is read as a diagnostic, and the correction after it succeeds. -/
theorem correct_complaint
    (member : complaint ∈ job.complaints rejected s.graph s.world.files) :
    ∃ d g', Diagnostic.parse? complaint = some d ∧
      s.graph.correct s.world.files d = (true, g', []) ∧
      Repairable rejected job.staging g₀ g' := by
  obtain ⟨m, isModule, i, name, line, bad, rfl⟩ := (mem_complaints staged).1 member
  have fits : i + 1 < wordBound := by
    have lt : i < (linesOf m.javaText).length := (List.getElem?_eq_some_iff.1 line).1
    have := calm.short m isModule
    omega
  -- the line is the import of a reference, since nothing else imports a rejected name
  have known : ∃ r ∈ s.graph.references, r.current = name := by
    rcases (mem_lines_source repairable calm isModule _).1 (List.mem_of_getElem? line) with
      other | ⟨r, found, same⟩
    · have good := repairable.others m isModule _ other name (importedName?_eq_some.2 rfl)
      simp [bad] at good
    · exact ⟨r, List.mem_flatMap.2 ⟨m, isModule, found⟩, Module.importOf_inj same.symm⟩
  have source : (⟨job.staging.sourceFile m, i + 1, rejection (job.staging.sourceFile m) (i + 1)
      name⟩ : Diagnostic).sourceLine s.world.files = .ok (some (Module.importOf name)) := by
    simp [Diagnostic.sourceLine, staged m isModule, line]
  obtain ⟨g', moved, repairable'⟩ := repairable.correct source bad known
  exact ⟨_, g', Diagnostic.parse?_rejection name (repairable.plain m isModule) fits, moved,
    repairable'⟩

theorem correct_first {d : Diagnostic}
    (first : Diagnostic.first? (job.complaints rejected s.graph s.world.files) = some d) :
    ∃ g', s.graph.correct s.world.files d = (true, g', []) ∧
      Repairable rejected job.staging g₀ g' := by
  obtain ⟨complaint, member, parsed⟩ := List.exists_of_findSome?_eq_some first
  obtain ⟨d', g', parsed', moved, repairable'⟩ :=
    correct_complaint repairable calm staged member
  obtain rfl : d' = d := Option.some.inj (parsed'.symm.trans parsed)
  exact ⟨g', moved, repairable'⟩

theorem complaints_eq_nil
    (first : Diagnostic.first? (job.complaints rejected s.graph s.world.files) = none) :
    job.complaints rejected s.graph s.world.files = [] := by
  refine List.eq_nil_iff_forall_not_mem.2 fun complaint member => ?_
  obtain ⟨d, _, parsed, -⟩ := correct_complaint repairable calm staged member
  rw [Diagnostic.first?, List.findSome?_eq_none_iff] at first
  rw [first complaint member] at parsed
  cases parsed

theorem accepted_of_no_complaints
    (none : job.complaints rejected s.graph s.world.files = []) :
    ∀ r ∈ s.graph.references, rejected r.current = false := by
  intro r member
  by_contra bad
  obtain ⟨m, isModule, found⟩ := List.mem_flatMap.1 member
  have line := (mem_lines_source repairable calm isModule _).2 (.inr ⟨r, found, rfl⟩)
  obtain ⟨i, here⟩ := List.mem_iff_getElem?.1 line
  have complaint := (mem_complaints staged).2
    ⟨m, isModule, i, r.current, here, by simpa using bad, rfl⟩
  rw [none] at complaint
  exact List.not_mem_nil complaint

end Complaints

/-! ## Steps of a repair -/

theorem package_rejects (rejects : t.Rejects rejected) {g : Graph} {w : World σ}
    {errors : List String} (entry : g.entry?.isSome)
    (writable : job.Writable g w.files (.archive errors)) : (job.package t g w).1 = .ok [] := by
  obtain ⟨m, entry⟩ := Option.isSome_iff_exists.1 entry
  have writes := writable m entry
  cases written : w.files.writeText job.staging.manifest
      (manifestText m.qualifiedName g.selectedLibraries) with
  | error e =>
    rw [written] at writes
    cases writes
  | ok files =>
    obtain ⟨report, answer, silent⟩ := rejects.archive (job.archiveRequest g files) files w.tools
    have packed : ((w.withFiles files).archive t (job.archiveRequest g files)).1 = .ok report :=
      answer
    simp only [package, entry, written]
    rcases packing : (w.withFiles files).archive t (job.archiveRequest g files) with ⟨_ | _, w'⟩
    all_goals
      rw [packing] at packed
      cases packed
    simp only [silent]

theorem compile_rejects (rejects : t.Rejects rejected) {g : Graph} {w w' : World σ}
    {result : Except Failure CompileReport} (staged : job.Staged g w.files)
    (answered : w.compile t (job.compileRequest g (g.modules.map job.staging.sourceFile)) =
      (result, w')) :
    w'.files.workingDirectory = w.files.workingDirectory ∧ job.Staged g w'.files ∧
      ∃ report, result = .ok report ∧ report.stderr = job.complaints rejected g w'.files ∧
        report.success = report.stderr.isEmpty := by
  obtain ⟨rfl, rfl⟩ := Prod.mk.inj answered
  obtain ⟨stays, leaves⟩ := rejects.leaves
    (job.compileRequest g (g.modules.map job.staging.sourceFile)) w.files w.tools
  obtain ⟨report, answer, said, success⟩ := rejects.compile
    (job.compileRequest g (g.modules.map job.staging.sourceFile)) w.files w.tools
  refine ⟨stays, ?_, report, answer, ?_, success⟩
  · intro m isModule
    exact (leaves _ (List.mem_map_of_mem isModule)).trans (staged m isModule)
  · rw [said]
    refine List.flatMap_congr fun source isSource => ?_
    simp only [rejectionsAt, leaves source isSource]

/-- What holds of the files and the compiler's answer in each phase of a repair. -/
def OnCourse (job : Job) (rejected : String → Bool) (g : Graph) (files : FileTree) :
    Phase → Prop
  | .generate => job.Apart g.modules files
  | .compile sources =>
    job.Apart g.modules files ∧ job.Staged g files ∧ sources = g.modules.map job.staging.sourceFile
  | .diagnose report =>
    job.Apart g.modules files ∧ job.Staged g files ∧ report.stderr = job.complaints rejected g files ∧
      report.success = report.stderr.isEmpty
  | .archive errors => errors = [] ∧ ∀ r ∈ g.references, rejected r.current = false
  | .done result =>
    (∃ n, result = .ok (.packaged job.archive [] [] n)) ∧
      ∀ r ∈ g.references, rejected r.current = false

/-- What holds all along a repair that began with `g₀`. -/
structure Repairing (job : Job) (rejected : String → Bool) (g₀ : Graph) (s : Progress σ) :
    Prop where
  repairable : Repairable rejected job.staging g₀ s.graph
  onCourse : job.OnCourse rejected s.graph s.world.files s.phase

theorem Step.repairing (rejects : t.Rejects rejected) {g₀ : Graph} {s s' : Progress σ}
    (h : Step job t s s') (calm : job.Undisturbed s) (repairing : job.Repairing rejected g₀ s) :
    job.Repairing rejected g₀ s' := by
  obtain ⟨repairable, course⟩ := repairing
  -- four of the ways out of a phase contradict what holds in it
  cases h with
  | written done =>
    obtain ⟨sources, stays, -⟩ := generate_spec done
    exact ⟨repairable, Apart.congr course rfl stays, fun m => generate_own done course, sources⟩
  | unwritten failed =>
    have writes : (_ : Except _ _ × _).1.isOk = true := calm.writable
    rw [failed] at writes
    cases writes
  | compiled answered =>
    obtain ⟨apart, staged, sources⟩ := course
    rw [sources] at answered
    obtain ⟨stays, staged, report, answer, said, success⟩ :=
      compile_rejects rejects staged answered
    cases answer
    exact ⟨repairable, apart.congr rfl stays, staged, said, success⟩
  | uncompiled failed =>
    obtain ⟨-, staged, sources⟩ := course
    rw [sources] at failed
    obtain ⟨-, -, report, answer, -⟩ := compile_rejects rejects staged failed
    cases answer
  | unlocated first =>
    obtain ⟨-, staged, said, success⟩ := course
    rw [said] at first success
    have none := complaints_eq_nil repairable calm staged first
    have accepted := accepted_of_no_complaints repairable calm staged none
    exact ⟨repairable, by simp [unlocatedErrors, success, none], accepted⟩
  | corrected first moved =>
    obtain ⟨apart, staged, said, -⟩ := course
    rw [said] at first
    obtain ⟨g', moved', repairable'⟩ := correct_first repairable calm staged first
    cases moved.symm.trans moved'
    exact ⟨repairable', apart.congr (repairable'.paths.trans repairable.paths.symm) rfl⟩
  | gaveUp first failed =>
    obtain ⟨-, staged, said, -⟩ := course
    rw [said] at first
    obtain ⟨g', moved', -⟩ := correct_first repairable calm staged first
    cases failed.symm.trans moved'
  | packaged done =>
    obtain ⟨rfl, accepted⟩ := course
    have packed := package_rejects rejects repairable.entry calm.writable
    rw [done] at packed
    cases packed
    exact ⟨repairable, ⟨_, rfl⟩, accepted⟩
  | unpackaged failed =>
    have packed := package_rejects rejects repairable.entry calm.writable
    rw [failed] at packed
    cases packed
  | stopped => exact ⟨repairable, course⟩

/-- A build against a compiler that rejects some imports makes the archive, with the
    first candidate selected for every reference that is not rejected, and it needs one
    correction for each candidate before it. -/
theorem build_repairs (rejects : t.Rejects rejected) {g : Graph} {w : World σ}
    (correctable : Correctable rejected job.staging g)
    (fresh : ∀ r ∈ g.references, r.selected = 0) (apart : job.Apart g.modules w.files)
    (calm : ∀ s, job.Reaches t { graph := g, world := w } s → job.Undisturbed s) :
    ∃ g' w' corrections,
      job.build t g w = (.ok (.packaged job.archive [] [] corrections), g', w') ∧
      g'.references = g.references.map (Reference.settled rejected) ∧
      (∀ r ∈ g'.references, rejected r.current = false) ∧
      corrections = g'.total Reference.selected ∧
      w'.compileCalls = w.compileCalls + corrections + 1 := by
  obtain ⟨s', result, reached, done, built⟩ := run_reaches job t { graph := g, world := w }
  have start := Repairable.start correctable fresh
  have counted := reached.counted (.start start.inRange)
  -- not `Reaches.invariant`: that nothing gets in the way is known of reached states only
  have repairing : job.Repairing rejected g s' := by
    clear done built counted
    induction reached with
    | refl => exact ⟨start, apart⟩
    | next before ih => exact (step_spec job t _).repairing rejects (calm _ before) ih
  obtain ⟨repairable, course⟩ := repairing
  rw [done] at course
  obtain ⟨⟨n, rfl⟩, accepted⟩ := course
  have settled (r : Reference) (member : r ∈ s'.graph.references) :
      r.settled rejected = r :=
    (repairable.tried r member).settled_eq (repairable.inRange r member) (accepted r member)
  have initial : g.total Reference.selected = 0 := Graph.total_eq_zero fresh
  obtain ⟨_, selected, -, ⟨calls, one, called⟩, packaged⟩ := counted
  obtain rfl := packaged _ _ _ _ done
  rw [done] at one
  obtain rfl : calls = 1 := one
  refine ⟨s'.graph, s'.world, _, built, ?_, accepted, ?_, called⟩
  · rw [← repairable.goal, List.map_congr_left settled, List.map_id']
  · simp only [initial] at selected
    omega

/-- Where the donor is corrected after the entry, although its import comes first. -/
theorem build_repairs_ambiguous :
    ∃ g' w' corrections,
      Job.scratch.build (.rejecting (· == "java.awt.List")) .ambiguous .scratch =
          (.ok (.packaged ⟨"Main.jar"⟩ [] [] corrections), g', w') ∧
      g'.references.map Reference.current = ["java.util.List", "java.util.List"] := by
  have calm : Job.scratch.holdsFor (.rejecting (· == "java.awt.List"))
      (fun s => decide (Job.scratch.Undisturbed s)) 10
      { graph := .ambiguous, world := .scratch } = true := by
    decide +kernel
  have correctable : Correctable (· == "java.awt.List") Job.scratch.staging .ambiguous :=
    ⟨by decide +kernel, by decide +kernel, by decide +kernel, by decide +kernel,
      by decide +kernel, by decide +kernel⟩
  have apart : Job.scratch.Apart Graph.ambiguous.modules World.scratch.files := by decide +kernel
  obtain ⟨g', w', corrections, built, settled, -⟩ := build_repairs
    (Toolchain.rejecting_rejects (· == "java.awt.List")) correctable (by decide) apart
    fun s reached => of_decide_eq_true (reached.of_holdsFor calm)
  exact ⟨g', w', corrections, built, by rw [settled]; decide +kernel⟩

end Job

end ScriptJar

import Mathlib.Data.List.Nodup
import ScriptJar.Build.Job
import ScriptJar.Proofs.Places
import ScriptJar.Proofs.TextFacts

/-! # Generated sources

What stands in the staging directory once the sources are written: at every path the
text of a module, and of the right one if no two modules go to one place.  The lines
of such a text are the imports of the references and the lines of everything else.

* `Job.generate_spec` — the texts that can be read afterwards;
* `Module.mem_lines_javaText` — the lines of a source.
-/

namespace ScriptJar

open Text

/-! ## Lines of a source -/

/-- A text on a line of its own. -/
def physicalLines (statement : String) : List String :=
  linesOf (statement ++ "\n")

namespace Module

def importOf (name : String) : String :=
  s!"import {name};"

theorem importLine_eq (r : Reference) : importLine r = importOf r.current := rfl

theorem toList_importOf (name : String) :
    (importOf name).toList = "import ".toList ++ name.toList ++ [';'] := by
  simp [importOf, toString]

/-- The statements of the source other than imports of references. -/
def otherStatements (m : Module) : List String :=
  (m.package.toList.map fun p => s!"package {p};")
    ++ (m.staticImports.map fun name => s!"import static {name};") ++ [m.typeLine]
    ++ m.entryLines ++ m.donors.flatMap classScope ++ m.classScope ++ ["\x7d"]

/-- The lines of the source other than imports of references. -/
def otherLines (m : Module) : List String :=
  m.otherStatements.flatMap physicalLines

theorem mem_plainLines (m : Module) (statement : String) :
    statement ∈ m.plainLines ↔
      statement ∈ m.otherStatements ∨ ∃ r ∈ m.allReferences, statement = importLine r := by
  have imports : statement ∈ (m.donors.flatMap references ++ m.references).map importLine ↔
      ∃ r ∈ m.allReferences, statement = importLine r := by
    simp only [allReferences, List.mem_map, List.mem_append, or_comm, eq_comm]
  simp only [plainLines, importLines, otherStatements, List.mem_append, List.append_assoc] at *
  rw [imports]
  grind

theorem linesOf_javaText {m : Module} (plain : m.javaLines = m.plainLines) :
    linesOf m.javaText = m.plainLines.flatMap physicalLines := by
  have some : m.plainLines.map String.toList ≠ [] := by simp [plainLines]
  have joined : m.javaText.toList = (m.plainLines.map String.toList).flatMap (· ++ ['\n']) := by
    rw [javaText, plain, String.toList_append, String.toList_intercalate]
    exact intercalate_concat ['\n'] some
  have each : physicalLines =
      fun statement => (lines (statement.toList ++ ['\n'])).map String.ofList := by
    funext statement
    rw [physicalLines, linesOf, String.toList_append]
    rfl
  rw [linesOf, joined, lines_flatMap, List.flatMap_map, List.map_flatMap, each]

theorem physicalLines_importOf {name : String} (solid : ∀ c ∈ name.toList, isBlank c = false) :
    physicalLines (importOf name) = [importOf name] := by
  have free (c : Char) (blank : isBlank c = true) (other : c ≠ ' ') :
      c ∉ (importOf name).toList := by
    have absent : c ∉ name.toList := fun member => by simp [solid c member] at blank
    rw [toList_importOf]
    simp only [List.mem_append, absent, or_false]
    rintro (member | member)
    · have word : "import ".toList.all (fun d => d == ' ' || !isBlank d) = true := by decide
      have here := List.all_eq_true.1 word c member
      simp [other, blank] at here
    · rw [List.mem_singleton.1 member] at blank
      exact absurd blank (by decide)
  have one := lines_single ⟨free '\n' (by decide) (by decide), free '\r' (by decide) (by decide)⟩
  rw [physicalLines, linesOf, String.toList_append, show "\n".toList = ['\n'] from rfl, one,
    List.map_singleton, String.ofList_toList]

theorem mem_lines_javaText {m : Module} (plain : m.javaLines = m.plainLines)
    (solid : ∀ r ∈ m.allReferences, ∀ c ∈ r.current.toList, isBlank c = false) (line : String) :
    line ∈ linesOf m.javaText ↔
      line ∈ m.otherLines ∨ ∃ r ∈ m.allReferences, line = importOf r.current := by
  rw [linesOf_javaText plain, List.mem_flatMap, otherLines, List.mem_flatMap]
  constructor
  · rintro ⟨statement, member, inside⟩
    rcases (mem_plainLines m statement).1 member with other | ⟨r, found, rfl⟩
    · exact .inl ⟨statement, other, inside⟩
    · rw [importLine_eq, physicalLines_importOf (solid r found), List.mem_singleton] at inside
      exact .inr ⟨r, found, inside⟩
  · rintro (⟨statement, other, inside⟩ | ⟨r, found, rfl⟩)
    · exact ⟨statement, (mem_plainLines m statement).2 (.inl other), inside⟩
    · refine ⟨importLine r, (mem_plainLines m _).2 (.inr ⟨r, found, rfl⟩), ?_⟩
      rw [importLine_eq, physicalLines_importOf (solid r found)]
      exact List.mem_singleton_self _

end Module

/-! ## Writing the sources -/

namespace Staging

variable {st : Staging} {m : Module} {files files' : FileTree}

theorem makePackage_invariant {P : FileTree → Prop}
    (keeps : ∀ t p t', t.makeDirectory p = .ok t' → P t → P t') {file : Path}
    {r : Except Failure Unit} (h : makePackage file files = (r, files')) (start : P files) :
    P files' := by
  unfold makePackage at h
  cases parent : file.parent? with
  | none =>
    simp only [parent, Prod.mk.injEq] at h
    rw [← h.2]
    exact start
  | some dir =>
    simp only [parent] at h
    rcases made : files.makeDirectories dir with ⟨_ | _, files₁⟩
    all_goals
      simp only [made, Prod.mk.injEq] at h
      rw [← h.2]
      exact FileTree.makeDirectories_invariant keeps made start

theorem makePackage_grows {file : Path} {r : Except Failure Unit}
    (h : makePackage file files = (r, files')) : files.Grows files' :=
  makePackage_invariant (P := files.Grows)
    (fun _ _ _ made grows => grows.trans (FileTree.makeDirectory_grows made)) h (.refl files)

theorem writeSource_spec {text : String} {file : Path}
    (h : st.writeSource m text files = (.ok file, files')) :
    file = st.sourceFile m ∧ files'.workingDirectory = files.workingDirectory ∧
      files'.readText file = .ok text ∧
      ∀ q y, files.readText q = .ok y →
        files'.readText q =
          .ok (if files.placeOf q = files.placeOf (st.sourceFile m) then text else y) := by
  unfold writeSource at h
  rcases made : makePackage (st.sourceFile m) files with ⟨_ | _, files₁⟩
  · simp [made] at h
  · have grows := makePackage_grows made
    cases written : files₁.writeText (st.sourceFile m) text with
    | error e => simp [made, written] at h
    | ok files₂ =>
      simp only [made, written, Prod.mk.injEq, Except.ok.injEq] at h
      obtain ⟨rfl, rfl⟩ := h
      refine ⟨rfl, ?_, FileTree.readText_of_written written, fun q y before => ?_⟩
      · rw [FileTree.workingDirectory_writeText written, grows.workingDirectory]
      · have after := FileTree.readText_writeText written (grows.readText before)
        rwa [FileTree.placeOf_congr grows.workingDirectory,
          FileTree.placeOf_congr grows.workingDirectory] at after

end Staging

namespace Job

variable {job : Job} {modules : List Module} {files files' : FileTree} {sources : List Path}

theorem andThen_eq_ok {α β : Type} {first : Except Failure α × FileTree}
    {go : α → FileTree → Except Failure β × FileTree} {b : β}
    (h : andThen first go = (.ok b, files')) :
    ∃ a files, first = (.ok a, files) ∧ go a files = (.ok b, files') := by
  rcases first with ⟨_ | a, files⟩
  · cases h
  · exact ⟨a, files, rfl, h⟩

theorem generate_cons {m : Module}
    (h : job.generate (m :: modules) files = (.ok sources, files')) :
    ∃ files₁ file rest, job.staging.writeSource m m.javaText files = (.ok file, files₁) ∧
      job.generate modules files₁ = (.ok rest, files') ∧ sources = file :: rest := by
  rw [generate] at h
  obtain ⟨file, files₁, written, more⟩ := andThen_eq_ok h
  obtain ⟨rest, files₂, others, last⟩ := andThen_eq_ok more
  cases last
  exact ⟨files₁, file, rest, written, others, rfl⟩

/-- A text that could be read before is still there, or gave way to the text of a
    module that goes to its place. -/
theorem generate_frame (h : job.generate modules files = (.ok sources, files')) {q : Path}
    {x : String} (before : files.readText q = .ok x) :
    files'.readText q = .ok x ∨
      ∃ m ∈ modules, files.placeOf (job.staging.sourceFile m) = files.placeOf q ∧
        files'.readText q = .ok m.javaText := by
  -- a later module may overwrite what an earlier one wrote over
  induction modules generalizing files sources x with
  | nil =>
    cases h
    exact .inl before
  | cons m modules ih =>
    obtain ⟨files₁, file, rest, written, others, rfl⟩ := generate_cons h
    obtain ⟨-, stays, -, frame⟩ := Staging.writeSource_spec written
    rcases ih others (frame q x before) with kept | ⟨m', member, same, text⟩
    · split at kept
      · next same => exact .inr ⟨m, List.mem_cons_self, same.symm, kept⟩
      · exact .inl kept
    · rw [FileTree.placeOf_congr stays, FileTree.placeOf_congr stays] at same
      exact .inr ⟨m', List.mem_cons_of_mem _ member, same, text⟩

/-- At the path of every module stands the text of a module that goes there. -/
theorem generate_spec (h : job.generate modules files = (.ok sources, files')) :
    sources = modules.map job.staging.sourceFile ∧
      files'.workingDirectory = files.workingDirectory ∧
      ∀ m ∈ modules, ∃ m' ∈ modules,
        files.placeOf (job.staging.sourceFile m') = files.placeOf (job.staging.sourceFile m) ∧
        files'.readText (job.staging.sourceFile m) = .ok m'.javaText := by
  induction modules generalizing files sources with
  | nil =>
    cases h
    exact ⟨rfl, rfl, by simp⟩
  | cons m modules ih =>
    obtain ⟨files₁, file, rest, written, others, rfl⟩ := generate_cons h
    obtain ⟨rfl, stays, text, -⟩ := Staging.writeSource_spec written
    obtain ⟨rfl, stays', each⟩ := ih others
    refine ⟨rfl, stays'.trans stays, fun x member => ?_⟩
    simp only [FileTree.placeOf_congr stays] at each
    rcases List.mem_cons.1 member with rfl | member
    · -- a later module may go to the same place
      rcases generate_frame others text with kept | ⟨m', later, same, text'⟩
      · exact ⟨x, List.mem_cons_self, rfl, kept⟩
      · rw [FileTree.placeOf_congr stays, FileTree.placeOf_congr stays] at same
        exact ⟨m', List.mem_cons_of_mem _ later, same, text'⟩
    · obtain ⟨m', later, same, text'⟩ := each x member
      exact ⟨m', List.mem_cons_of_mem _ later, same, text'⟩

/-- Every source has a place of its own. -/
def Apart (job : Job) (modules : List Module) (files : FileTree) : Prop :=
  (modules.map fun m => files.placeOf (job.staging.sourceFile m)).Nodup

instance (job : Job) (modules : List Module) (files : FileTree) :
    Decidable (job.Apart modules files) :=
  inferInstanceAs (Decidable (List.Nodup _))

theorem Apart.congr {modules' : List Module} (h : job.Apart modules files)
    (paths : modules'.map Module.sourcePath = modules.map Module.sourcePath)
    (stays : files'.workingDirectory = files.workingDirectory) : job.Apart modules' files' := by
  have places (ms : List Module) : ms.map (fun m => files.placeOf (job.staging.sourceFile m)) =
      (ms.map Module.sourcePath).map fun p => files.placeOf (job.staging.sources / p) := by
    simp [Staging.sourceFile]
  simp only [Apart, FileTree.placeOf_congr stays] at h ⊢
  rwa [places, paths, ← places]

/-- Where every module has a place of its own, its text stands there. -/
theorem generate_own (h : job.generate modules files = (.ok sources, files'))
    (apart : job.Apart modules files) {m : Module}
    (member : m ∈ modules) : files'.readText (job.staging.sourceFile m) = .ok m.javaText := by
  obtain ⟨m', member', same, text⟩ := (generate_spec h).2.2 m member
  rwa [List.inj_on_of_nodup_map apart member' member same] at text

/-- At the path of every module stands its text. -/
def Staged (job : Job) (g : Graph) (files : FileTree) : Prop :=
  ∀ m ∈ g.modules, files.readText (job.staging.sourceFile m) = .ok m.javaText

end Job

end ScriptJar

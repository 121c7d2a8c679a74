import ScriptJar.Proofs.Generation
import ScriptJar.Proofs.LocatedLines
import ScriptJar.Proofs.Paths
import ScriptJar.Proofs.Selection

/-! # A compiler that rejects imports

A compiler that knows a fixed set of names and complains about every import of one of
them, line by line, and about nothing else.  Each complaint points at the line it is
about, and a correction after it moves a reference that is imported by that name.

* `Toolchain.Rejects` — such a compiler, with an archiver that never complains;
* `Diagnostic.parse?_rejection` — a complaint is read as what it says;
* `Graph.correct_import` — the correction after a complaint.
-/

namespace ScriptJar

open Text

/-! ## Complaints -/

/-- The name that a line imports, if it is an import and nothing else. -/
def importedName? (line : String) : Option String :=
  ((after? "import ".toList line.toList).bind (before? [';'])).map String.ofList

theorem importedName?_eq_some {line name : String} :
    importedName? line = some name ↔ line = Module.importOf name := by
  rw [← String.toList_inj, Module.toList_importOf]
  simp only [importedName?, Option.map_eq_some_iff, Option.bind_eq_some_iff, after?_eq_some,
    before?_eq_some]
  constructor
  · rintro ⟨_, ⟨_, line, rfl⟩, rfl⟩
    simp [line]
  · intro line
    exact ⟨name.toList, ⟨_, by rw [line, List.append_assoc], rfl⟩, String.ofList_toList⟩

theorem Module.importOf_inj {a b : String} (h : importOf a = importOf b) : a = b := by
  have := importedName?_eq_some.2 h
  rw [importedName?_eq_some.2 rfl] at this
  exact Option.some.inj this

/-- What the compiler says about the import of a name at a line. -/
def rejection (source : Path) (n : Nat) (name : String) : String :=
  s!"{source.text}:{Nat.repr n}: error: reference to {name} is ambiguous"

/-- What the compiler says about a text: one complaint for each line that imports a
    rejected name. -/
def rejections (rejected : String → Bool) (source : Path) (text : String) : List String :=
  ((linesOf text).zipIdx 1).filterMap fun (line, n) =>
    ((importedName? line).filter rejected).map (rejection source n)

def rejectionsAt (rejected : String → Bool) (files : FileTree) (source : Path) : List String :=
  match files.readText source with
  | .ok text => rejections rejected source text
  | .error _ => []

/-- A compiler that rejects the imports of some names, says nothing else, and fails if
    it has said something; it leaves the sources and the working directory alone.  The
    archiver says nothing. -/
structure Toolchain.Rejects {σ : Type} (t : Toolchain σ) (rejected : String → Bool) : Prop where
  compile : ∀ request files tools, ∃ report,
    (t.compile request files tools).result = .ok report ∧
      report.stderr = request.sources.flatMap (rejectionsAt rejected files) ∧
      report.success = report.stderr.isEmpty
  leaves : ∀ request files tools,
    (t.compile request files tools).files.workingDirectory = files.workingDirectory ∧
      ∀ source ∈ request.sources,
        (t.compile request files tools).files.readText source = files.readText source
  archive : ∀ request files tools, ∃ report,
    (t.archive request files tools).result = .ok report ∧ report.stderr = []

/-- The simplest such tools. -/
def Toolchain.rejecting (rejected : String → Bool) : Toolchain Unit where
  compile request files tools :=
    let stderr := request.sources.flatMap (rejectionsAt rejected files)
    { result := .ok { stderr, success := stderr.isEmpty }, files, tools }
  archive _ files tools := { result := .ok {}, files, tools }

theorem Toolchain.rejecting_rejects (rejected : String → Bool) :
    (rejecting rejected).Rejects rejected where
  compile _ _ _ := ⟨_, rfl, rfl, rfl⟩
  leaves _ _ _ := ⟨rfl, fun _ _ => rfl⟩
  archive _ _ _ := ⟨_, rfl, rfl⟩

theorem mem_rejections {rejected : String → Bool} {source : Path} {text complaint : String} :
    complaint ∈ rejections rejected source text ↔
      ∃ i name, (linesOf text)[i]? = some (Module.importOf name) ∧ rejected name = true ∧
        complaint = rejection source (i + 1) name := by
  simp only [rejections, List.mem_filterMap, Prod.exists, Option.map_eq_some_iff,
    Option.filter_eq_some_iff, importedName?_eq_some, List.mk_mem_zipIdx_iff_le_and_getElem?_sub]
  constructor
  · rintro ⟨line, n, ⟨positive, found⟩, name, ⟨rfl, bad⟩, rfl⟩
    exact ⟨n - 1, name, found, bad, by rw [Nat.sub_add_cancel positive]⟩
  · rintro ⟨i, name, found, bad, rfl⟩
    exact ⟨_, i + 1, ⟨by omega, by simpa using found⟩, name, ⟨rfl, bad⟩, rfl⟩

/-! ## Reading a complaint -/

theorem Diagnostic.parse?_rejection {st : Staging} {m : Module} {n : Nat} (name : String)
    (plain : ':' ∉ (st.sourceFile m).text.toList ∧ '\n' ∉ (st.sourceFile m).text.toList)
    (fits : n < wordBound) :
    parse? (rejection (st.sourceFile m) n name) =
      some ⟨st.sourceFile m, n, rejection (st.sourceFile m) n name⟩ := by
  obtain ⟨path, some, text⟩ := st.toList_sourceFile m
  have line : rejection (st.sourceFile m) n name =
      String.ofList (path ++ ".java".toList ++ ':' :: Nat.toDigits 10 n ++ ": error".toList
        ++ (": reference to ".toList ++ name.toList ++ " is ambiguous".toList)) := by
    rw [← String.toList_inj, String.toList_ofList, ← text]
    simp [rejection, toString]
  have file : st.sourceFile m = ⟨String.ofList (path ++ ".java".toList)⟩ := by
    rw [← text, String.ofList_toList]
  rw [text] at plain
  simp only [List.mem_append, not_or] at plain
  rw [line, file]
  exact parse?_located ⟨plain.1.1, plain.2.1⟩ some fits

/-! ## The correction after a complaint -/

def Solid (name : String) : Prop :=
  ∀ c ∈ name.toList, isBlank c = false

instance (name : String) : Decidable (Solid name) :=
  List.decidableBAll (isBlank · = false) name.toList

theorem trimEnd_importOf (name : String) :
    trimEnd (Module.importOf name).toList = (Module.importOf name).toList := by
  rw [Module.toList_importOf, trimEnd_append_cons _ [] (by decide)]
  rfl

/-- A line that imports a name ends like the import of a reference only if the selected
    name of the reference is an ending of that name. -/
theorem suffix_of_endsLine {r : Reference} {name : String} (solid : Solid r.current)
    (ends : Graph.endsLine (trimEnd (Module.importOf name).toList) r = true) :
    r.current.toList <:+ name.toList := by
  rw [trimEnd_importOf, Module.toList_importOf, Graph.endsLine, List.isSuffixOf_iff_suffix] at ends
  obtain ⟨front, whole⟩ := ends
  rw [← List.append_assoc, List.append_cancel_right_eq, List.append_eq_append_iff] at whole
  rcases whole with ⟨middle, start, same⟩ | ⟨middle, -, same⟩
  · -- the name reaches back into the word `import` and its blank, or is the whole name
    rcases List.eq_nil_or_concat middle with rfl | ⟨before, last, rfl⟩
    · exact ⟨[], same⟩
    · have blank : last = ' ' := by
        have := congrArg List.getLast? start
        simpa using this.symm
      have := solid last (by rw [same]; simp)
      rw [blank] at this
      exact absurd this (by decide)
  · exact ⟨middle, same.symm⟩

theorem endsLine_importOf {r : Reference} {name : String} (same : r.current = name) :
    Graph.endsLine (trimEnd (Module.importOf name).toList) r = true := by
  rw [trimEnd_importOf, Module.toList_importOf, Graph.endsLine, List.isSuffixOf_iff_suffix, same,
    List.append_assoc]
  exact List.suffix_append _ _

namespace Graph

variable {g : Graph}

/-- If some reference fits and all that fit can move, one that fits is moved. -/
theorem advanceFirst_moves {fits : Reference → Bool} {P : Reference → Prop}
    (some : ∃ r ∈ g.references, fits r = true)
    (can : ∀ r ∈ g.references, fits r = true → P r ∧ r.canAdvance = true) :
    ∃ g', g.advanceFirst fits = (true, g') ∧ g.Changed (fun r r' => r.Raised r' ∧ P r) g' := by
  obtain ⟨r, member, fit⟩ := some
  rcases advanced : g.advanceFirst fits with ⟨moved, g'⟩
  rcases advanceFirst_cases advanced with ⟨none, -⟩ | ⟨before, x, after, place, -, fit, rfl, rfl⟩
  · simp [none r member] at fit
  · obtain ⟨property, moves⟩ := can x (by simp [place]) fit
    refine ⟨_, by rw [moves], ?_⟩
    exact changed_modifyReference (getElem?_place place) ⟨Reference.advance_raised moves, property⟩

/-- After a complaint about the import of a name, a reference that is imported by that
    name moves on, if all such references can. -/
theorem correct_import {files : FileTree} {d : Diagnostic} {name : String}
    (line : d.sourceLine files = .ok (some (Module.importOf name)))
    (known : ∃ r ∈ g.references, r.current = name)
    (fits : ∀ r ∈ g.references,
      endsLine (trimEnd (Module.importOf name).toList) r = true → r.current = name)
    (can : ∀ r ∈ g.references, r.current = name → r.canAdvance = true) :
    ∃ g', g.correct files d = (true, g', []) ∧
      g.Changed (fun r r' => r.Raised r' ∧ r.current = name) g' := by
  obtain ⟨r, member, same⟩ := known
  obtain ⟨g', moved, changed⟩ := advanceFirst_moves ⟨r, member, endsLine_importOf same⟩
    fun r member ends => ⟨fits r member ends, can r member (fits r member ends)⟩
  have byLine : g.correctByLine (Module.importOf name) = (true, g') := moved
  exact ⟨g', by simp only [correct, line, byLine], changed⟩

end Graph

end ScriptJar

import ScriptJar.Build.Session
import ScriptJar.Proofs.BuildLog
import ScriptJar.Proofs.Rejection

/-! # Where generated sources go

The source of a module belongs below the staging directory, which is removed after the
build.  It goes there unless a part of the module's package starts at the root: a path
that is absolute replaces what it is read from.

* `Path.Descends` — paths of which every segment is a name;
* `Module.isAbsolute_sourcePath` — when the path of a source starts at the root;
* `Staging.encloses_iff` — which sources stay in the staging directory.
-/

namespace ScriptJar

/-! ## Paths that go down -/

/-- A relative path that never goes up. -/
def Path.Descends (p : Path) : Prop :=
  p.isAbsolute = false ∧ ['.', '.'] ∉ p.moves

namespace Path

variable {p q : Path}

theorem Descends.join (first : p.Descends) (second : q.Descends) : (p.join q).Descends := by
  refine ⟨by rw [isAbsolute_join, first.1, second.1]; rfl, ?_⟩
  rw [moves_join_relative p second.1, List.mem_append]
  rintro (early | late)
  · exact first.2 early
  · exact second.2 late

theorem components_join_descends (down : q.Descends) (named : p.text ≠ "") :
    (p.join q).components = p.components ++ (q.moves.map String.ofList).map .name := by
  rw [components_join down.1 named, List.map_map]
  congr 1
  refine List.map_congr_left fun segment member => ?_
  rw [Component.ofSegment, if_neg]
  · rfl
  · rintro rfl
    exact down.2 member

theorem head?_components (absolute : p.isAbsolute = true) : p.components.head? = some .root := by
  cases text : p.text.toList with
  | nil => simp [isAbsolute, text] at absolute
  | cons c rest =>
    obtain rfl : c = '/' := by simpa [isAbsolute, text] using absolute
    rw [components_eq, text]
    rfl

end Path

namespace FileTree

variable {t t' : FileTree}

theorem foldl_goTo {segments : List (List Char)} (here : Place)
    (named : ∀ segment ∈ segments, Path.isVoid segment = false ∧ segment ≠ ['.', '.']) :
    segments.foldl goTo here = here ++ segments.map String.ofList := by
  induction segments generalizing here with
  | nil => simp
  | cons segment segments ih =>
    obtain ⟨leads, down⟩ := named segment List.mem_cons_self
    rw [List.foldl_cons, ih _ fun s member => named s (List.mem_cons_of_mem _ member)]
    simp [goTo, leads, down]

/-- A path that goes down leads below the place it is read from. -/
theorem placeOf_join (t : FileTree) (p : Path) {q : Path} (down : q.Descends) :
    t.placeOf (p.join q) = t.placeOf p ++ q.moves.map String.ofList := by
  have origin : t.origin (p.join q) = t.origin p := by
    simp [origin, Path.isAbsolute_join, down.1]
  rw [placeOf_eq, placeOf_eq, Path.moves_join_relative p down.1, List.foldl_append, origin]
  refine foldl_goTo _ fun segment member => ⟨?_, ?_⟩
  · simpa using (List.mem_filter.1 member).2
  · rintro rfl
    exact down.2 member

/-! ## Removing -/

/-- Nothing is left of a directory that was removed. -/
theorem get?_of_removed {p : Path} (removed : t.removeDirectory p = .ok t') {names : List String}
    (below : names ≠ []) : t'.get? (t'.placeOf p ++ names) = none := by
  unfold removeDirectory at removed
  cases found : t.resolve p with
  | error e => simp [found] at removed
  | ok place =>
    simp only [found] at removed
    split at removed
    · cases removed
      have place_eq : (t.erase place).placeOf p = place := (resolve_eq_placeOf found).symm
      rw [place_eq]
      -- an entry that is kept does not begin with the place that was removed
      have gone : (t.nodes.filter fun e => !place.isPrefixOf e.1).lookup (place ++ names) =
          none := by
        rw [List.lookup_eq_none_iff]
        intro e member
        have apart := (List.mem_filter.1 member).2
        rw [bne_iff_ne]
        intro same
        rw [← same, List.isPrefixOf_iff_prefix.2 (List.prefix_append place names)] at apart
        cases apart
      cases whole : place ++ names with
      | nil => simp [below] at whole
      | cons name rest => simpa [get?, erase, whole] using gone
    · contradiction

/-- Making directories leaves no new file. -/
theorem makeDirectory_file {p : Path} (h : t.makeDirectory p = .ok t') {place : Place}
    {content : Content} (there : t'.get? place = some (.file content)) :
    t.get? place = some (.file content) := by
  obtain ⟨made, named, -, rfl⟩ := makeDirectory_spec h
  rw [get?_set named] at there
  split at there
  · cases there
  · exact there

end FileTree

/-! ## The path of a source -/

namespace Module

/-- No part of the package starts with a slash. -/
def PackageRelative (m : Module) : Prop :=
  ∀ package ∈ m.package, ∀ part ∈ packageParts package, part.toList.head? ≠ some '/'

instance (m : Module) : Decidable m.PackageRelative :=
  match h : m.package with
  | none => .isTrue (by simp [PackageRelative, h])
  | some package =>
    decidable_of_iff (∀ part ∈ packageParts package, part.toList.head? ≠ some '/')
      (by simp [PackageRelative, h])

theorem isAbsolute_foldl (parts : List String) (dir : Path) :
    (parts.foldl (fun (dir : Path) (part : String) => dir / part) dir).isAbsolute = true ↔
      dir.isAbsolute = true ∨ ∃ part ∈ parts, part.toList.head? = some '/' := by
  induction parts generalizing dir with
  | nil => simp
  | cons part parts ih =>
    -- an absolute part replaces what stands before it, and no later part undoes that
    have join : (dir / part).isAbsolute = (dir.isAbsolute || Path.isAbsolute ⟨part⟩) :=
      Path.isAbsolute_join dir ⟨part⟩
    rw [List.foldl_cons, ih, join]
    simp [Path.isAbsolute, or_assoc]

/-- A part of a package has no dots, so it does not go up. -/
theorem descends_part {package part : String} (member : part ∈ packageParts package)
    (relative : part.toList.head? ≠ some '/') : Path.Descends ⟨part⟩ := by
  refine ⟨by simpa [Path.isAbsolute] using relative, fun up => ?_⟩
  obtain ⟨piece, cut, rfl⟩ := List.mem_map.1 member
  -- the package was cut at its dots, and cutting at slashes brings none back
  have dotless : '.' ∉ piece := Text.notMem_of_mem_splitOn (List.mem_filter.1 cut).1
  have inside := (List.mem_filter.1 up).1
  rw [String.toList_ofList] at inside
  exact dotless (Text.mem_of_mem_splitOn inside (by simp))

theorem descends_foldl {parts : List String} {dir : Path} (start : dir.Descends)
    (down : ∀ part ∈ parts, Path.Descends ⟨part⟩) :
    (parts.foldl (fun (dir : Path) (part : String) => dir / part) dir).Descends := by
  induction parts generalizing dir with
  | nil => exact start
  | cons part parts ih =>
    exact ih (start.join (down part List.mem_cons_self))
      fun part member => down part (List.mem_cons_of_mem _ member)

theorem moves_javaName {m : Module} (plain : '/' ∉ m.identifier.toList) :
    Path.moves ⟨m.identifier ++ ".java"⟩ = [(m.identifier ++ ".java").toList] := by
  obtain ⟨slashless, named, -⟩ := m.javaName_plain plain
  rw [Path.moves, Text.splitOn_of_notMem slashless, List.filter_singleton, named]
  rfl

theorem isAbsolute_javaName {m : Module} (plain : '/' ∉ m.identifier.toList) :
    Path.isAbsolute ⟨m.identifier ++ ".java"⟩ = false := by
  rw [Path.isAbsolute, beq_eq_false_iff_ne]
  intro first
  exact (m.javaName_plain plain).1 (List.mem_of_head? first)

/-- The path of a source starts at the root exactly if a part of the package does. -/
theorem isAbsolute_sourcePath {m : Module} (plain : '/' ∉ m.identifier.toList) :
    m.sourcePath.isAbsolute = true ↔ ¬ m.PackageRelative := by
  have join : m.sourcePath.isAbsolute =
      (m.packageDirectory.isAbsolute || Path.isAbsolute ⟨m.identifier ++ ".java"⟩) :=
    Path.isAbsolute_join _ _
  rw [join, isAbsolute_javaName plain, Bool.or_false]
  cases package : m.package with
  | none => simp [packageDirectory, PackageRelative, package, Path.isAbsolute]
  | some name =>
    simp only [packageDirectory, PackageRelative, package, isAbsolute_foldl]
    simp [Path.isAbsolute]

theorem descends_sourcePath {m : Module} (plain : '/' ∉ m.identifier.toList)
    (relative : m.PackageRelative) :
    m.sourcePath.Descends ∧ m.sourcePath.moves ≠ [] := by
  have start : Path.Descends ⟨""⟩ := ⟨rfl, by decide⟩
  have directory : m.packageDirectory.Descends := by
    cases package : m.package with
    | none => simpa only [packageDirectory, package] using start
    | some name =>
      simp only [packageDirectory, package]
      exact descends_foldl start fun part member =>
        descends_part member (relative name package part member)
  have moves := moves_javaName plain
  have name : Path.Descends ⟨m.identifier ++ ".java"⟩ := by
    refine ⟨isAbsolute_javaName plain, ?_⟩
    rw [moves, List.mem_singleton]
    exact (m.javaName_plain plain).2.2.symm
  refine ⟨directory.join name, ?_⟩
  show (m.packageDirectory.join ⟨m.identifier ++ ".java"⟩).moves ≠ []
  rw [Path.moves_join_relative _ name.1, moves]
  simp

end Module

/-! ## Staging directories -/

namespace Staging

variable {st : Staging} {m : Module} {files files' : FileTree}

/-- The path of a module's source continues that of the directory for sources by names, of
    which there is at least one. -/
def Encloses (st : Staging) (m : Module) : Prop :=
  ∃ names : List String, names ≠ [] ∧
    (st.sourceFile m).components = st.sources.components ++ names.map .name

theorem encloses_of_relative (st : Staging) (plain : '/' ∉ m.identifier.toList)
    (relative : m.PackageRelative) : st.Encloses m := by
  obtain ⟨down, some⟩ := m.descends_sourcePath plain relative
  exact ⟨m.sourcePath.moves.map String.ofList, by simpa using some,
    Path.components_join_descends down st.text_sources_ne⟩

theorem placeOf_sourceFile (st : Staging) (files : FileTree) (plain : '/' ∉ m.identifier.toList)
    (relative : m.PackageRelative) :
    ∃ names, names ≠ [] ∧ files.placeOf (st.sourceFile m) = files.placeOf st.sources ++ names := by
  obtain ⟨down, some⟩ := m.descends_sourcePath plain relative
  exact ⟨m.sourcePath.moves.map String.ofList, by simpa using some,
    files.placeOf_join st.sources down⟩

theorem placeOf_sources (st : Staging) (files : FileTree) :
    files.placeOf st.sources = files.placeOf st.root ++ ["src"] :=
  files.placeOf_join st.root (q := ⟨"src"⟩) ⟨by decide, by decide⟩

theorem sourceFile_eq (st : Staging) (absolute : m.sourcePath.isAbsolute = true) :
    st.sourceFile m = m.sourcePath := by
  show st.sources.join m.sourcePath = m.sourcePath
  rw [Path.join, if_pos absolute]

/-- Writing a source writes no other file. -/
theorem writeSource_file {text : String} {answer : Except Failure Path}
    (h : st.writeSource m text files = (answer, files')) {place : Place} {content : Content}
    (there : files'.get? place = some (.file content)) :
    files.get? place = some (.file content) ∨ place = files.placeOf (st.sourceFile m) := by
  unfold writeSource at h
  rcases made : makePackage (st.sourceFile m) files with ⟨result, files₁⟩
  have grows := makePackage_grows made
  -- the directories that are made on the way are no files
  have kept : ∀ place content, files₁.get? place = some (.file content) →
      files.get? place = some (.file content) := by
    refine makePackage_invariant (P := fun t => ∀ place content,
      t.get? place = some (.file content) → files.get? place = some (.file content)) ?_ made ?_
    · exact fun t p t' made kept place content there =>
        kept place content (FileTree.makeDirectory_file made there)
    · exact fun _ _ there => there
  cases result with
  | error e =>
    simp only [made, Prod.mk.injEq] at h
    rw [← h.2] at there
    exact .inl (kept _ _ there)
  | ok _ =>
    cases written : files₁.writeText (st.sourceFile m) text with
    | error e =>
      simp only [made, written, Prod.mk.injEq] at h
      rw [← h.2] at there
      exact .inl (kept _ _ there)
    | ok files₂ =>
      simp only [made, written, Prod.mk.injEq] at h
      have stays := FileTree.workingDirectory_writeText written
      obtain ⟨target, named, -, rfl, found⟩ := FileTree.write_spec written
      have target_eq : target = files.placeOf (st.sourceFile m) := by
        rw [FileTree.resolve_eq_placeOf found, FileTree.placeOf_congr stays,
          FileTree.placeOf_congr grows.workingDirectory]
      rw [← h.2, FileTree.get?_set named] at there
      split at there
      · next here => exact .inr (here.trans target_eq)
      · exact .inl (kept _ _ there)

/-- Nothing is left of a source once the staging directory is removed. -/
theorem get?_of_removed (removed : st.remove files = .ok files')
    (plain : '/' ∉ m.identifier.toList) (relative : m.PackageRelative) :
    files'.get? (files'.placeOf (st.sourceFile m)) = none := by
  obtain ⟨names, -, place⟩ := st.placeOf_sourceFile files' plain relative
  unfold remove at removed
  cases gone : files.removeDirectory st.root with
  | error e => simp [gone] at removed
  | ok files₁ =>
    simp only [gone, Except.ok.injEq] at removed
    subst removed
    rw [place, st.placeOf_sources, List.append_assoc]
    exact FileTree.get?_of_removed gone (by simp)

end Staging

theorem Session.remove_of_buildFile {σ : Type} {s : Session} {host : Host} {entry : Path}
    {t : Toolchain σ} {w w' : World σ} {outcome : Outcome}
    (built : s.buildFile host entry t false w = (.ok outcome, w')) :
    ∃ files, (Staging.ofEntry w.files host.temporaryDirectory host.process entry).remove files =
      .ok w'.files := by
  unfold buildFile at built
  split at built
  · cases built
  · simp only at built
    split at built
    · cases built
    · simp only [buildIn, Bool.false_eq_true, if_false] at built
      split at built
      · cases built
      · next removed =>
        obtain ⟨-, rfl⟩ := Prod.mk.inj built
        exact ⟨_, removed⟩

/-- The source of a module stays below the directory for sources, in every staging
    directory, exactly if no part of its package starts with a slash.  Then writing it
    writes no file elsewhere, and a build that removes its staging directory leaves nothing
    of it.  Otherwise it goes to one and the same place whatever the staging directory. -/
theorem Staging.encloses_iff {m : Module} {script : Path}
    (named : m.identifier = script.identifier) :
    ((∀ st : Staging, st.Encloses m) ↔ m.PackageRelative) ∧
    (m.PackageRelative →
      (∀ (st : Staging) text files answer files', st.writeSource m text files = (answer, files') →
        ∀ place content, files'.get? place = some (.file content) →
          files.get? place ≠ some (.file content) →
          ∃ names, names ≠ [] ∧ place = files.placeOf st.sources ++ names) ∧
      ∀ (σ : Type) (s : Session) host entry (t : Toolchain σ) w outcome w',
        s.buildFile host entry t false w = (.ok outcome, w') →
        w'.files.get? (w'.files.placeOf ((Staging.ofEntry w.files host.temporaryDirectory
          host.process entry).sourceFile m)) = none) ∧
    (¬ m.PackageRelative → ∀ st : Staging, st.sourceFile m = m.sourcePath) := by
  have plain : '/' ∉ m.identifier.toList := by
    rw [named]
    exact script.slash_notMem_identifier
  refine ⟨⟨fun encloses => ?_, fun relative st => st.encloses_of_relative plain relative⟩,
    fun relative => ⟨?_, ?_⟩, fun rooted st => ?_⟩
  · -- a staging directory in the working directory has no source that starts at the root
    apply Decidable.byContradiction
    intro rooted
    have absolute := (Module.isAbsolute_sourcePath plain).2 rooted
    obtain ⟨names, -, whole⟩ := encloses ⟨⟨"job"⟩⟩
    rw [sourceFile_eq _ absolute] at whole
    have first := Path.head?_components absolute
    have here : (Staging.sources ⟨⟨"job"⟩⟩).components.head? = some (.name "job") := by decide
    rw [whole, List.head?_append, here] at first
    cases first
  · intro st text files answer files' written place content there new
    rcases writeSource_file written there with old | here
    · exact absurd old new
    · rw [here]
      exact st.placeOf_sourceFile files plain relative
  · intro σ s host entry t w outcome w' built
    obtain ⟨files, removed⟩ := Session.remove_of_buildFile built
    exact get?_of_removed removed plain relative
  · exact st.sourceFile_eq ((Module.isAbsolute_sourcePath plain).2 rooted)

/-- A session without libraries. -/
def Session.bare : Session where
  toolchainRoot := ⟨"jdk"⟩

def Host.bare : Host := ⟨⟨"tmp"⟩, 1⟩

/-- A world with one script, which is in a package. -/
def World.inPackage (package : String) : World Unit where
  files := { nodes := [(["tmp"], .directory),
    (["Main.jsc"], .file (.text ("pkg " ++ package ++ ";\nint x = 1;\n")))] }
  tools := ()

/-- A package with dots and slashes, which nevertheless does not go up. -/
theorem Staging.encloses_iff_dotted :
    (∀ st : Staging, st.Encloses { identifier := "Main", package := some "a/..b" }) ∧
    ∃ outcome w', Session.bare.buildFile .bare ⟨"Main.jsc"⟩ (.rejecting fun _ => false) false
        (.inPackage "a/..b") = (.ok outcome, w') ∧
      w'.files.get? (w'.files.placeOf ((Staging.ofEntry (World.inPackage "a/..b").files
        Host.bare.temporaryDirectory Host.bare.process ⟨"Main.jsc"⟩).sourceFile
          { identifier := "Main", package := some "a/..b" })) = none := by
  have named : Module.identifier { identifier := "Main", package := some "a/..b" } =
      Path.identifier ⟨"Main.jsc"⟩ := by decide
  have relative : Module.PackageRelative { identifier := "Main", package := some "a/..b" } := by
    decide
  obtain ⟨iff, stays, -⟩ := Staging.encloses_iff named
  obtain ⟨⟨result, w'⟩, built, packaged⟩ : ∃ b, Session.bare.buildFile .bare ⟨"Main.jsc"⟩
      (.rejecting fun _ => false) false (.inPackage "a/..b") = b ∧
      b.1.toOption = some (.packaged ⟨"JSCRuntime.jar"⟩ [] [] 0) := ⟨_, rfl, by decide +kernel⟩
  obtain rfl := toOption_eq_some.1 packaged
  exact ⟨iff.2 relative, _, w', built, (stays relative).2 _ _ _ _ _ _ _ _ built⟩

/-- A script whose package starts with a slash: its source is written outside the staging
    directory and is still there when that is removed. -/
theorem Session.buildFile_leaves_source :
    ∃ g warnings m outcome w',
      Session.bare.loadGraph ⟨"Main.jsc"⟩ (World.inPackage "/out").files = (.ok g, warnings) ∧
      m ∈ g.modules ∧ m.package = some "/out" ∧
      ¬ (Staging.ofEntry (World.inPackage "/out").files Host.bare.temporaryDirectory
        Host.bare.process ⟨"Main.jsc"⟩).Encloses m ∧
      Session.bare.buildFile .bare ⟨"Main.jsc"⟩ (.rejecting fun _ => false) false
        (.inPackage "/out") = (.ok outcome, w') ∧
      (World.inPackage "/out").files.contains ⟨"/out"⟩ = false ∧
      w'.files.isFile ⟨"/out/Main.java"⟩ = true := by
  obtain ⟨⟨loaded, warnings⟩, read, g, isGraph, m, member, package, outside⟩ : ∃ a,
      Session.bare.loadGraph ⟨"Main.jsc"⟩ (World.inPackage "/out").files = a ∧
      ∃ g ∈ a.1.toOption, ∃ m ∈ g.modules, m.package = some "/out" ∧
        (Staging.ofEntry (World.inPackage "/out").files Host.bare.temporaryDirectory
          Host.bare.process ⟨"Main.jsc"⟩).sources.components.isPrefixOf
          ((Staging.ofEntry (World.inPackage "/out").files Host.bare.temporaryDirectory
            Host.bare.process ⟨"Main.jsc"⟩).sourceFile m).components = false :=
    ⟨_, rfl, by decide +kernel⟩
  obtain rfl := toOption_eq_some.1 isGraph
  obtain ⟨⟨result, w'⟩, built, packaged, left⟩ : ∃ b, Session.bare.buildFile .bare ⟨"Main.jsc"⟩
      (.rejecting fun _ => false) false (.inPackage "/out") = b ∧
      b.1.toOption = some (.packaged ⟨"JSCRuntime.jar"⟩ [] [] 0) ∧
      b.2.files.isFile ⟨"/out/Main.java"⟩ = true := ⟨_, rfl, by decide +kernel⟩
  obtain rfl := toOption_eq_some.1 packaged
  refine ⟨g, warnings, m, _, w', read, member, package, ?_, built, by decide, left⟩
  rintro ⟨names, -, whole⟩
  rw [whole, List.isPrefixOf_iff_prefix.2 (List.prefix_append _ _)] at outside
  cases outside

end ScriptJar

import ScriptJar.Proofs.Containment

/-! # The life of a staging directory

A session makes its staging directory after loading and removes it as its last act, so a
build that stops anywhere still passes the removal.  What a build does itself never takes a
directory away; the compiler and the archiver may, and those that do not are said to spare
it.

* `FileTree.isDirectory_of_makeDirectories`, `FileTree.isDirectory_of_join` — a directory that
  was made is there, and so is the one it stands in;
* `Toolchain.Spares` — tools that leave a directory where it is;
* `Job.build_keeps` — a build leaves it too, whatever comes of it;
* `Session.buildFile_staging` — when a staging directory is there, and when it is not.
-/

namespace ScriptJar

/-! ## Directories that are there -/

/-- The last segment of a path is a name, and no slash follows. -/
structure Path.EndsIn (p : Path) (name : String) : Prop where
  whole : ∃ front, Text.splitOn '/' p.text.toList = front ++ [name.toList]
  leads : Path.isVoid name.toList = false
  down : name.toList ≠ ['.', '.']

namespace Path

variable {p : Path} {name : String}

theorem isAbsolute_of_plain (plain : '/' ∉ name.toList) : isAbsolute ⟨name⟩ = false := by
  unfold isAbsolute
  rw [beq_eq_false_iff_ne]
  exact fun first => plain (List.mem_of_head? first)

/-- Before a name stands a slash, which belongs to the path already or is added to it. -/
theorem lead_of_plain (plain : '/' ∉ name.toList) (named : p.text ≠ "") :
    ∃ front, p.lead ⟨name⟩ = front ++ ['/'] ∧
      (p.text.toList = front ∨ p.text.toList = front ++ ['/']) := by
  unfold lead
  rw [if_neg (by simp [isAbsolute_of_plain plain])]
  split
  · next slash =>
    have ends : p.text.toList.getLast? = some '/' := by simpa [named] using slash
    obtain ⟨front, whole⟩ := List.getLast?_eq_some_iff.1 ends
    exact ⟨front, whole, .inr whole⟩
  · exact ⟨_, rfl, .inl rfl⟩

namespace EndsIn

theorem ne_nil (h : p.EndsIn name) : name.toList ≠ [] := by
  intro none
  simpa [none, isVoid] using h.leads

theorem fileName? (h : p.EndsIn name) : p.fileName? = some name := by
  obtain ⟨front, whole⟩ := h.whole
  rw [fileName?_eq, moves, whole]
  simp [h.leads, h.down]

/-- A name that is read from a path comes last. -/
theorem join (p : Path) (plain : '/' ∉ name.toList) (leads : isVoid name.toList = false)
    (down : name.toList ≠ ['.', '.']) : (p.join ⟨name⟩).EndsIn name := by
  refine ⟨?_, leads, down⟩
  rw [toList_join]
  by_cases empty : p.text = ""
  · exact ⟨[], by simp [lead, empty, Text.splitOn_of_notMem plain]⟩
  · obtain ⟨front, whole, -⟩ := lead_of_plain plain empty
    refine ⟨Text.splitOn '/' front, ?_⟩
    rw [whole, List.append_assoc, List.singleton_append, Text.splitOn_append_cons,
      Text.splitOn_of_notMem plain]

end EndsIn

end Path

namespace FileTree

variable {t t' t'' : FileTree} {p : Path} {here place : Place} {name : String}

theorem isDirectory_iff : t.isDirectory p = true ↔
    ∃ place, t.resolve p = .ok place ∧ t.get? place = some .directory := by
  unfold isDirectory node
  cases t.resolve p with
  | error e => simp
  | ok place =>
    cases there : t.get? place with
    | none => simp [there]
    | some n => cases n <;> simp [there]

theorem isDirectory_of_contains (h : t.contains p = false) : t.isDirectory p = false := by
  unfold contains at h
  unfold isDirectory
  split at h
  · cases h
  · next failed => rw [failed]

theorem resolve_eq_ok : t.resolve p = .ok place ↔ pathError? p = none ∧
    t.walk (t.origin p) (Text.splitOn '/' p.text.toList) = .ok place := by
  unfold resolve
  cases pathError? p <;> simp

theorem walk_append {front back : List (List Char)} :
    t.walk here (front ++ back) = .ok place ↔
      ∃ mid, t.walk here front = .ok mid ∧ t.walk mid back = .ok place := by
  induction front generalizing here with
  | nil => simp [walk]
  | cons segment front ih =>
    rw [List.cons_append, walk_cons, ih]
    simp only [walk_cons, and_assoc, exists_and_left]

theorem Leads.refl (t : FileTree) : Leads t t := ⟨rfl, fun _ h => h, fun _ h => h⟩

theorem Leads.trans (first : Leads t t') (second : Leads t' t'') : Leads t t'' where
  workingDirectory := second.workingDirectory.trans first.workingDirectory
  directory place h := second.directory place (first.directory place h)
  something place h := second.something place (first.something place h)

/-- From one tree to another, the working directory stays and so does a directory. -/
structure Keeps (p : Path) (t t' : FileTree) : Prop where
  workingDirectory : t'.workingDirectory = t.workingDirectory
  there : t.isDirectory p = true → t'.isDirectory p = true

theorem Keeps.refl (p : Path) (t : FileTree) : Keeps p t t := ⟨rfl, id⟩

theorem Keeps.trans (first : Keeps p t t') (second : Keeps p t' t'') : Keeps p t t'' :=
  ⟨second.workingDirectory.trans first.workingDirectory, fun h => second.there (first.there h)⟩

theorem Leads.keeps (leads : Leads t t') (p : Path) : Keeps p t t' where
  workingDirectory := leads.workingDirectory
  there h := by
    obtain ⟨place, found, directory⟩ := isDirectory_iff.1 h
    exact isDirectory_iff.2 ⟨place, leads.resolve found, leads.directory place directory⟩

/-! ## Making directories -/

theorem slash_of_target {g : Target} (h : t.target p = .ok g) (ends : p.EndsIn name) :
    g.slash = false := by
  obtain ⟨front, whole⟩ := ends.whole
  unfold target at h
  cases refused : pathError? p with
  | some e => simp [refused] at h
  | none =>
    simp only [refused, whole] at h
    split at h
    · cases h
    · split at h
      · cases h
      · cases h
        simp [ends.ne_nil]

/-- The path of a directory that was made leads to it. -/
theorem isDirectory_of_made (ends : p.EndsIn name) (h : t.makeDirectory p = .ok t') :
    t'.isDirectory p = true := by
  have grows := makeDirectory_grows h
  unfold makeDirectory at h
  cases aim : t.target p with
  | error e => simp [aim] at h
  | ok g =>
    simp only [aim] at h
    split at h
    · cases h
    · next free =>
      split at h
      · cases h
      · next short =>
        split at h
        · cases h
        · obtain rfl := Except.ok.inj h
          rw [Bool.not_eq_true] at free
          obtain ⟨valid, directory, front', cut, walked⟩ :=
            target_spec aim free (slash_of_target aim ends)
          have leads : Path.isVoid g.segment = false ∧ g.segment ≠ ['.', '.'] := by
            simpa [Target.isFixed] using free
          have there : (t.set g.place .directory).get? g.place = some .directory := by
            rw [get?_set g.place_ne_nil, if_pos rfl]
          have opens : (t.set g.place .directory).Opens g.directory g.segment :=
            ⟨grows.kept _ _ directory, fun _ _ => ⟨Nat.le_of_not_lt short, by
              rw [show g.directory ++ [String.ofList g.segment] = g.place from rfl, there]
              rfl⟩⟩
          refine isDirectory_iff.2 ⟨g.place, resolve_eq_ok.2 ⟨valid, ?_⟩, there⟩
          rw [cut, grows.leads.origin, walk_concat (grows.leads.walk walked) opens]
          simp [goTo, leads, Target.place, Target.name]

/-- Going up keeps the path that was missing first. -/
theorem climb_getLast? {missing missing' ps : List Path} (going : missing ≠ [])
    (h : t.climb missing ps = (.ok missing', t')) : missing'.getLast? = missing.getLast? := by
  induction ps generalizing missing with
  | nil =>
    obtain ⟨same, -⟩ := Prod.mk.inj h
    rw [Except.ok.inj same]
  | cons p ps ih =>
    rw [climb] at h
    split at h
    · obtain ⟨same, -⟩ := Prod.mk.inj h
      rw [Except.ok.inj same]
    · rw [ih (List.cons_ne_nil _ _) h, List.getLast?_cons_of_ne_nil going]
    · split at h
      · obtain ⟨same, -⟩ := Prod.mk.inj h
        rw [Except.ok.inj same]
      · cases (Prod.mk.inj h).1

theorem makeEach_last (ends : p.EndsIn name) {ps : List Path} (last : ps.getLast? = some p)
    (h : t.makeEach ps = (.ok (), t')) : t'.isDirectory p = true := by
  induction ps generalizing t with
  | nil => cases last
  | cons q ps ih =>
    rw [makeEach] at h
    cases ps with
    | nil =>
      obtain rfl : q = p := by simpa using last
      split at h
      · next made =>
        obtain ⟨-, rfl⟩ := Prod.mk.inj h
        exact isDirectory_of_made ends made
      · split at h
        · next there =>
          obtain ⟨-, rfl⟩ := Prod.mk.inj h
          exact there.2
        · cases (Prod.mk.inj h).1
    | cons q' ps =>
      have last' : (q' :: ps).getLast? = some p := by simpa using last
      split at h
      · exact ih last' h
      · split at h
        · exact ih last' h
        · cases (Prod.mk.inj h).1

theorem ancestors_cons (named : p.fileName? = some name) :
    ∃ above, ancestors p = p :: above := by
  have components : p.components ≠ [] := by
    intro none
    simp [Path.fileName?, none] at named
  have parent : p.parent? ≠ none := by
    intro none
    unfold Path.parent? at none
    simp only at none
    split at none
    · next void =>
      -- a path with a name has a segment that leads somewhere
      have all : p.moves = [] := by
        rw [Path.moves, ← Path.filter_segments, List.filter_eq_nil_iff]
        simpa [Path.dropVoid] using void
      simp [Path.fileName?_eq, all] at named
    · cases none
  obtain ⟨n, length⟩ := Nat.exists_eq_succ_of_ne_zero
    (mt List.length_eq_zero_iff.1 components)
  obtain ⟨q, above⟩ := Option.ne_none_iff_exists'.1 parent
  exact ⟨ancestorsWithin n q, by rw [ancestors, length, ancestorsWithin, above]⟩

/-- A directory is there once it was made with all those above it. -/
theorem isDirectory_of_makeDirectories (ends : p.EndsIn name)
    (h : t.makeDirectories p = (.ok (), t')) : t'.isDirectory p = true := by
  obtain ⟨above, list⟩ := ancestors_cons ends.fileName?
  unfold makeDirectories at h
  rw [list] at h
  rcases climbed : t.climb [] (p :: above) with ⟨_ | missing, t₁⟩
  · simp only [climbed] at h
    cases (Prod.mk.inj h).1
  · simp only [climbed] at h
    rw [climb] at climbed
    split at climbed
    · next made =>
      cases climbed
      cases h
      exact isDirectory_of_made ends made
    · -- it is made last, after those above it
      exact makeEach_last ends (climb_getLast? (List.cons_ne_nil _ _) climbed) h
    · split at climbed
      · next there =>
        cases climbed
        cases h
        exact there.2
      · cases (Prod.mk.inj climbed).1

theorem pathError?_of_join (plain : '/' ∉ name.toList) (named : p.text ≠ "")
    (h : pathError? (p.join ⟨name⟩) = none) : pathError? p = none := by
  have text : ∃ rest, (p.join ⟨name⟩).text = p.text ++ rest := by
    unfold Path.join
    rw [if_neg (by simp [Path.isAbsolute_of_plain plain])]
    split
    · exact ⟨_, rfl⟩
    · exact ⟨_, String.append_assoc⟩
  obtain ⟨rest, text⟩ := text
  unfold pathError? at h ⊢
  rw [text] at h
  split at h
  · cases h
  · next clean =>
    split at h
    · cases h
    · split at h
      · cases h
      · next short =>
        rw [String.toList_append, List.mem_append, not_or] at clean
        rw [String.utf8ByteSize_append] at short
        rw [if_neg clean.1, if_neg (by simpa using named), if_neg (by omega)]

/-- A path below another one leads through it. -/
theorem isDirectory_of_join (plain : '/' ∉ name.toList) (named : p.text ≠ "")
    (h : t.isDirectory (p.join ⟨name⟩) = true) : t.isDirectory p = true := by
  obtain ⟨place, found, -⟩ := isDirectory_iff.1 h
  obtain ⟨valid, walked⟩ := resolve_eq_ok.1 found
  obtain ⟨front, lead, ends⟩ := Path.lead_of_plain plain named
  have origin : t.origin (p.join ⟨name⟩) = t.origin p := by
    simp [FileTree.origin, Path.isAbsolute_join, Path.isAbsolute_of_plain plain]
  rw [Path.toList_join, lead, List.append_assoc, List.singleton_append,
    Text.splitOn_append_cons, Text.splitOn_of_notMem plain, walk_append, origin] at walked
  obtain ⟨mid, first, last⟩ := walked
  have directory := (walk_cons.1 last).1.1
  have valid' := pathError?_of_join plain named valid
  refine isDirectory_iff.2 ⟨mid, resolve_eq_ok.2 ⟨valid', ?_⟩, directory⟩
  rcases ends with same | slash
  · rw [same, first]
  · rw [slash, Text.splitOn_append_cons, walk_append]
    exact ⟨mid, first, walk_cons.2 ⟨⟨directory, fun void => absurd void (by decide)⟩, rfl⟩⟩

theorem writeText_leads {x : String} (h : t.writeText p x = .ok t') : Leads t t' := by
  obtain ⟨place, named, free, rfl, -⟩ := write_spec h
  exact leads_set named free _

theorem makeDirectories_grows {r : Except FileError Unit} (h : t.makeDirectories p = (r, t')) :
    Grows t t' :=
  makeDirectories_invariant (P := t.Grows)
    (fun _ _ _ made grows => grows.trans (makeDirectory_grows made)) h (.refl t)

/-! ## Removing -/

theorem lookup_filter_prefix (entries : List (Place × Node)) (q : Place) :
    (entries.filter fun e => !place.isPrefixOf e.1).lookup q =
      if place <+: q then none else entries.lookup q := by
  induction entries with
  | nil => simp
  | cons e entries ih =>
    obtain ⟨k, n⟩ := e
    by_cases below : place <+: k
    · rw [List.filter_cons_of_neg (by simpa using below), ih]
      split
      · rfl
      · next apart =>
        -- what is found is not below the place, so it is not this entry
        have miss : (q == k) = false := beq_eq_false_iff_ne.2 fun same => apart (same ▸ below)
        rw [List.lookup_cons, miss]
    · have kept : (!place.isPrefixOf k) = true := by
        rw [Bool.not_eq_true', Bool.eq_false_iff]
        exact fun front => below (List.isPrefixOf_iff_prefix.1 front)
      rw [List.filter_cons_of_pos (a := (k, n)) kept, List.lookup_cons, List.lookup_cons, ih]
      by_cases hit : q = k
      · simp [hit, below]
      · simp [beq_eq_false_iff_ne.2 hit]

/-- Removing a place takes away what is below it, and nothing else. -/
theorem get?_erase (named : place ≠ []) (q : Place) :
    (t.erase place).get? q = if place <+: q then none else t.get? q := by
  cases q with
  | nil => simp [get?, named]
  | cons name rest => exact lookup_filter_prefix t.nodes (name :: rest)

theorem contains_of_none (h : t.get? (t.placeOf p) = none) : t.contains p = false := by
  unfold contains node
  cases found : t.resolve p with
  | error e => rfl
  | ok place => simp [resolve_eq_placeOf found, h]

end FileTree

theorem Digest.slash_notMem_hex (bytes : List UInt8) : '/' ∉ hex bytes := by
  have digits : ∀ n < 16, Nat.digitChar n ≠ '/' := by decide
  intro inside
  obtain ⟨b, -, digit⟩ := List.mem_flatMap.1 inside
  have low : b.toNat < 256 := b.toNat_lt
  simp only [List.mem_cons, List.not_mem_nil, or_false] at digit
  rcases digit with high | rest
  · exact digits _ (by omega) high.symm
  · exact digits _ (by omega) rest.symm

/-! ## The staging directory -/

namespace Staging

variable {st : Staging} {files files' : FileTree}

/-- A staging directory has a name of its own. -/
theorem fileName?_ofEntry (files : FileTree) (base : Path) (process : Nat) (entry : Path) :
    ∃ name, (ofEntry files base process entry).root.fileName? = some name := by
  have key : '/' ∉ (keyOf files entry).toList := by
    rw [keyOf, String.toList_ofList]
    exact fun inside => Digest.slash_notMem_hex _ (List.mem_of_mem_take inside)
  have number : '/' ∉ Nat.toDigits 10 process :=
    fun inside => absurd (Text.isDigit_toDigits process '/' inside) (by decide)
  unfold ofEntry
  generalize whole : s!"jsc-{keyOf files entry}-{Nat.repr process}" = name
  have text : name.toList = 'j' :: 's' :: 'c' :: '-' :: ((keyOf files entry).toList ++
      '-' :: (Nat.repr process).toList) := by
    rw [← whole]
    simp [toString]
  refine ⟨name, Path.fileName?_join (Path.fileName?_of_plain ?_ ?_ ?_)⟩
  · simp [text, key, number]
  · rw [text]
    rfl
  · simp [text]

/-- A staging directory that was made is there. -/
theorem isDirectory_of_created (named : st.root.text ≠ "")
    (h : st.create files = (.ok (), files')) :
    files'.isDirectory st.root = true ∧ files'.workingDirectory = files.workingDirectory := by
  unfold create at h
  rcases sources : files.makeDirectories st.sources with ⟨_ | _, files₁⟩
  · simp only [sources] at h
    cases (Prod.mk.inj h).1
  · rcases classes : files₁.makeDirectories st.classes with ⟨_ | _, files₂⟩
    · simp only [sources, classes] at h
      cases (Prod.mk.inj h).1
    · simp only [sources, classes] at h
      obtain ⟨-, rfl⟩ := Prod.mk.inj h
      have ends : (st.root.join ⟨"src"⟩).EndsIn "src" :=
        .join st.root (by decide) (by decide) (by decide)
      have there := FileTree.isDirectory_of_makeDirectories ends sources
      have first := FileTree.makeDirectories_grows sources
      have second := FileTree.makeDirectories_grows classes
      refine ⟨(second.leads.keeps st.root).there ?_,
        second.workingDirectory.trans first.workingDirectory⟩
      exact FileTree.isDirectory_of_join (by decide) named there

theorem writeSource_leads {m : Module} {text : String} {answer : Except Failure Path}
    (h : st.writeSource m text files = (answer, files')) : files.Leads files' := by
  unfold writeSource at h
  rcases made : makePackage (st.sourceFile m) files with ⟨_ | _, files₁⟩
  · simp only [made, Prod.mk.injEq] at h
    rw [← h.2]
    exact (makePackage_grows made).leads
  · simp only [made] at h
    cases written : files₁.writeText (st.sourceFile m) text with
    | error e =>
      simp only [written, Prod.mk.injEq] at h
      rw [← h.2]
      exact (makePackage_grows made).leads
    | ok files₂ =>
      simp only [written, Prod.mk.injEq] at h
      rw [← h.2]
      exact (makePackage_grows made).leads.trans (FileTree.writeText_leads written)

/-- A directory that is there can be removed, and nothing else goes. -/
theorem remove_eq_ok : st.remove files = .ok files' ↔
    files.isDirectory st.root = true ∧ files' = files.erase (files.placeOf st.root) := by
  unfold remove FileTree.removeDirectory
  rw [FileTree.isDirectory_iff]
  cases found : files.resolve st.root with
  | error e => simp
  | ok place =>
    rw [← FileTree.resolve_eq_placeOf found]
    by_cases directory : files.get? place = some .directory
    · simp [directory, eq_comm]
    · simp [directory]

end Staging

/-- Tools that leave a directory where it is, and do not change the working directory. -/
structure Toolchain.Spares {σ : Type} (t : Toolchain σ) (p : Path) : Prop where
  compile : ∀ request (files : FileTree) tools,
    files.Keeps p (t.compile request files tools).files
  archive : ∀ request (files : FileTree) tools,
    files.Keeps p (t.archive request files tools).files

namespace Job

variable {σ : Type} {job : Job} {t : Toolchain σ} {g g' : Graph} {w w' : World σ}
  {s s' : Progress σ} {p : Path}

theorem generate_leads {ms : List Module} {files files' : FileTree}
    {answer : Except Failure (List Path)} (h : job.generate ms files = (answer, files')) :
    files.Leads files' := by
  induction ms generalizing files answer files' with
  | nil =>
    obtain ⟨-, rfl⟩ := Prod.mk.inj h
    exact .refl _
  | cons m ms ih =>
    rw [generate] at h
    rcases written : job.staging.writeSource m m.javaText files with ⟨_ | file, files₁⟩
    · simp only [written, andThen, Prod.mk.injEq] at h
      rw [← h.2]
      exact Staging.writeSource_leads written
    · rcases others : job.generate ms files₁ with ⟨_ | rest, files₂⟩
      all_goals
        simp only [written, others, andThen, Prod.mk.injEq] at h
        rw [← h.2]
        exact (Staging.writeSource_leads written).trans (ih others)

theorem package_keeps (spares : t.Spares p) {result : Except Failure (List String)}
    (h : job.package t g w = (result, w')) : w.files.Keeps p w'.files := by
  unfold package at h
  cases entry : g.entry? with
  | none =>
    simp only [entry, Prod.mk.injEq] at h
    rw [← h.2]
    exact .refl _ _
  | some m =>
    cases written : w.files.writeText job.staging.manifest
        (manifestText m.qualifiedName g.selectedLibraries) with
    | error e =>
      simp only [entry, written, Prod.mk.injEq] at h
      rw [← h.2]
      exact .refl _ _
    | ok files =>
      have keeps : w.files.Keeps p
          ((w.withFiles files).archive t (job.archiveRequest g files)).2.files :=
        ((FileTree.writeText_leads written).keeps p).trans (spares.archive _ _ _)
      rcases called : (w.withFiles files).archive t (job.archiveRequest g files) with ⟨_ | _, w₁⟩
      all_goals
        rw [called] at keeps
        simp only [entry, written, called, Prod.mk.injEq] at h
        rw [← h.2]
        exact keeps

/-- No phase of a build takes a directory away. -/
theorem Step.keeps (spares : t.Spares p) (h : Step job t s s') :
    s.world.files.Keeps p s'.world.files := by
  cases h with
  | written done | unwritten done => exact (generate_leads done).keeps p
  | compiled called | uncompiled called =>
    obtain ⟨-, rfl⟩ := Prod.mk.inj called
    exact spares.compile _ _ _
  | unlocated | corrected | gaveUp | stopped => exact .refl _ _
  | packaged done | unpackaged done => exact package_keeps spares done

theorem build_keeps (spares : t.Spares p) {result : Except Failure Outcome}
    (h : job.build t g w = (result, g', w')) : w.files.Keeps p w'.files := by
  obtain ⟨n, reached⟩ := reaches_of_build h
  exact reached.invariant (P := fun s => w.files.Keeps p s.world.files) (.refl _ _)
    fun s keeps => keeps.trans ((step_spec job t s).keeps spares)

end Job

/-! ## Sessions -/

/-- The staging directory that a session uses for an entry script. -/
def Host.staging (host : Host) (entry : Path) (files : FileTree) : Staging :=
  .ofEntry files host.temporaryDirectory host.process entry

theorem Host.staging_named (host : Host) (entry : Path) (files : FileTree) :
    (host.staging entry files).root.text ≠ "" ∧
      ∀ t : FileTree, t.placeOf (host.staging entry files).root ≠ [] := by
  obtain ⟨name, named⟩ :=
    Staging.fileName?_ofEntry files host.temporaryDirectory host.process entry
  change (host.staging entry files).root.fileName? = some name at named
  generalize (host.staging entry files).root = root at named
  refine ⟨?_, fun t none => ?_⟩
  · intro none
    rw [show root = ⟨""⟩ from congrArg Path.mk none,
      show Path.fileName? ⟨""⟩ = Option.none by decide] at named
    cases named
  · have last := t.getLast?_placeOf named
    rw [none] at last
    cases last

namespace Session

variable {σ : Type} {s : Session} {host : Host} {entry : Path} {t : Toolchain σ}
  {w w₁ : World σ} {g g' : Graph} {warnings : List Warning} {files removed : FileTree}
  {result : Except Failure Outcome}

/-- What a session builds an entry script with. -/
def jobFor (s : Session) (host : Host) (entry : Path) (files : FileTree) : Job :=
  ⟨host.staging entry files, ⟨s.settings.archiveName⟩⟩

/-- A session builds in a staging directory that it made, and removes that at the end. -/
theorem buildFile_eq (loaded : s.loadGraph entry w.files = (.ok g, warnings))
    (created : (host.staging entry w.files).create w.files = (.ok (), files))
    (built : (s.jobFor host entry w.files).build t g ((w.warn warnings).withFiles files) =
      (result, g', w₁)) :
    s.buildFile host entry t true w = (result, w₁) ∧
      ∀ removed, (host.staging entry w.files).remove w₁.files = .ok removed →
        s.buildFile host entry t false w = (result, w₁.withFiles removed) := by
  have start (keep : Bool) : s.buildFile host entry t keep w =
      s.buildIn (host.staging entry w.files) t keep g ((w.warn warnings).withFiles files) := by
    have made : (Staging.ofEntry (w.warn warnings).files host.temporaryDirectory host.process
        entry).create (w.warn warnings).files = (.ok (), files) := created
    unfold buildFile
    simp only [loaded, made]
    rfl
  have done : Job.build ⟨host.staging entry w.files, ⟨s.settings.archiveName⟩⟩ t g
      ((w.warn warnings).withFiles files) = (result, g', w₁) := built
  refine ⟨?_, fun removed gone => ?_⟩
  · simp only [start, buildIn, done, if_true]
  · simp only [start, buildIn, done, gone, Bool.false_eq_true, if_false]

/-- A build whose tools spare the staging directory leaves it where it was made, so that it
    can be removed. -/
theorem exists_removed (spares : t.Spares (host.staging entry w.files).root)
    (created : (host.staging entry w.files).create w.files = (.ok (), files))
    (built : (s.jobFor host entry w.files).build t g ((w.warn warnings).withFiles files) =
      (result, g', w₁)) :
    ∃ removed, (host.staging entry w.files).remove w₁.files = .ok removed ∧
      removed.workingDirectory = w.files.workingDirectory := by
  obtain ⟨there, stays⟩ :=
    Staging.isDirectory_of_created (host.staging_named entry w.files).1 created
  have keeps := Job.build_keeps spares built
  exact ⟨_, Staging.remove_eq_ok.2 ⟨keeps.there there, rfl⟩, keeps.workingDirectory.trans stays⟩

/-- After removal nothing is left at the place of the staging directory or below it, and
    everything else is as it was. -/
theorem get?_removed (gone : (host.staging entry files).remove w.files = .ok removed)
    (place : Place) : removed.get? place =
      if removed.placeOf (host.staging entry files).root <+: place then none
      else w.files.get? place := by
  obtain ⟨-, rfl⟩ := Staging.remove_eq_ok.1 gone
  exact FileTree.get?_erase ((host.staging_named entry files).2 w.files) place

end Session

/-- A session whose script cannot be loaded leaves the files and calls no tool.  Any other
    makes its staging directory, and its answer is that of the build.  The directory stays if
    it is to be kept; otherwise nothing of it is left, and nothing else is missing.  It can
    always be removed, unless a tool has taken it away. -/
theorem Session.buildFile_staging {σ : Type} (s : Session) (host : Host) (entry : Path)
    (t : Toolchain σ) (w : World σ) :
    (∀ e warnings keep, s.loadGraph entry w.files = (.error e, warnings) →
      s.buildFile host entry t keep w = (.error e, w.warn warnings)) ∧
    (∀ g warnings files result g' w₁, s.loadGraph entry w.files = (.ok g, warnings) →
      (host.staging entry w.files).create w.files = (.ok (), files) →
      (s.jobFor host entry w.files).build t g ((w.warn warnings).withFiles files) =
        (result, g', w₁) →
      s.buildFile host entry t true w = (result, w₁) ∧
      (∀ removed, (host.staging entry w.files).remove w₁.files = .ok removed →
        w₁.files.isDirectory (host.staging entry w.files).root = true ∧
        s.buildFile host entry t false w = (result, w₁.withFiles removed) ∧
        ∀ place, removed.get? place =
          if removed.placeOf (host.staging entry w.files).root <+: place then none
          else w₁.files.get? place) ∧
      (t.Spares (host.staging entry w.files).root →
        ∃ removed, (host.staging entry w.files).remove w₁.files = .ok removed ∧
          removed.workingDirectory = w.files.workingDirectory)) ∧
    (∀ files, (host.staging entry w.files).create w.files = (.ok (), files) →
      t.Spares (host.staging entry w.files).root →
      w.files.contains (host.staging entry w.files).root = false →
      (s.buildFile host entry t false w).2.files.contains
        (host.staging entry w.files).root = false ∧
      ((s.buildFile host entry t true w).2.files.isDirectory
        (host.staging entry w.files).root = true ↔
          ∃ g warnings, s.loadGraph entry w.files = (.ok g, warnings))) := by
  have unloaded {e warnings} (keep : Bool)
      (loaded : s.loadGraph entry w.files = (.error e, warnings)) :
      s.buildFile host entry t keep w = (.error e, w.warn warnings) := by
    unfold buildFile
    simp only [loaded]
  refine ⟨fun _ _ keep => unloaded keep, ?_, ?_⟩
  · intro g warnings files result g' w₁ loaded created built
    obtain ⟨kept, cleared⟩ := buildFile_eq loaded created built
    refine ⟨kept, fun removed gone => ?_, fun spares => exists_removed spares created built⟩
    exact ⟨(Staging.remove_eq_ok.1 gone).1, cleared removed gone, get?_removed gone⟩
  · intro files created spares fresh
    rcases loaded : s.loadGraph entry w.files with ⟨e | g, warnings⟩
    · rw [unloaded false loaded, unloaded true loaded]
      refine ⟨fresh, fun there => ?_, fun ⟨g, warnings', loads⟩ => ?_⟩
      · have absent := FileTree.isDirectory_of_contains fresh
        rw [show w.files.isDirectory _ = true from there] at absent
        cases absent
      · cases (Prod.mk.inj loads).1
    · rcases built : (s.jobFor host entry w.files).build t g ((w.warn warnings).withFiles files)
        with ⟨result, g', w₁⟩
      obtain ⟨kept, cleared⟩ := buildFile_eq loaded created built
      obtain ⟨removed, gone, -⟩ := exists_removed spares created built
      rw [kept, cleared removed gone]
      refine ⟨FileTree.contains_of_none ?_, fun _ => ⟨g, warnings, rfl⟩,
        fun _ => (Staging.remove_eq_ok.1 gone).1⟩
      rw [World.withFiles, get?_removed gone, if_pos (List.prefix_refl _)]

/-- A compiler that is content, and an archiver that cannot be started. -/
def Toolchain.unpacking : Toolchain Unit where
  compile _ files tools := { result := .ok { success := true }, files, tools }
  archive _ files tools := { result := .error (.tool "jar"), files, tools }

/-- The archiver fails after all sources were written; another script is not there. -/
theorem Session.buildFile_staging_unpacking :
    (∃ e : Failure, ∃ w₁ w₂ : World Unit,
      Session.bare.buildFile .bare ⟨"Main.jsc"⟩ .unpacking true (.inPackage "demo") =
        (.error e, w₁) ∧
      Session.bare.buildFile .bare ⟨"Main.jsc"⟩ .unpacking false (.inPackage "demo") =
        (.error e, w₂) ∧
      w₁.files.isDirectory (Host.bare.staging ⟨"Main.jsc"⟩ (World.inPackage "demo").files).root =
        true ∧
      w₂.files.contains (Host.bare.staging ⟨"Main.jsc"⟩ (World.inPackage "demo").files).root =
        false) ∧
    ∃ e warnings, ∀ keep,
      Session.bare.buildFile .bare ⟨"Missing.jsc"⟩ .unpacking keep (.inPackage "demo") =
        (.error e, (World.inPackage "demo").warn warnings) := by
  have spares (p : Path) : Toolchain.unpacking.Spares p :=
    ⟨fun _ _ _ => .refl _ _, fun _ _ _ => .refl _ _⟩
  constructor
  · obtain ⟨-, loads, -⟩ := buildFile_staging .bare .bare ⟨"Main.jsc"⟩ .unpacking
      (.inPackage "demo")
    obtain ⟨⟨created, files⟩, made, isMade⟩ : ∃ c, (Host.bare.staging ⟨"Main.jsc"⟩
        (World.inPackage "demo").files).create (World.inPackage "demo").files = c ∧
        c.1.toOption = some () := ⟨_, rfl, by decide +kernel⟩
    obtain rfl := toOption_eq_some.1 isMade
    obtain ⟨⟨loaded, warnings⟩, read, isRead⟩ : ∃ l,
        Session.bare.loadGraph ⟨"Main.jsc"⟩ (World.inPackage "demo").files = l ∧
        l.1.toOption.isSome = true := ⟨_, rfl, by decide +kernel⟩
    obtain ⟨g, isGraph⟩ := Option.isSome_iff_exists.1 isRead
    obtain rfl := toOption_eq_some.1 isGraph
    rcases built : (Session.bare.jobFor .bare ⟨"Main.jsc"⟩ (World.inPackage "demo").files).build
      .unpacking g (((World.inPackage "demo").warn warnings).withFiles files) with ⟨result, g', w₁⟩
    obtain ⟨kept, cleared, removable⟩ := loads g warnings files result g' w₁ read made built
    obtain ⟨removed, gone, -⟩ := removable (spares _)
    obtain ⟨there, answer, left⟩ := cleared removed gone
    have failed : (Session.bare.buildFile .bare ⟨"Main.jsc"⟩ .unpacking true
        (.inPackage "demo")).1.toBool = false := by decide +kernel
    rw [kept] at failed
    cases result with
    | ok outcome => cases failed
    | error e =>
      refine ⟨e, w₁, _, kept, answer, there, FileTree.contains_of_none ?_⟩
      rw [World.withFiles, left, if_pos (List.prefix_refl _)]
  · obtain ⟨unloaded, -⟩ := buildFile_staging .bare .bare ⟨"Missing.jsc"⟩ .unpacking
      (.inPackage "demo")
    rcases read : Session.bare.loadGraph ⟨"Missing.jsc"⟩ (World.inPackage "demo").files with
      ⟨e | g, warnings⟩
    · exact ⟨e, warnings, fun keep => unloaded e warnings keep read⟩
    · have failed : (Session.bare.loadGraph ⟨"Missing.jsc"⟩
          (World.inPackage "demo").files).1.toBool = false := by decide +kernel
      rw [read] at failed
      cases failed

end ScriptJar

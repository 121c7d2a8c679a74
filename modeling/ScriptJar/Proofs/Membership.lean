import ScriptJar.Proofs.Generation
import ScriptJar.Proofs.Paths
import ScriptJar.Proofs.ScriptReading

/-! # The modules of a loaded graph

An identifier is taken before its script is read, and its module is added only after
everything the script names.  `Grown` speaks of one reading from its start to its end, so
that what is taken but not yet there does not show; `Added` also tells which scripts were
opened and which of them named the new modules.

* `Loader.Grown.insert` — an identifier that was taken first and added last;
* `Loader.loadWithin_adds` — what reading a script adds;
* `Loader.loadEntry_members` — the modules of a graph that was loaded.
-/

namespace ScriptJar

/-- The forms in which the identifiers of modules are compared. -/
def moduleKeys (ms : List Module) : List String :=
  ms.map fun m => Graph.key m.identifier

@[simp] theorem moduleKeys_append (ms ms' : List Module) :
    moduleKeys (ms ++ ms') = moduleKeys ms ++ moduleKeys ms' :=
  List.map_append

@[simp] theorem moduleKeys_singleton (m : Module) :
    moduleKeys [m] = [Graph.key m.identifier] := rfl

namespace Loader

variable {l : Loader} {load : ScriptReader} {base p q c : Path} {m m' : Module}
  {d : Directive} {s s' s₁ s₂ : Loading} {ms ms' : List Module} {qs qs' naming naming' : List Path}

/-! ## What a reading adds -/

/-- A script names another one to be compiled along, which is not itself. -/
def Wants (l : Loader) (q c : Path) : Prop :=
  c ∈ l.companions q ∧ Graph.key c.identifier ≠ Graph.key q.identifier

/-- From one state to another, modules were added, and their identifiers were free. -/
structure Grown (s s' : Loading) (ms : List Module) : Prop where
  modules : s'.graph.modules = s.graph.modules ++ ms
  claimed : ∀ k, k ∈ s'.graph.claimed ↔ k ∈ s.graph.claimed ∨ k ∈ moduleKeys ms
  distinct : (moduleKeys ms).Nodup
  fresh : ∀ k ∈ moduleKeys ms, k ∉ s.graph.claimed

namespace Grown

theorem of_eq (modules : s'.graph.modules = s.graph.modules)
    (claimed : s'.graph.claimed = s.graph.claimed) : Grown s s' [] where
  modules := by rw [modules, List.append_nil]
  claimed := by simp [claimed, moduleKeys]
  distinct := List.nodup_nil
  fresh := by simp [moduleKeys]

theorem trans (first : Grown s s₁ ms) (second : Grown s₁ s₂ ms') : Grown s s₂ (ms ++ ms') where
  modules := by rw [second.modules, first.modules, List.append_assoc]
  claimed k := by rw [second.claimed, first.claimed, moduleKeys_append, List.mem_append, or_assoc]
  distinct := by
    rw [moduleKeys_append, List.nodup_append]
    refine ⟨first.distinct, second.distinct, fun k early k' late same => ?_⟩
    exact second.fresh k' late ((first.claimed k').2 (.inr (same ▸ early)))
  fresh k member := by
    rw [moduleKeys_append, List.mem_append] at member
    rcases member with early | late
    · exact first.fresh k early
    · exact fun taken => second.fresh k late ((first.claimed k).2 (.inl taken))

/-- An identifier that was taken first and whose module was added last. -/
theorem insert {identifier : String} (h : Grown (s.onGraph (·.claim identifier)) s' ms)
    (free : s.graph.isClaimed identifier = false) (same : m.identifier = identifier) :
    Grown s (s'.onGraph (·.insert m)) (ms ++ [m]) where
  modules := by
    have modules := h.modules
    simp only [Loading.onGraph, Graph.modules_claim, Graph.modules_insert] at modules ⊢
    rw [modules, List.append_assoc]
  claimed k := by
    have claimed := h.claimed k
    simp only [Loading.onGraph, Graph.mem_claimed_claim, Graph.claimed_insert, same,
      moduleKeys_append, moduleKeys_singleton, List.mem_append, List.mem_singleton] at claimed ⊢
    rw [claimed]
    tauto
  distinct := by
    rw [moduleKeys_append, List.nodup_append]
    refine ⟨h.distinct, List.nodup_singleton _, fun k early k' last => ?_⟩
    rw [moduleKeys_singleton, List.mem_singleton, same] at last
    rintro rfl
    exact h.fresh k early (by simp [Loading.onGraph, last])
  fresh k member := by
    rw [moduleKeys_append, List.mem_append, moduleKeys_singleton, List.mem_singleton, same] at member
    rcases member with early | rfl
    · exact fun taken => h.fresh k early (by simp [Loading.onGraph, taken])
    · simpa [Graph.isClaimed] using free

end Grown

/-- What a reading adds that succeeds: modules that some scripts name, and scripts that
    were opened, all of whose companions have a taken identifier in the end. -/
structure Added (l : Loader) (naming : List Path) (s s' : Loading) (ms : List Module)
    (qs : List Path) : Prop extends Grown s s' ms where
  scripts : s'.scripts = s.scripts ++ qs
  named : ∀ m ∈ ms, ∃ q ∈ naming, ∃ c, l.Wants q c ∧ m.identifier = c.identifier
  closed : ∀ q ∈ qs, ∀ c, l.Wants q c → Graph.key c.identifier ∈ s'.graph.claimed

namespace Added

theorem of_eq (l : Loader) (naming : List Path) (graph : s'.graph = s.graph)
    (scripts : s'.scripts = s.scripts) : Added l naming s s' [] [] where
  toGrown := .of_eq (by rw [graph]) (by rw [graph])
  scripts := by rw [scripts, List.append_nil]
  named := by simp
  closed := by simp

/-- An identifier that a script names, taken first and added last. -/
theorem insert {identifier : String}
    (h : Added l naming (s.onGraph (·.claim identifier)) s' ms qs)
    (free : s.graph.isClaimed identifier = false) (same : m.identifier = identifier)
    (named : ∃ q ∈ naming, ∃ c, l.Wants q c ∧ m.identifier = c.identifier) :
    Added l naming s (s'.onGraph (·.insert m)) (ms ++ [m]) qs where
  toGrown := h.toGrown.insert free same
  scripts := h.scripts
  named m' member := by
    rcases List.mem_append.1 member with early | last
    · exact h.named m' early
    · rw [List.mem_singleton.1 last]
      exact named
  closed q member c wants := by
    have taken := h.closed q member c wants
    simp [Loading.onGraph, taken]

/-- What is added while a script is being read, with that script. -/
theorem script (h : Added l naming ((s.note p).onGraph (·.enter p.identifier)) s₁ ms qs)
    {leaves : Bool} (left : s' = if leaves = true then s₁.onGraph (·.leave p.identifier) else s₁)
    (closed : ∀ c, l.Wants p c → Graph.key c.identifier ∈ s₁.graph.claimed) :
    Added l naming s s' ms (p :: qs) := by
  have same : s'.graph.modules = s₁.graph.modules ∧ s'.graph.claimed = s₁.graph.claimed ∧
      s'.scripts = s₁.scripts := by
    rw [left]
    split <;> exact ⟨rfl, rfl, rfl⟩
  obtain ⟨modules, claimed, scripts⟩ := same
  refine ⟨⟨?_, fun k => ?_, h.distinct, fun k member => ?_⟩, ?_, h.named, fun q member c wants => ?_⟩
  · rw [modules, h.modules]
    simp [Loading.onGraph, Loading.note]
  · rw [claimed, h.claimed]
    simp [Loading.onGraph, Loading.note]
  · simpa [Loading.onGraph, Loading.note] using h.fresh k member
  · rw [scripts, h.scripts]
    simp [Loading.onGraph, Loading.note]
  · rw [claimed]
    rcases List.mem_cons.1 member with rfl | inside
    · exact closed c wants
    · exact h.closed q inside c wants

theorem mono (h : Added l naming s s' ms qs) (more : naming ⊆ naming') :
    Added l naming' s s' ms qs where
  toGrown := h.toGrown
  scripts := h.scripts
  named m member := by
    obtain ⟨q, names, wants⟩ := h.named m member
    exact ⟨q, more names, wants⟩
  closed := h.closed

theorem trans (first : Added l naming s s₁ ms qs) (second : Added l naming s₁ s₂ ms' qs') :
    Added l naming s s₂ (ms ++ ms') (qs ++ qs') where
  toGrown := first.toGrown.trans second.toGrown
  scripts := by rw [second.scripts, first.scripts, List.append_assoc]
  named m member := by
    rcases List.mem_append.1 member with early | late
    · exact first.named m early
    · exact second.named m late
  closed q member c wants := by
    rcases List.mem_append.1 member with early | late
    · exact (second.claimed _).2 (.inl (first.closed q early c wants))
    · exact second.closed q late c wants

end Added

/-- A reader that gives the module of the script it is asked for, and adds what that
    script and all it names call for. -/
def Adds (l : Loader) (load : ScriptReader) : Prop :=
  ∀ p s m s', load p s = (.ok m, s') → m.identifier = p.identifier ∧
    ∃ ms qs, Added l (p :: qs) s s' ms (p :: qs)

/-! ## Directives and scripts -/

theorem Absorbed.adds (adds : l.Adds load) (host : m.identifier = q.identifier)
    (stated : d ∈ l.directivesOf q) (h : Absorbed load q.directory m s d (.ok m', s')) :
    ∃ ms qs, Added l (q :: qs) s s' ms qs ∧
      ∀ file : String, d = .companion file →
        Graph.key (q.directory / file).identifier ≠ Graph.key q.identifier →
          Graph.key (q.directory / file).identifier ∈ s'.graph.claimed := by
  cases h with
  | plain companion =>
    refine ⟨[], [], .of_eq l _ rfl rfl, ?_⟩
    rintro file rfl
    cases companion
  | @present file here =>
    refine ⟨[], [], .of_eq l _ rfl rfl, ?_⟩
    rintro _ ⟨⟩ other
    rcases here with same | taken
    · rw [host] at same
      exact absurd (by simpa [sameIdentifier] using same) other
    · simpa [Graph.isClaimed] using taken
  | @companion file companion s₁ s' calls read =>
    obtain ⟨same, ms, qs, added⟩ := adds _ _ _ _ read
    cases calls with
    | companion other untaken =>
      -- the host names it, and what it adds itself comes before it
      rw [host, sameIdentifier_eq_false] at other
      have wants : l.Wants q (q.directory / file) :=
        ⟨List.mem_filterMap.2 ⟨_, stated, rfl⟩, other⟩
      have inserted := (added.mono (List.subset_cons_self q _)).insert untaken same
        ⟨q, List.mem_cons_self, _, wants, same⟩
      refine ⟨_, _, inserted, ?_⟩
      rintro _ ⟨⟩ -
      exact (inserted.claimed _).2 (.inr (by simp [same]))
  | ignored =>
    refine ⟨[], [], .of_eq l _ rfl rfl, ?_⟩
    rintro file ⟨⟩
  | donor calls read =>
    obtain ⟨-, ms, qs, added⟩ := adds _ _ _ _ read
    exact ⟨ms, _, added.mono (List.subset_cons_self _ _), by rintro file ⟨⟩⟩

theorem absorbAll_adds (adds : l.Adds load) (host : m.identifier = q.identifier)
    {ds : List Directive} (stated : ds ⊆ l.directivesOf q)
    (h : l.absorbAll load q.directory m ds s = (.ok m', s')) :
    m'.identifier = q.identifier ∧ ∃ ms qs, Added l (q :: qs) s s' ms qs ∧
      ∀ file : String, .companion file ∈ ds →
        Graph.key (q.directory / file).identifier ≠ Graph.key q.identifier →
          Graph.key (q.directory / file).identifier ∈ s'.graph.claimed := by
  induction ds generalizing m s with
  | nil =>
    obtain ⟨same, rfl⟩ := Prod.mk.inj h
    obtain rfl := Except.ok.inj same
    exact ⟨host, [], [], .of_eq l _ rfl rfl, by simp⟩
  | cons d ds ih =>
    obtain ⟨m₁, s₁, -, spec, rest⟩ := absorbAll_cons_eq_ok h
    obtain ⟨ms, qs, first, taken⟩ := spec.adds adds host (stated List.mem_cons_self)
    obtain ⟨same, ms', qs', more, taken'⟩ := ih (spec.identifier.trans host)
      (fun d' member => stated (List.mem_cons_of_mem _ member)) rest
    -- what was taken stays taken, so the earlier directives hold in the end
    refine ⟨same, ms ++ ms', qs ++ qs', ?_, ?_⟩
    · exact (first.mono (by simp)).trans (more.mono (by simp))
    · intro file member other
      rcases List.mem_cons.1 member with here | later
      · exact (more.claimed _).2 (.inl (taken file here.symm other))
      · exact taken' file later other

theorem loadScript_adds (adds : l.Adds load) : l.Adds (l.loadScript load) := by
  intro p s m s' h
  obtain ⟨s₁, inside, left⟩ := loadScript_eq_ok h
  obtain ⟨same, ms, qs, added, taken⟩ := absorbAll_adds adds rfl (List.Subset.refl _) inside
  refine ⟨same, ms, qs, added.script left ?_⟩
  rintro c ⟨member, other⟩
  obtain ⟨file, stated, rfl⟩ := mem_companions.1 member
  exact taken file stated other

theorem loadWithin_adds (l : Loader) (n : Nat) : l.Adds (l.loadWithin n) := by
  induction n with
  | zero =>
    intro p s m s' h
    cases h
  | succ n ih => exact loadScript_adds ih

/-! ## Sources -/

theorem Path.fileName?_of_same {a b : Path} (h : a.same b = true) : a.fileName? = b.fileName? := by
  rw [Path.fileName?, Path.fileName?, eq_of_beq h]

theorem apart_of_distinct (plain : ∀ m ∈ ms, '/' ∉ m.identifier.toList)
    (distinct : (moduleKeys ms).Nodup) :
    (ms.map Module.sourcePath).Pairwise (fun a b => ¬ a.same b) ∧
      ∀ (job : Job) (files : FileTree), job.Apart ms files := by
  have names : (ms.map fun m => some (m.identifier ++ ".java")).Nodup := by
    have identifiers : (ms.map Module.identifier).Nodup := by
      refine List.Nodup.of_map Graph.key ?_
      rwa [List.map_map]
    have injective : Function.Injective fun id : String => some (id ++ ".java") := by
      intro a b same
      have texts := congrArg String.toList (Option.some.inj same)
      rw [String.toList_append, String.toList_append, List.append_cancel_right_eq] at texts
      exact String.toList_inj.1 texts
    have mapped := identifiers.map injective
    rwa [List.map_map] at mapped
  constructor
  · have files : (ms.map fun m => m.sourcePath.fileName?).Nodup := by
      rwa [List.map_congr_left fun m member => Module.fileName?_sourcePath (plain m member)]
    rw [List.pairwise_map]
    refine (List.pairwise_map.1 files).imp fun differ same => ?_
    exact differ (Path.fileName?_of_same same)
  · intro job files
    have last (m : Module) (member : m ∈ ms) :
        (files.placeOf (job.staging.sourceFile m)).getLast? = some (m.identifier ++ ".java") :=
      files.getLast?_placeOf (job.staging.fileName?_sourceFile (plain m member))
    refine List.Nodup.of_map List.getLast? ?_
    rw [List.map_map, Function.comp_def, List.map_congr_left last]
    exact names

/-- Loading an entry script gives a graph whose identifiers differ, also if case does not
    count; they are the ones that are taken.  The entry comes last, every other module is
    named by a script that was read, and what these scripts name is there exactly once.
    So no source is written over another. -/
theorem loadEntry_members (h : l.loadEntry p {} = (.ok (), s)) :
    (moduleKeys s.graph.modules).Nodup ∧
    (∀ k, k ∈ s.graph.claimed ↔ k ∈ moduleKeys s.graph.modules) ∧
    (∃ ms m, s.graph.modules = ms ++ [m] ∧ s.graph.entry? = some m ∧
      m.identifier = p.identifier ∧
      ∀ m' ∈ ms, ∃ q ∈ s.scripts, ∃ c, l.Wants q c ∧ m'.identifier = c.identifier) ∧
    p ∈ s.scripts ∧
    (∀ q ∈ s.scripts, ∀ c, l.Wants q c →
      (moduleKeys s.graph.modules).count (Graph.key c.identifier) = 1) ∧
    (s.graph.modules.map Module.sourcePath).Pairwise (fun a b => ¬ a.same b) ∧
    ∀ (job : Job) (files : FileTree), job.Apart s.graph.modules files := by
  unfold loadEntry addEntry at h
  generalize read : l.loadFile p (({} : Loading).onGraph (·.claim p.identifier)) = answer at h
  rcases answer with ⟨_ | m, s₁⟩
  · cases (Prod.mk.inj h).1
  · obtain ⟨same, ms, qs, added⟩ := l.loadWithin_adds l.depth p _ m s₁ read
    obtain ⟨-, rfl⟩ := Prod.mk.inj h
    have grown := added.toGrown.insert rfl same
    have before : s₁.graph.modules = ms := by
      rw [added.modules]
      simp [Loading.onGraph]
    have modules : (s₁.graph.insert m).modules = ms ++ [m] := by
      rw [Graph.modules_insert, before]
    have claimed (k : String) : k ∈ (s₁.graph.insert m).claimed ↔ k ∈ moduleKeys (ms ++ [m]) :=
      (grown.claimed k).trans (or_iff_right List.not_mem_nil)
    have scripts : s₁.scripts = p :: qs := added.scripts
    -- every identifier is that of a path, whether named by a script or the entry
    have plain : ∀ m' ∈ ms ++ [m], '/' ∉ m'.identifier.toList := by
      intro m' member
      rcases List.mem_append.1 member with named | entry
      · obtain ⟨q, -, c, -, same⟩ := added.named m' named
        rw [same]
        exact c.slash_notMem_identifier
      · rw [List.mem_singleton.1 entry, same]
        exact p.slash_notMem_identifier
    obtain ⟨paths, apart⟩ := apart_of_distinct plain grown.distinct
    simp only [Loading.onGraph, modules, scripts]
    refine ⟨grown.distinct, claimed, ⟨ms, m, rfl, ?_, same, added.named⟩, List.mem_cons_self, ?_,
      paths, apart⟩
    · simp [Graph.entry?, before]
    · intro q member c wants
      refine List.count_eq_one_of_mem grown.distinct ((claimed _).1 ?_)
      simp [added.closed q member c wants]

/-- Scripts that name one another in circles, as companions and as donors. -/
def circular : Loader where
  files.nodes := [
    (["Main.jsc"], .file (.text "using \"A.jsc\";\next \"B.jsc\";")),
    (["A.jsc"], .file (.text "using \"main.jsc\";")),
    (["B.jsc"], .file (.text "using \"a.jsc\";\next \"Main.jsc\";"))]

theorem loadEntry_members_circular :
    ∃ s, circular.loadEntry ⟨"Main.jsc"⟩ {} = (.ok (), s) ∧
      s.graph.modules.map Module.identifier = ["A", "Main"] ∧
      (∀ k, k ∈ s.graph.claimed ↔ k ∈ moduleKeys s.graph.modules) ∧
      ∀ (job : Job) (files : FileTree), job.Apart s.graph.modules files := by
  have ⟨loaded, modules⟩ : (circular.loadEntry ⟨"Main.jsc"⟩ {}).1.toBool = true ∧
      (circular.loadEntry ⟨"Main.jsc"⟩ {}).2.graph.modules.map Module.identifier =
        ["A", "Main"] := by
    decide +kernel
  generalize answered : circular.loadEntry ⟨"Main.jsc"⟩ {} = answer at loaded modules
  rcases answer with ⟨_ | _, s⟩
  · cases loaded
  · obtain ⟨-, claimed, -, -, -, -, apart⟩ := loadEntry_members answered
    exact ⟨s, rfl, modules, claimed, apart⟩

end Loader

end ScriptJar

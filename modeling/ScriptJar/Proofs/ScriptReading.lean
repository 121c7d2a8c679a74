import ScriptJar.Graph.Load

/-! # Reading scripts, one directive at a time

`Absorbed` has a constructor for each way in which a directive can be taken in, and
`Calls` tells which further reading it asks for; what reading does to a graph is proved
by going through them once.

* `Loader.absorb_spec` — what a directive can do;
* `Loader.absorb_congr` — it depends on the reader only through what it asks for;
* `Loader.absorbAll_cons_eq_ok`, `Loader.loadScript_eq_ok` — a reading that succeeds, taken
  apart;
* `Loader.loadScript_framed`, `Loader.loadWithin_framed` — reading adds to the graph,
  and nothing is being read afterwards that was not before.
-/

namespace ScriptJar

namespace Directive

def companionFile? : Directive → Option String
  | .companion file => some file
  | _ => none

def donorFile? : Directive → Option String
  | .donor file => some file
  | _ => none

end Directive

namespace Loading

@[simp] theorem warn_nil (s : Loading) : s.warn [] = s := by
  simp [warn]

end Loading

namespace Loader

variable {l : Loader} {load load' : ScriptReader} {base p : Path} {m m' : Module}
  {d : Directive} {s s' : Loading}

/-- What the script at a path says; nothing, if it cannot be read. -/
def directivesOf (l : Loader) (p : Path) : List Directive :=
  match readScript l.files p with
  | .ok text => directives 0 (Statement.split text)
  | .error _ => []

def companions (l : Loader) (p : Path) : List Path :=
  (l.directivesOf p).filterMap fun d => d.companionFile?.map fun (file : String) => p.directory / file

def donors (l : Loader) (p : Path) : List Path :=
  (l.directivesOf p).filterMap fun d => d.donorFile?.map fun (file : String) => p.directory / file

theorem mem_companions {c : Path} : c ∈ l.companions p ↔
    ∃ file : String, .companion file ∈ l.directivesOf p ∧ p.directory / file = c := by
  simp only [companions, List.mem_filterMap, Option.map_eq_some_iff]
  constructor
  · rintro ⟨d, stated, file, isCompanion, rfl⟩
    cases d with
    | companion file' =>
      obtain rfl : file' = file := Option.some.inj isCompanion
      exact ⟨file', stated, rfl⟩
    | _ => cases isCompanion
  · rintro ⟨file, stated, rfl⟩
    exact ⟨_, stated, file, rfl, rfl⟩

theorem sameIdentifier_eq_false {a b : String} :
    sameIdentifier a b = false ↔ Graph.key a ≠ Graph.key b := by
  simp [sameIdentifier]

/-! ## Directives -/

/-- The reading that a directive of `host` asks for, with the state it starts in. -/
inductive Calls (base : Path) (host : String) (s : Loading) :
    Directive → Path → Loading → Prop where
  | companion {file : String} :
      sameIdentifier (base / file).identifier host = false →
      s.graph.isClaimed (base / file).identifier = false →
      Calls base host s (.companion file) (base / file)
        (s.onGraph (·.claim (base / file).identifier))
  | donor {file : String} :
      sameIdentifier (base / file).identifier host = false →
      s.graph.isLoading (base / file).identifier = false →
      Calls base host s (.donor file) (base / file) s

/-- What a directive can do to a module and the state. -/
inductive Absorbed (load : ScriptReader) (base : Path) (m : Module) (s : Loading) :
    Directive → Except Failure Module × Loading → Prop where
  | plain {d m' ws} :
      d.companionFile? = none → d.donorFile? = none → m'.identifier = m.identifier →
      m'.donors = m.donors → Absorbed load base m s d (.ok m', s.warn ws)
  | present {file : String} :
      (sameIdentifier (base / file).identifier m.identifier = true ∨
        s.graph.isClaimed (base / file).identifier = true) →
      Absorbed load base m s (.companion file) (.ok m, s)
  | companion {file : String} {c s₁ s'} :
      Calls base m.identifier s (.companion file) (base / file) s₁ →
      load (base / file) s₁ = (.ok c, s') →
      Absorbed load base m s (.companion file) (.ok m, s'.onGraph (·.insert c))
  | ignored {file : String} {ws : List Warning} :
      (sameIdentifier (base / file).identifier m.identifier = true ∨
        s.graph.isLoading (base / file).identifier = true) →
      Absorbed load base m s (.donor file) (.ok m, s.warn ws)
  | donor {file : String} {c s'} :
      Calls base m.identifier s (.donor file) (base / file) s →
      load (base / file) s = (.ok c, s') →
      Absorbed load base m s (.donor file) (.ok { m with donors := m.donors ++ [c] }, s')
  | failed {d c s₁ e s'} :
      Calls base m.identifier s d c s₁ → load c s₁ = (.error e, s') →
      Absorbed load base m s d (.error e, s')

theorem addCompanion_spec {file : String} {answer : Except Failure Unit × Loading}
    (h : addCompanion load m.identifier (base / file) s = answer) :
    Absorbed load base m s (.companion file) (answer.1.map fun _ => m, answer.2) := by
  unfold addCompanion at h
  by_cases here : (sameIdentifier (base / file).identifier m.identifier
      || s.graph.isClaimed (base / file).identifier) = true
  · rw [if_pos here] at h
    subst h
    exact .present (by simpa using here)
  · rw [if_neg here] at h
    simp only [Bool.or_eq_true, not_or, Bool.not_eq_true] at here
    have calls := Calls.companion here.1 here.2
    rcases read : load (base / file) (s.onGraph (·.claim (base / file).identifier)) with
      ⟨_ | c, s₁⟩
    all_goals
      rw [read] at h
      subst h
    · exact .failed calls read
    · exact .companion calls read

theorem readDonor_spec {file : String} {answer : Except Failure (Option Module) × Loading}
    (h : readDonor load m.identifier (base / file) s = answer) :
    Absorbed load base m s (.donor file)
      (answer.1.map fun donor => { m with donors := m.donors ++ donor.toList }, answer.2) := by
  have same : { m with donors := m.donors ++ (none : Option Module).toList } = m := by
    rw [Option.toList_none, List.append_nil]
    cases m
    rfl
  unfold readDonor at h
  by_cases own : sameIdentifier (base / file).identifier m.identifier = true
  · rw [if_pos own] at h
    subst h
    have ignored : Absorbed load base m s (.donor file) (.ok m, s.warn []) := .ignored (.inl own)
    rwa [Except.map, same, ← congrArg (Prod.mk _) s.warn_nil]
  · rw [if_neg own] at h
    by_cases cycle : s.graph.isLoading (base / file).identifier = true
    · rw [if_pos cycle] at h
      subst h
      rw [Except.map, same]
      exact .ignored (.inr cycle)
    · rw [if_neg cycle] at h
      have calls := Calls.donor (by simpa using own) (by simpa using cycle)
      rcases read : load (base / file) s with ⟨_ | c, s₁⟩
      all_goals
        rw [read] at h
        subst h
      · exact .failed calls read
      · exact .donor calls read

theorem addReference_spec {name : String} {hint : Option String} {answer : Module × Loading}
    (h : l.addReference m name hint s = answer) :
    answer.1.identifier = m.identifier ∧ answer.1.donors = m.donors ∧
      ∃ ws, answer.2 = s.warn ws := by
  unfold addReference at h
  generalize Library.resolve l.libraries name hint = resolved at h
  subst h
  exact ⟨rfl, rfl, resolved.2, rfl⟩

theorem absorb_spec (l : Loader) (load : ScriptReader) (base : Path) (m : Module)
    (d : Directive) (s : Loading) : Absorbed load base m s d (l.absorb load base m d s) := by
  have quiet {d : Directive} {m' : Module} (companion : d.companionFile? = none)
      (donor : d.donorFile? = none) (identifier : m'.identifier = m.identifier)
      (donors : m'.donors = m.donors) : Absorbed load base m s d (.ok m', s) := by
    have plain : Absorbed load base m s d (.ok m', s.warn []) :=
      .plain companion donor identifier donors
    rwa [s.warn_nil] at plain
  cases d with
  | companion file =>
    unfold absorb
    dsimp only
    generalize added : addCompanion load m.identifier (base / file) s = answer
    have spec := addCompanion_spec added
    rcases answer with ⟨_ | _, s'⟩ <;> exact spec
  | donor file =>
    unfold absorb
    dsimp only
    generalize read : readDonor load m.identifier (base / file) s = answer
    have spec := readDonor_spec read
    rcases answer with ⟨_ | _, s'⟩ <;> exact spec
  | classImport name =>
    unfold absorb
    dsimp only
    generalize added : l.addReference m name none s = answer
    obtain ⟨identifier, donors, ws, same⟩ := addReference_spec added
    rw [same]
    exact .plain rfl rfl identifier donors
  | libraryImport library name =>
    unfold absorb
    dsimp only
    generalize added : l.addReference m name (some library) s = answer
    obtain ⟨identifier, donors, ws, same⟩ := addReference_spec added
    rw [same]
    exact .plain rfl rfl identifier donors
  | package name => exact quiet rfl rfl rfl rfl
  | header header => exact quiet rfl rfl rfl rfl
  | staticImport name => exact quiet rfl rfl rfl rfl
  | substitution key value => exact quiet rfl rfl rfl rfl
  | classScope code => exact quiet rfl rfl rfl rfl
  | entryScope code => exact quiet rfl rfl rfl rfl

theorem addCompanion_congr {host file : String}
    (same : ∀ c s₁, Calls base host s (.companion file) c s₁ → load c s₁ = load' c s₁) :
    addCompanion load host (base / file) s = addCompanion load' host (base / file) s := by
  unfold addCompanion
  split
  · rfl
  · next free =>
    simp only [Bool.or_eq_true, not_or, Bool.not_eq_true] at free
    rw [same _ _ (.companion free.1 free.2)]

theorem readDonor_congr {host file : String}
    (same : ∀ c s₁, Calls base host s (.donor file) c s₁ → load c s₁ = load' c s₁) :
    readDonor load host (base / file) s = readDonor load' host (base / file) s := by
  unfold readDonor
  split
  · rfl
  · next other =>
    split
    · rfl
    · next free => rw [same _ _ (.donor (by simpa using other) (by simpa using free))]

theorem absorb_congr
    (same : ∀ c s₁, Calls base m.identifier s d c s₁ → load c s₁ = load' c s₁) :
    l.absorb load base m d s = l.absorb load' base m d s := by
  cases d with
  | companion file =>
    unfold absorb
    dsimp only
    rw [addCompanion_congr same]
  | donor file =>
    unfold absorb
    dsimp only
    rw [readDonor_congr same]
  | _ => rfl

theorem Absorbed.identifier (h : Absorbed load base m s d (.ok m', s')) :
    m'.identifier = m.identifier := by
  cases h with
  | plain _ _ identifier _ => exact identifier
  | _ => rfl

end Loader

/-! ## What reading leaves as it was -/

/-- Reading adds to the graph, and nothing is being read afterwards that was not
    before. -/
structure Loading.Frame (s s' : Loading) : Prop where
  modules : s.graph.modules <+: s'.graph.modules
  claimed : s.graph.claimed ⊆ s'.graph.claimed
  loading : s'.graph.loading = s.graph.loading
  entryIndex : s'.graph.entryIndex = s.graph.entryIndex

/-- A reader of which this holds, whether it succeeds or not. -/
def Framed (load : ScriptReader) : Prop :=
  ∀ p s, Loading.Frame s (load p s).2

namespace Loading.Frame

variable {s s' s'' : Loading}

theorem refl (s : Loading) : Frame s s :=
  ⟨List.prefix_refl _, List.Subset.refl _, rfl, rfl⟩

theorem trans (first : Frame s s') (second : Frame s' s'') : Frame s s'' where
  modules := first.modules.trans second.modules
  claimed := List.Subset.trans first.claimed second.claimed
  loading := second.loading.trans first.loading
  entryIndex := second.entryIndex.trans first.entryIndex

theorem claim (s : Loading) (identifier : String) :
    Frame s (s.onGraph (·.claim identifier)) where
  modules := by simp [onGraph]
  claimed k taken := by simp [onGraph, taken]
  loading := by simp [onGraph]
  entryIndex := by simp [onGraph]

theorem insert (s : Loading) (m : Module) : Frame s (s.onGraph (·.insert m)) where
  modules := by simp [onGraph]
  claimed k taken := by simp [onGraph, taken]
  loading := by simp [onGraph]
  entryIndex := by simp [onGraph]

/-- Whatever happens while a script is being read, it is so afterwards only if it was so
    before. -/
theorem leave {identifier : String} (h : Frame (s.onGraph (·.enter identifier)) s') :
    Frame s (if (!s.graph.isLoading identifier) = true then s'.onGraph (·.leave identifier)
      else s') := by
  obtain ⟨modules, claimed, loading, entryIndex⟩ := h
  simp only [onGraph, Graph.modules_enter, Graph.claimed_enter, Graph.entryIndex_enter]
    at modules claimed loading entryIndex
  -- a script that is read inside itself is entered and left once only
  cases reading : s.graph.isLoading identifier with
  | true =>
    rw [Graph.enter_eq_self reading] at loading
    exact ⟨modules, claimed, loading, entryIndex⟩
  | false =>
    rw [Graph.loading_enter reading] at loading
    refine ⟨modules, claimed, ?_, entryIndex⟩
    simp [onGraph, Graph.leave, loading]

end Loading.Frame

namespace Loader

variable {l : Loader} {load : ScriptReader} {base p : Path} {m m' : Module}
  {d : Directive} {s s' : Loading}

theorem Calls.frame {host : String} {c : Path} (h : Calls base host s d c s') : s.Frame s' := by
  cases h with
  | companion => exact .claim s _
  | donor => exact .refl s

theorem frame_of_eq (framed : Framed load) {result : Except Failure Module}
    (h : load p s = (result, s')) : s.Frame s' := by
  have frame := framed p s
  rwa [h] at frame

theorem Absorbed.frame (framed : Framed load) {answer : Except Failure Module × Loading}
    (h : Absorbed load base m s d answer) : s.Frame answer.2 := by
  cases h with
  | plain | ignored => exact ⟨List.prefix_refl _, List.Subset.refl _, rfl, rfl⟩
  | present => exact .refl s
  | companion calls read =>
    -- taken, read, added: each of the three only adds
    exact calls.frame.trans ((frame_of_eq framed read).trans (.insert _ _))
  | donor calls read => exact frame_of_eq framed read
  | failed calls read => exact calls.frame.trans (frame_of_eq framed read)

theorem absorbAll_frame (l : Loader) (framed : Framed load) (base : Path) (m : Module)
    (ds : List Directive) (s : Loading) : s.Frame (l.absorbAll load base m ds s).2 := by
  induction ds generalizing m s with
  | nil => exact .refl s
  | cons d ds ih =>
    have first := (l.absorb_spec load base m d s).frame framed
    rw [absorbAll]
    generalize l.absorb load base m d s = answer at first
    rcases answer with ⟨_ | m', s'⟩
    · exact first
    · exact first.trans (ih m' s')

/-- Directives are taken in one after the other. -/
theorem absorbAll_cons_eq_ok {ds : List Directive}
    (h : l.absorbAll load base m (d :: ds) s = (.ok m', s')) :
    ∃ m₁ s₁, l.absorb load base m d s = (.ok m₁, s₁) ∧
      Absorbed load base m s d (.ok m₁, s₁) ∧ l.absorbAll load base m₁ ds s₁ = (.ok m', s') := by
  have spec := l.absorb_spec load base m d s
  rw [absorbAll] at h
  rcases absorbed : l.absorb load base m d s with ⟨_ | m₁, s₁⟩
  all_goals rw [absorbed] at h spec
  · cases h
  · exact ⟨m₁, s₁, rfl, spec, h⟩

theorem parse_eq_ok {identifier : String} {statements : List String}
    (h : l.parse load identifier base statements s = (.ok m, s')) :
    ∃ s₁, l.absorbAll load base { identifier, substitutions := l.defaults }
        (directives 0 statements) (s.onGraph (·.enter identifier)) = (.ok m, s₁) ∧
      s' = if (!s.graph.isLoading identifier) = true then s₁.onGraph (·.leave identifier)
        else s₁ := by
  unfold parse at h
  dsimp only at h
  generalize l.absorbAll load base { identifier, substitutions := l.defaults }
    (directives 0 statements) (s.onGraph (·.enter identifier)) = answer at h
  rcases answer with ⟨_ | m₁, s₁⟩
  · cases (Prod.mk.inj h).1
  · obtain ⟨same, rfl⟩ := Prod.mk.inj h
    exact ⟨s₁, by rw [same], rfl⟩

/-- A script that is read has its directives taken in, as one that is being read. -/
theorem loadScript_eq_ok (h : l.loadScript load p s = (.ok m, s')) :
    ∃ s₁, l.absorbAll load p.directory
        { identifier := p.identifier, substitutions := l.defaults } (l.directivesOf p)
        ((s.note p).onGraph (·.enter p.identifier)) = (.ok m, s₁) ∧
      s' = if (!s.graph.isLoading p.identifier) = true then s₁.onGraph (·.leave p.identifier)
        else s₁ := by
  rw [loadScript] at h
  cases read : readScript l.files p with
  | error e => simp [read] at h
  | ok text =>
    have stated : l.directivesOf p = directives 0 (Statement.split text) := by
      rw [directivesOf, read]
    rw [read] at h
    obtain ⟨s₁, absorbed, left⟩ := parse_eq_ok h
    exact ⟨s₁, by rw [stated, absorbed], left⟩

theorem parse_frame (l : Loader) (framed : Framed load) (identifier : String) (base : Path)
    (statements : List String) (s : Loading) :
    s.Frame (l.parse load identifier base statements s).2 := by
  have inside := l.absorbAll_frame framed base { identifier, substitutions := l.defaults }
    (directives 0 statements) (s.onGraph (·.enter identifier))
  unfold parse
  dsimp only
  generalize l.absorbAll load base { identifier, substitutions := l.defaults }
    (directives 0 statements) (s.onGraph (·.enter identifier)) = answer at inside
  rcases answer with ⟨_ | _, s'⟩ <;> exact inside.leave

theorem loadScript_framed (l : Loader) (framed : Framed load) : Framed (l.loadScript load) := by
  intro p s
  unfold loadScript
  cases readScript l.files p with
  | error e => exact .refl s
  | ok text =>
    have noted : s.Frame (s.note p) := ⟨List.prefix_refl _, List.Subset.refl _, rfl, rfl⟩
    exact noted.trans (l.parse_frame framed _ _ _ (s.note p))

theorem loadWithin_framed (l : Loader) (n : Nat) : Framed (l.loadWithin n) := by
  induction n with
  | zero => exact fun p s => .refl s
  | succ n ih => exact l.loadScript_framed ih

theorem loadFile_framed (l : Loader) : Framed l.loadFile :=
  l.loadWithin_framed l.depth

end Loader

end ScriptJar

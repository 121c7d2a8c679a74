import ScriptJar.Proofs.Membership
import ScriptJar.Proofs.Nesting

/-! # Scripts that are being read

Scripts are read inside one another, and a reading may fail at any depth.  At each moment
the graph lists the scripts that are being read; a donor on that list is passed over.  So
no script may stay on the list for longer than its reading lasts, or be missing from it
before: the first would make later donors look like cycles, the second would let a module
become part of itself.

* `Source.Within` — the readings inside a reading, with those around them;
* `Source.read_frame` — what a reading leaves as it was, whether it fails or not;
* `Module.Unrepeated` — no identifier comes twice on the way to a donor;
* `Source.read_unrepeated` — this holds of every module that is read.
-/

namespace ScriptJar

/-- What a module is read from. -/
inductive Source where
  | file (p : Path)
  | given (identifier : String) (base : Path) (statements : List String)

namespace Source

variable {l : Loader} {src : Source} {s s₁ : Loading} {c : Path}

def identifier : Source → String
  | .file p => p.identifier
  | .given identifier _ _ => identifier

/-- The directory from which its paths start. -/
def base : Source → Path
  | .file p => p.directory
  | .given _ base _ => base

def directives (l : Loader) : Source → List Directive
  | .file p => l.directivesOf p
  | .given _ _ statements => Loader.directives 0 statements

/-- The state in which its first directive is looked at. -/
def opened : Source → Loading → Loading
  | .file p, s => Loader.opened p s
  | .given identifier _ _, s => s.onGraph (·.enter identifier)

/-- The module that is read from it. -/
def read (l : Loader) : Source → Loading → Except Failure Module × Loading
  | .file p => l.loadFile p
  | .given identifier base statements => l.parseScript identifier base statements

/-! ## Readings inside a reading -/

/-- One of the directives asks for a script, after those before it were taken in. -/
inductive Asks (l : Loader) (src : Source) (s : Loading) (c : Path) (s₁ : Loading) : Prop where
  | intro {before after : List Directive} {d : Directive} {m : Module} {s' : Loading} :
      src.directives l = before ++ d :: after →
      l.absorbAll l.loadFile src.base
        { identifier := src.identifier, substitutions := l.defaults } before (src.opened s) =
          (.ok m, s') →
      Loader.Calls src.base src.identifier s' d c s₁ → Asks l src s c s₁

/-- A script is read inside a reading, at any depth.  The identifiers are those of the
    readings around it, the innermost first. -/
inductive Within (l : Loader) (src : Source) (s : Loading) :
    List String → Path → Loading → Prop where
  | direct {c : Path} {s₁ : Loading} :
      src.Asks l s c s₁ → Within l src s [src.identifier] c s₁
  | deeper {around : List String} {c c' : Path} {s₁ s₂ : Loading} :
      Within l src s around c s₁ → (file c).Asks l s₁ c' s₂ →
      Within l src s (c.identifier :: around) c' s₂

theorem mem_loading_opened {k : String} :
    k ∈ (src.opened s).graph.loading ↔ k = Graph.key src.identifier ∨ k ∈ s.graph.loading := by
  cases src <;> exact Graph.mem_loading_enter

/-- What was taken in before does not show: the script itself is being read, and what was so
    before it. -/
theorem Asks.mem_loading (asks : src.Asks l s c s₁) {k : String} :
    k ∈ s₁.graph.loading ↔ k = Graph.key src.identifier ∨ k ∈ s.graph.loading := by
  cases asks with
  | @intro before _ _ _ _ _ absorbed calls =>
    have frame := l.absorbAll_frame l.loadFile_framed src.base
      { identifier := src.identifier, substitutions := l.defaults } before (src.opened s)
    rw [absorbed] at frame
    rw [calls.frame.loading, frame.loading, mem_loading_opened]

theorem Within.mem_loading {around : List String} (within : src.Within l s around c s₁)
    {k : String} :
    k ∈ s₁.graph.loading ↔ k ∈ around.map Graph.key ∨ k ∈ s.graph.loading := by
  -- on the readings from the outermost one in, each of which adds its own script
  induction within with
  | direct asks => rw [asks.mem_loading, List.map_singleton, List.mem_singleton]
  | deeper _ asks ih =>
    rw [asks.mem_loading, ih, List.map_cons, List.mem_cons, or_assoc]
    rfl

/-- However a reading ends, the same scripts are being read as before it, and modules,
    identifiers and the entry are as they were, but for what was added.  So it is for all
    readings inside it; when one of these begins, the scripts being read are those around it
    and those from before. -/
theorem read_frame (l : Loader) (src : Source) (s : Loading) :
    s.Frame (src.read l s).2 ∧
      (∀ (i : Nat) m, s.graph.modules[i]? = some m → (src.read l s).2.graph.modules[i]? = some m) ∧
      ∀ around c s₁, src.Within l s around c s₁ →
        s₁.Frame (l.loadFile c s₁).2 ∧
          ∀ k, k ∈ s₁.graph.loading ↔ k ∈ around.map Graph.key ∨ k ∈ s.graph.loading := by
  have frame : s.Frame (src.read l s).2 := by
    cases src with
    | file p => exact l.loadFile_framed p s
    | given identifier base statements =>
      exact l.parse_frame l.loadFile_framed identifier base statements s
  refine ⟨frame, ?_, ?_⟩
  · intro i m found
    obtain ⟨added, modules⟩ := frame.modules
    rw [← modules, List.getElem?_append_left (List.getElem?_eq_some_iff.1 found).1, found]
  · intro around c s₁ within
    exact ⟨l.loadFile_framed c s₁, fun k => within.mem_loading⟩

/-- A companion of which one donor is missing. -/
def lacking : Loader where
  files.nodes := [
    (["Main.jsc"], .file (.text "using \"A.jsc\";\nint x = 1;")),
    (["A.jsc"], .file (.text "ext \"B.jsc\";\next \"C.jsc\";")),
    (["B.jsc"], .file (.text "static int b = 1;"))]

/-- The reading fails inside that of the companion. -/
theorem read_frame_lacking :
    ((file ⟨"Main.jsc"⟩).read lacking {}).1.toBool = false ∧
      Loading.Frame {} ((file ⟨"Main.jsc"⟩).read lacking {}).2 ∧
      ∃ c s₁, (file ⟨"Main.jsc"⟩).Within lacking {} ["A", "Main"] c s₁ ∧ c.identifier = "B" ∧
        s₁.Frame (lacking.loadFile c s₁).2 ∧ s₁.graph.loading = ["a", "main"] := by
  have outer : (file ⟨"Main.jsc"⟩).directives lacking =
      [] ++ .companion "A.jsc" :: [.entryScope "int x = 1;"] := by decide +kernel
  have inner : (file ⟨"./A.jsc"⟩).directives lacking =
      [] ++ .donor "B.jsc" :: [.donor "C.jsc"] := by decide +kernel
  have first := Asks.intro (s := {}) outer rfl (.companion (by decide) (by decide))
  have within := Within.deeper (.direct first) (.intro inner rfl (.donor (by decide) (by decide)))
  obtain ⟨frame, -, nested⟩ := read_frame lacking (file ⟨"Main.jsc"⟩) {}
  exact ⟨by decide +kernel, frame, _, _, within, by decide, (nested _ _ _ within).1, by decide⟩

end Source

/-! ## The way to a donor -/

/-- Going from a module to one of its donors, to one of theirs and so on, no identifier
    comes twice, and after the first none of those to be avoided. -/
def Module.Unrepeated (m : Module) (avoided : List String) : Prop :=
  ∀ ds : List Module, (m :: ds).IsChain (fun host d => d ∈ host.donors) →
    (moduleKeys (m :: ds)).Nodup ∧ ∀ k ∈ moduleKeys ds, k ∉ avoided

/-- A donor that is none of the scripts being read and has none of them below it. -/
structure Module.Apart (reading : List String) (d : Module) : Prop where
  own : Graph.key d.identifier ∉ reading
  below : d.Unrepeated reading

/-- The donors of a module are read inside it, and so avoid it as well. -/
theorem Module.unrepeated_of_donors {m : Module} {avoided reading : List String}
    (inside : ∀ k, k ∈ reading ↔ k = Graph.key m.identifier ∨ k ∈ avoided)
    (donors : ∀ d ∈ m.donors, d.Apart reading) : m.Unrepeated avoided := by
  intro ds chain
  cases ds with
  | nil => exact ⟨List.nodup_singleton _, by simp [moduleKeys]⟩
  | cons d ds =>
    rw [List.isChain_cons_cons] at chain
    obtain ⟨own, below⟩ := donors d chain.1
    obtain ⟨distinct, later⟩ := below ds chain.2
    have outside : ∀ k ∈ moduleKeys (d :: ds), k ∉ reading := by
      intro k member
      rcases List.mem_cons.1 member with rfl | member
      · exact own
      · exact later k member
    constructor
    · refine List.nodup_cons.2 ⟨fun again => ?_, distinct⟩
      exact outside _ again ((inside _).2 (.inl rfl))
    · intro k member avoid
      exact outside k member ((inside k).2 (.inr avoid))

namespace Loader

variable {l : Loader} {load : ScriptReader} {base : Path} {m m' : Module} {d : Directive}
  {s s' : Loading}

/-- A reader whose modules do not repeat what is being read. -/
def Unrepeating (load : ScriptReader) : Prop :=
  ∀ p s m s', load p s = (.ok m, s') →
    m.identifier = p.identifier ∧ m.Unrepeated s.graph.loading

theorem absorb_apart (unrepeating : Unrepeating load)
    (h : l.absorb load base m d s = (.ok m', s'))
    (donors : ∀ x ∈ m.donors, x.Apart s.graph.loading) :
    ∀ x ∈ m'.donors, x.Apart s.graph.loading := by
  have spec := l.absorb_spec load base m d s
  rw [h] at spec
  cases spec with
  | plain _ _ _ same =>
    rw [same]
    exact donors
  | present | companion | ignored => exact donors
  | donor calls read =>
    intro x member
    rcases List.mem_append.1 member with before | last
    · exact donors x before
    · obtain rfl := List.mem_singleton.1 last
      obtain ⟨same, below⟩ := unrepeating _ _ _ _ read
      cases calls with
      | donor _ unread =>
        rw [Graph.isLoading, decide_eq_false_iff_not, ← same] at unread
        exact ⟨unread, below⟩

theorem absorbAll_apart (framed : Framed load) (unrepeating : Unrepeating load)
    {ds : List Directive} (h : l.absorbAll load base m ds s = (.ok m', s'))
    (donors : ∀ x ∈ m.donors, x.Apart s.graph.loading) :
    m'.identifier = m.identifier ∧ ∀ x ∈ m'.donors, x.Apart s.graph.loading := by
  induction ds generalizing m s with
  | nil =>
    obtain ⟨same, -⟩ := Prod.mk.inj h
    obtain rfl := Except.ok.inj same
    exact ⟨rfl, donors⟩
  | cons d ds ih =>
    obtain ⟨m₁, s₁, absorbed, spec, rest⟩ := absorbAll_cons_eq_ok h
    -- what is being read is the same before each directive
    have same := (spec.frame framed).loading
    have first := absorb_apart unrepeating absorbed donors
    rw [← same] at first ⊢
    obtain ⟨identifier, last⟩ := ih rest first
    exact ⟨identifier.trans spec.identifier, last⟩

theorem absorbAll_unrepeated (framed : Framed load) (unrepeating : Unrepeating load)
    {identifier : String} {ds : List Directive}
    (h : l.absorbAll load base { identifier, substitutions := l.defaults } ds
      (s.onGraph (·.enter identifier)) = (.ok m, s')) :
    m.identifier = identifier ∧ m.Unrepeated s.graph.loading := by
  obtain ⟨same, donors⟩ := absorbAll_apart framed unrepeating h (by simp)
  refine ⟨same, Module.unrepeated_of_donors (fun k => ?_) donors⟩
  rw [same]
  exact Graph.mem_loading_enter

theorem loadScript_unrepeating (framed : Framed load) (unrepeating : Unrepeating load) :
    Unrepeating (l.loadScript load) := by
  intro p s m s' h
  obtain ⟨s₁, absorbed, -⟩ := loadScript_eq_ok h
  obtain ⟨same, unrepeated⟩ := absorbAll_unrepeated framed unrepeating absorbed
  exact ⟨same, unrepeated⟩

theorem loadWithin_unrepeating (l : Loader) (n : Nat) : Unrepeating (l.loadWithin n) := by
  induction n with
  | zero =>
    intro p s m s' h
    cases h
  | succ n ih => exact loadScript_unrepeating (l.loadWithin_framed n) ih

end Loader

/-- Whatever was being read before, no module that is read has an identifier twice on the way
    to a donor, and none of its donors has one of a script that was being read. -/
theorem Source.read_unrepeated {l : Loader} {src : Source} {s s' : Loading} {m : Module}
    {ds : List Module} (read : src.read l s = (.ok m, s'))
    (chain : (m :: ds).IsChain fun host d => d ∈ host.donors) :
    (moduleKeys (m :: ds)).Nodup ∧ ∀ k ∈ moduleKeys ds, k ∉ s.graph.loading := by
  have unrepeating := l.loadWithin_unrepeating l.depth
  cases src with
  | file p => exact (unrepeating p s m s' read).2 ds chain
  | given identifier base statements =>
    obtain ⟨s₁, absorbed, -⟩ := Loader.parse_eq_ok read
    exact (Loader.absorbAll_unrepeated l.loadFile_framed unrepeating absorbed).2 ds chain

/-- Donors that name the scripts around them again. -/
def Source.entwined : Loader where
  files.nodes := [
    (["Main.jsc"], .file (.text "ext \"A.jsc\";")),
    (["A.jsc"], .file (.text "ext \"main.jsc\";\next \"B.jsc\";")),
    (["B.jsc"], .file (.text "ext \"a.jsc\";\next \"Host.jsc\";\next \"C.jsc\";")),
    (["C.jsc"], .file (.text "static int c = 1;"))]

/-- Three donors inside one another, read while another script is. -/
theorem Source.read_unrepeated_entwined :
    ∃ s m s' ds, s.graph.loading = ["host"] ∧
      (Source.file ⟨"Main.jsc"⟩).read entwined s = (.ok m, s') ∧
      (m :: ds).IsChain (fun host d => d ∈ host.donors) ∧
      moduleKeys (m :: ds) = ["main", "a", "b", "c"] ∧
      (moduleKeys (m :: ds)).Nodup ∧ ∀ k ∈ moduleKeys ds, k ∉ s.graph.loading := by
  let s : Loading := { graph := { loading := ["host"] } }
  obtain ⟨⟨result, s'⟩, read, facts⟩ : ∃ answer,
      (Source.file ⟨"Main.jsc"⟩).read entwined s = answer ∧
      ∃ m ∈ answer.1.toOption, Graph.key m.identifier = "main" ∧
        ∃ a ∈ m.donors, Graph.key a.identifier = "a" ∧
          ∃ b ∈ a.donors, Graph.key b.identifier = "b" ∧
            ∃ c ∈ b.donors, Graph.key c.identifier = "c" :=
    ⟨_, rfl, by decide +kernel⟩
  rcases result with _ | m
  · simp [Except.toOption] at facts
  obtain ⟨m', same, main, a, isDonor, nameA, b, isDonorA, nameB, c, isDonorB, nameC⟩ := facts
  obtain rfl : m = m' := Option.some.inj same
  have chain : [m, a, b, c].IsChain fun host d => d ∈ host.donors := by
    simp [isDonor, isDonorA, isDonorB]
  have keys : moduleKeys [m, a, b, c] = ["main", "a", "b", "c"] := by
    simp [moduleKeys, main, nameA, nameB, nameC]
  exact ⟨s, m, s', _, rfl, read, chain, keys, read_unrepeated read chain⟩

end ScriptJar

import Mathlib.Data.List.Forall2
import Mathlib.Logic.Relation
import ScriptJar.Proofs.Nesting

/-! # The donors of a module

Which donors a module gets should be told by its script alone (`Loader.Endowed`).  But a
donor is left out while its identifier is being read, and companions are read inside one
another just as donors are, so it may be left out because of where the script that names
it was come across.  This does not happen if no donor leads back to the script that names
it.

* `Loader.NoWayBack` — the condition, on files or on identifiers;
* `Loader.absorb_completes` — what one directive keeps;
* `Loader.loadWithin_completes` — and a whole reading;
* `Loader.loadEntry_donors` — all modules have their donors, `loadEntry_donors_left_out` —
  without the condition they may not.
-/

namespace ScriptJar.Loader

open Relation (ReflTransGen)

variable {l : Loader} {load : ScriptReader} {base p q c : Path} {m m' : Module}
  {d : Directive} {s s' : Loading} {α : Type}

/-! ## Donors as scripts state them -/

/-- A module that has one module for each donor its script states, in their order, and of
    which this holds again. -/
inductive Endowed (l : Loader) : Path → Module → Prop where
  | intro {p : Path} {m : Module} :
      m.identifier = p.identifier → List.Forall₂ (Endowed l) (l.donors p) m.donors →
      Endowed l p m

def scriptKey (p : Path) : String :=
  Graph.key p.identifier

/-- One script names another, as far as can be told from a view of them. -/
def Links (l : Loader) (p : Path) (names : Path → List Path) (view : Path → α) (a b : α) : Prop :=
  ∃ q c, l.Reachable p q ∧ c ∈ names q ∧ view q = a ∧ view c = b

/-- Each identifier stands for one file. -/
def OneFileEach (l : Loader) (p : Path) : Prop :=
  ∀ q q', l.Reachable p q → l.Reachable p q' → scriptKey q = scriptKey q' →
    l.files.placeOf q = l.files.placeOf q'

/-- No donor leads back to the script that names it, going from scripts to those that
    `names` gives.  For `names` the donors themselves, they have no cycle. -/
def NoWayBack (l : Loader) (p : Path) (names : Path → List Path) (view : Path → α) : Prop :=
  ∀ q c, l.Reachable p q → c ∈ l.donors q →
    ¬ ReflTransGen (l.Links p names view) (view c) (view q)

theorem donors_subset_named (l : Loader) (q : Path) : l.donors q ⊆ l.named q :=
  List.subset_append_right _ _

/-- A way between identifiers is one between their files. -/
theorem OneFileEach.lift (one : l.OneFileEach p) {a b : String}
    (way : ReflTransGen (l.Links p l.named scriptKey) a b) (origin : l.Reachable p c)
    (first : scriptKey c = a) (target : l.Reachable p q) (last : scriptKey q = b) :
    ReflTransGen (l.Links p l.named l.files.placeOf) (l.files.placeOf c) (l.files.placeOf q) := by
  induction way generalizing q with
  | refl =>
    rw [one c q origin target (first.trans last.symm)]
  | tail _ link ih =>
    obtain ⟨q', c', reached, names, here, there⟩ := link
    have same := one c' q (reached.named names) target (there.trans last.symm)
    exact (ih reached here).tail ⟨q', c', reached, names, rfl, same⟩

theorem NoWayBack.keys (acyclic : l.NoWayBack p l.named l.files.placeOf) (one : l.OneFileEach p) :
    l.NoWayBack p l.named scriptKey := by
  intro q c reached donor way
  have named := donors_subset_named l q donor
  exact acyclic q c reached donor (one.lift way (reached.named named) rfl reached rfl)

theorem Reachable.mem_of_closed {qs : List Path} (reached : l.Reachable p q) (start : p ∈ qs)
    (closed : ∀ q ∈ qs, l.named q ⊆ qs) : q ∈ qs := by
  induction reached with
  | entry => exact start
  | named _ names ih => exact closed _ ih names

theorem oneFileEach_of_closed {qs : List Path} (start : p ∈ qs)
    (closed : ∀ q ∈ qs, l.named q ⊆ qs)
    (one : ∀ q ∈ qs, ∀ q' ∈ qs, scriptKey q = scriptKey q' →
      l.files.placeOf q = l.files.placeOf q') : l.OneFileEach p := by
  intro q q' reached reached'
  exact one q (reached.mem_of_closed start closed) q' (reached'.mem_of_closed start closed)

/-- A number that no script raises and every donor lowers leaves no way back. -/
theorem noWayBack_of_rank {names : Path → List Path} {view : Path → α} (rank : α → Nat)
    {qs : List Path} (start : p ∈ qs)
    (ranked : ∀ q ∈ qs, l.named q ⊆ qs ∧ (∀ c ∈ names q, rank (view c) ≤ rank (view q)) ∧
      ∀ c ∈ l.donors q, rank (view c) < rank (view q)) :
    l.NoWayBack p names view := by
  have member {q : Path} (reached : l.Reachable p q) : q ∈ qs :=
    reached.mem_of_closed start fun q listed => (ranked q listed).1
  have descends : ∀ a b, ReflTransGen (l.Links p names view) a b → rank b ≤ rank a := by
    intro a b way
    induction way with
    | refl => exact Nat.le_refl _
    | tail _ link ih =>
      obtain ⟨q, c, reached, names, rfl, rfl⟩ := link
      exact ((ranked q (member reached)).2.1 c names).trans ih
  intro q c reached donor way
  have lower := (ranked q (member reached)).2.2 c donor
  have higher := descends _ _ way
  omega

/-! ## What reading keeps -/

/-- All modules have their donors, and no donor was reported as left out. -/
structure Complete (l : Loader) (p : Path) (s : Loading) : Prop where
  modules : ∀ m ∈ s.graph.modules, ∃ q, l.Reachable p q ∧ l.Endowed q m
  warnings : ∀ host donor, .donorCycle host donor ∉ s.warnings

/-- Every script that is being read leads to a given one. -/
def Inside (l : Loader) (p q : Path) (s : Loading) : Prop :=
  ∀ k ∈ s.graph.loading, ReflTransGen (l.Links p l.named scriptKey) k (scriptKey q)

/-- A reader that gives modules their donors. -/
def Completes (l : Loader) (p : Path) (load : ScriptReader) : Prop :=
  ∀ q s m s', l.Reachable p q → l.Inside p q s → l.Complete p s → load q s = (.ok m, s') →
    l.Endowed q m ∧ l.Complete p s'

theorem Inside.named (inside : l.Inside p q s) (reached : l.Reachable p q) (names : c ∈ l.named q)
    (frame : s.Frame s') : l.Inside p c s' := by
  intro k reading
  rw [frame.loading] at reading
  exact (inside k reading).tail ⟨q, c, reached, names, rfl, rfl⟩

theorem Complete.claim (complete : l.Complete p s) (identifier : String) :
    l.Complete p (s.onGraph (·.claim identifier)) where
  modules := by simpa [Loading.onGraph] using complete.modules
  warnings := complete.warnings

theorem Complete.insert (complete : l.Complete p s) (reached : l.Reachable p q)
    (endowed : l.Endowed q m) : l.Complete p (s.onGraph (·.insert m)) where
  modules m' member := by
    simp only [Loading.onGraph, Graph.modules_insert, List.mem_append, List.mem_singleton] at member
    rcases member with before | rfl
    · exact complete.modules m' before
    · exact ⟨q, reached, endowed⟩
  warnings := complete.warnings

theorem addReference_warnings {name : String} {hint : Option String} {w : Warning}
    (h : w ∈ (l.addReference m name hint s).2.warnings) :
    w ∈ s.warnings ∨ ∃ requested hint help, w = .noMatches requested hint help := by
  simp only [addReference, Library.resolve, Loading.warn, List.mem_append] at h
  rcases h with before | added
  · exact .inl before
  · split at added
    · exact .inr ⟨_, _, _, List.mem_singleton.1 added⟩
    · cases added

/-- Directives that name no script warn only of classes that were not found. -/
theorem absorb_warnings (h : l.absorb load base m d s = (.ok m', s'))
    (companion : d.companionFile? = none) (donor : d.donorFile? = none) {w : Warning}
    (warned : w ∈ s'.warnings) :
    w ∈ s.warnings ∨ ∃ requested hint help, w = .noMatches requested hint help := by
  have same : s' = (l.absorb load base m d s).2 := by rw [h]
  rw [same] at warned
  cases d with
  | classImport name => exact addReference_warnings (m := m) warned
  | libraryImport library name => exact addReference_warnings (m := m) warned
  | companion file => cases companion
  | donor file => cases donor
  | _ => exact .inl warned

def donorsIn (base : Path) (ds : List Directive) : List Path :=
  ds.filterMap fun d => d.donorFile?.map fun (file : String) => base / file

theorem absorb_completes (acyclic : l.NoWayBack p l.named scriptKey) (completes : l.Completes p load)
    (reached : l.Reachable p q) (host : m.identifier = q.identifier)
    (stated : d ∈ l.directivesOf q) (inside : l.Inside p q s) (complete : l.Complete p s)
    (h : l.absorb load q.directory m d s = (.ok m', s')) :
    l.Complete p s' ∧ ∃ ms, m'.donors = m.donors ++ ms ∧
      List.Forall₂ (Endowed l) (donorsIn q.directory [d]) ms := by
  have spec := l.absorb_spec load q.directory m d s
  rw [h] at spec
  cases spec with
  | plain companion donor _ same =>
    refine ⟨⟨complete.modules, fun host donor' warned => ?_⟩, [], ?_, ?_⟩
    · rcases absorb_warnings h companion donor warned with before | ⟨_, _, _, other⟩
      · exact complete.warnings host donor' before
      · cases other
    · rw [same, List.append_nil]
    · simp [donorsIn, donor]
  | present => exact ⟨complete, [], by simp, .nil⟩
  | @companion file c s₁ s₂ calls read =>
    have names := calls.mem_named stated
    cases calls with
    | companion =>
      obtain ⟨endowed, after⟩ := completes _ _ _ _ (reached.named names)
        (inside.named reached names (.claim s _)) (complete.claim _) read
      exact ⟨after.insert (reached.named names) endowed, [], by simp, .nil⟩
  | @ignored file ws skipped =>
    -- the donor would lead to the script itself or to one that is being read
    have donor : q.directory / file ∈ l.donors q := List.mem_filterMap.2 ⟨_, stated, rfl⟩
    refine absurd ?_ (acyclic q _ reached donor)
    rcases skipped with own | reading
    · rw [host, sameIdentifier, beq_iff_eq] at own
      rw [scriptKey, own]
      exact .refl
    · rw [Graph.isLoading, decide_eq_true_eq] at reading
      exact inside _ reading
  | @donor file c s₂ calls read =>
    have names := calls.mem_named stated
    obtain ⟨endowed, after⟩ := completes _ _ _ _ (reached.named names)
      (inside.named reached names (.refl s)) complete read
    exact ⟨after, [c], rfl, .cons endowed .nil⟩

theorem absorbAll_completes (acyclic : l.NoWayBack p l.named scriptKey) (framed : Framed load)
    (completes : l.Completes p load) (reached : l.Reachable p q)
    (host : m.identifier = q.identifier) {ds : List Directive} (stated : ds ⊆ l.directivesOf q)
    (inside : l.Inside p q s) (complete : l.Complete p s)
    (h : l.absorbAll load q.directory m ds s = (.ok m', s')) :
    m'.identifier = q.identifier ∧ l.Complete p s' ∧ ∃ ms, m'.donors = m.donors ++ ms ∧
      List.Forall₂ (Endowed l) (donorsIn q.directory ds) ms := by
  induction ds generalizing m s with
  | nil =>
    obtain ⟨same, rfl⟩ := Prod.mk.inj h
    obtain rfl := Except.ok.inj same
    exact ⟨host, complete, [], by simp, .nil⟩
  | cons d ds ih =>
    obtain ⟨m₁, s₁, absorbed, spec, rest⟩ := absorbAll_cons_eq_ok h
    obtain ⟨after, ms, donors, endowed⟩ := absorb_completes acyclic completes reached host
      (stated List.mem_cons_self) inside complete absorbed
    have still : l.Inside p q s₁ := by
      intro k reading
      rw [(spec.frame framed).loading] at reading
      exact inside k reading
    obtain ⟨same, last, ms', donors', endowed'⟩ := ih (spec.identifier.trans host)
      (fun d' member => stated (List.mem_cons_of_mem _ member)) still after rest
    refine ⟨same, last, ms ++ ms', by rw [donors', donors, List.append_assoc], ?_⟩
    have split : donorsIn q.directory (d :: ds) =
        donorsIn q.directory [d] ++ donorsIn q.directory ds := by
      rw [donorsIn, ← List.singleton_append, List.filterMap_append]
      rfl
    rw [split]
    exact List.rel_append endowed endowed'

theorem loadScript_completes (acyclic : l.NoWayBack p l.named scriptKey) (framed : Framed load)
    (completes : l.Completes p load) : l.Completes p (l.loadScript load) := by
  intro q s m s' reached inside complete h
  obtain ⟨s₁, absorbed, left⟩ := loadScript_eq_ok h
  have entered : l.Inside p q (opened q s) := by
    intro k reading
    rcases (mem_loading_opened (.refl _)).1 reading with rfl | before
    · exact .refl
    · exact inside k before
  have noted : l.Complete p (opened q s) :=
    ⟨by simpa [opened, Loading.onGraph, Loading.note] using complete.modules, complete.warnings⟩
  obtain ⟨same, after, ms, donors, endowed⟩ := absorbAll_completes acyclic framed completes reached
    rfl (List.Subset.refl _) entered noted absorbed
  refine ⟨⟨same, ?_⟩, ?_⟩
  · rw [donors]
    exact endowed
  · rw [left]
    split
    · exact ⟨after.modules, after.warnings⟩
    · exact after

theorem loadWithin_completes (acyclic : l.NoWayBack p l.named scriptKey) (n : Nat) :
    l.Completes p (l.loadWithin n) := by
  induction n with
  | zero =>
    intro q s m s' _ _ _ h
    cases h
  | succ n ih => exact loadScript_completes acyclic (l.loadWithin_framed n) ih

/-- If every identifier stands for one file and no donor leads back to the file that names
    it, then every module, and every donor in it, has the donors that its file states. -/
theorem loadEntry_donors (one : l.OneFileEach p) (acyclic : l.NoWayBack p l.named l.files.placeOf)
    (h : l.loadEntry p {} = (.ok (), s)) :
    (∀ m ∈ s.graph.modules, ∃ q, l.Reachable p q ∧ l.Endowed q m) ∧
      ∀ host donor, .donorCycle host donor ∉ s.warnings := by
  have start : l.Complete p (({} : Loading).onGraph (·.claim p.identifier)) :=
    Complete.claim ⟨by simp, by simp⟩ _
  have idle : l.Inside p p (({} : Loading).onGraph (·.claim p.identifier)) := by
    intro k reading
    simp [Loading.onGraph] at reading
  unfold loadEntry addEntry at h
  generalize read : l.loadFile p (({} : Loading).onGraph (·.claim p.identifier)) = answer at h
  rcases answer with ⟨_ | m, s₁⟩
  · cases (Prod.mk.inj h).1
  · obtain ⟨endowed, after⟩ :=
      loadWithin_completes (acyclic.keys one) l.depth p _ m s₁ .entry idle start read
    obtain ⟨-, rfl⟩ := Prod.mk.inj h
    have last := after.insert .entry endowed
    exact ⟨last.modules, last.warnings⟩

/-- Scripts that name one another as companions, with donors below them. -/
def layered : Loader where
  files.nodes := [
    (["Main.jsc"], .file (.text "using \"A.jsc\";\next \"B.jsc\";")),
    (["A.jsc"], .file (.text "using \"Main.jsc\";\next \"lib/C.jsc\";")),
    (["B.jsc"], .file (.text "ext \"lib/C.jsc\";\next \"lib/D.jsc\";")),
    (["lib"], .directory),
    (["lib", "C.jsc"], .file (.text "using \"D.jsc\";\next \"D.jsc\";")),
    (["lib", "D.jsc"], .file (.text "static int d = 1;"))]

theorem loadEntry_donors_layered :
    layered.OneFileEach ⟨"Main.jsc"⟩ ∧
      layered.NoWayBack ⟨"Main.jsc"⟩ layered.named layered.files.placeOf ∧
      ∃ s, layered.loadEntry ⟨"Main.jsc"⟩ {} = (.ok (), s) ∧
        s.graph.modules.map Module.identifier = ["D", "A", "Main"] ∧
        (∀ m ∈ s.graph.modules, ∃ q, layered.Reachable ⟨"Main.jsc"⟩ q ∧ layered.Endowed q m) ∧
        ∀ host donor, .donorCycle host donor ∉ s.warnings := by
  let qs : List Path := [⟨"Main.jsc"⟩, ⟨"./A.jsc"⟩, ⟨"./B.jsc"⟩, ⟨"./Main.jsc"⟩, ⟨"./lib/C.jsc"⟩,
    ⟨"./lib/D.jsc"⟩]
  let rank (place : Place) : Nat :=
    ([(["lib", "D.jsc"], 0), (["lib", "C.jsc"], 1), (["B.jsc"], 2)].lookup place).getD 3
  have start : ⟨"Main.jsc"⟩ ∈ qs := List.mem_cons_self
  have ranked : ∀ q ∈ qs, layered.named q ⊆ qs ∧
      (∀ c ∈ layered.named q, rank (layered.files.placeOf c) ≤ rank (layered.files.placeOf q)) ∧
      ∀ c ∈ layered.donors q, rank (layered.files.placeOf c) < rank (layered.files.placeOf q) := by
    decide +kernel
  have closed : ∀ q ∈ qs, layered.named q ⊆ qs := fun q listed => (ranked q listed).1
  have one : layered.OneFileEach ⟨"Main.jsc"⟩ :=
    oneFileEach_of_closed start closed (by decide +kernel)
  have acyclic : layered.NoWayBack ⟨"Main.jsc"⟩ layered.named layered.files.placeOf :=
    noWayBack_of_rank rank start ranked
  have ⟨loaded, modules⟩ : (layered.loadEntry ⟨"Main.jsc"⟩ {}).1.toBool = true ∧
      (layered.loadEntry ⟨"Main.jsc"⟩ {}).2.graph.modules.map Module.identifier =
        ["D", "A", "Main"] := by
    decide +kernel
  generalize answered : layered.loadEntry ⟨"Main.jsc"⟩ {} = answer at loaded modules
  rcases answer with ⟨_ | _, s⟩
  · cases loaded
  · exact ⟨one, acyclic, s, rfl, modules, loadEntry_donors one acyclic answered⟩

/-- A script whose companion has it as a donor. -/
def returning : Loader where
  files.nodes := [
    (["Main.jsc"], .file (.text "using \"B.jsc\";\nB.go();")),
    (["B.jsc"], .file (.text "ext \"Main.jsc\";\nsvoid go() \x7b \x7d"))]

/-- Donors without a cycle may still be left out, if companions lead back. -/
theorem loadEntry_donors_left_out :
    returning.OneFileEach ⟨"Main.jsc"⟩ ∧
      returning.NoWayBack ⟨"Main.jsc"⟩ returning.donors returning.files.placeOf ∧
      ∃ s, returning.loadEntry ⟨"Main.jsc"⟩ {} = (.ok (), s) ∧
        (∃ m ∈ s.graph.modules, m.identifier = "B" ∧
          ∀ q, returning.Reachable ⟨"Main.jsc"⟩ q → ¬ returning.Endowed q m) ∧
        .donorCycle "B" "Main" ∈ s.warnings := by
  let qs : List Path := [⟨"Main.jsc"⟩, ⟨"./B.jsc"⟩, ⟨"./Main.jsc"⟩]
  let rank (place : Place) : Nat := if place = ["B.jsc"] then 1 else 0
  have start : ⟨"Main.jsc"⟩ ∈ qs := List.mem_cons_self
  have ranked : ∀ q ∈ qs, returning.named q ⊆ qs ∧
      (∀ c ∈ returning.donors q, rank (returning.files.placeOf c) ≤ rank (returning.files.placeOf q)) ∧
      ∀ c ∈ returning.donors q, rank (returning.files.placeOf c) < rank (returning.files.placeOf q) := by
    decide +kernel
  have closed : ∀ q ∈ qs, returning.named q ⊆ qs := fun q listed => (ranked q listed).1
  have one : returning.OneFileEach ⟨"Main.jsc"⟩ :=
    oneFileEach_of_closed start closed (by decide +kernel)
  have acyclic : returning.NoWayBack ⟨"Main.jsc"⟩ returning.donors returning.files.placeOf :=
    noWayBack_of_rank rank start ranked
  have states : ∀ q ∈ qs, q.identifier = "B" → returning.donors q ≠ [] := by decide +kernel
  have ⟨loaded, modules, warned⟩ : (returning.loadEntry ⟨"Main.jsc"⟩ {}).1.toBool = true ∧
      (∃ m ∈ (returning.loadEntry ⟨"Main.jsc"⟩ {}).2.graph.modules,
        m.identifier = "B" ∧ m.donors = []) ∧
      .donorCycle "B" "Main" ∈ (returning.loadEntry ⟨"Main.jsc"⟩ {}).2.warnings := by
    decide +kernel
  generalize answered : returning.loadEntry ⟨"Main.jsc"⟩ {} = answer at loaded modules warned
  rcases answer with ⟨_ | _, s⟩
  · cases loaded
  · obtain ⟨m, member, identifier, none⟩ := modules
    refine ⟨one, acyclic, s, rfl, ⟨m, member, identifier, ?_⟩, warned⟩
    intro q reached endowed
    obtain ⟨same, donors⟩ := endowed
    rw [none, List.forall₂_nil_right_iff] at donors
    exact states q (reached.mem_of_closed start closed) (same.symm.trans identifier) donors

end ScriptJar.Loader

import Mathlib.Data.Finset.Card
import Mathlib.Data.Set.Card
import Mathlib.Data.Set.Finite.List
import Mathlib.Logic.Function.Iterate
import ScriptJar.Proofs.Paths
import ScriptJar.Proofs.ScriptReading

/-! # How deep scripts nest

Scripts may name one another in any way, and neither the identifiers that are taken nor
the scripts that are being read bound the nesting alone: one stops companions, the other
stops donors.  What both leave free is lowered by every reading inside another one.

That a reader of depth `n` is deep enough is said without counting: whatever is put in
place of the readings that are nested deeper, the answer is the same.

* `Loader.Calls.lowers` — a nested reading has less left;
* `Loader.iterate_eq_loadWithin` — so much depth is enough;
* `Loader.loadEntry_nesting` — the depth that loading an entry needs.
-/

namespace ScriptJar.Loader

variable {l : Loader} {load load' : ScriptReader} {base p c : Path} {m : Module}
  {d : Directive} {s s' s₁ : Loading}

/-! ## Readers that agree on what is asked for -/

theorem absorbAll_congr (framed : Framed load) {ds : List Directive}
    (same : ∀ d ∈ ds, ∀ s' c s₁, s.Frame s' → Calls base m.identifier s' d c s₁ →
      load c s₁ = load' c s₁) :
    l.absorbAll load base m ds s = l.absorbAll load' base m ds s := by
  induction ds generalizing m s with
  | nil => rfl
  | cons d ds ih =>
    have first : l.absorb load base m d s = l.absorb load' base m d s :=
      absorb_congr fun c s₁ => same d List.mem_cons_self s c s₁ (.refl s)
    have spec := l.absorb_spec load base m d s
    rw [absorbAll, absorbAll, ← first]
    generalize l.absorb load base m d s = answer at spec
    rcases answer with ⟨_ | m', s'⟩
    · rfl
    · have before := spec.frame framed
      refine ih fun d' member s'' c s₁ frame calls => ?_
      rw [spec.identifier] at calls
      exact same d' (List.mem_cons_of_mem _ member) s'' c s₁ (before.trans frame) calls

/-- The state in which the first directive of a script is looked at. -/
def opened (p : Path) (s : Loading) : Loading :=
  (s.note p).onGraph (·.enter p.identifier)

theorem loadScript_congr (framed : Framed load)
    (same : ∀ d ∈ l.directivesOf p, ∀ s' c s₁, (opened p s).Frame s' →
      Calls p.directory p.identifier s' d c s₁ → load c s₁ = load' c s₁) :
    l.loadScript load p s = l.loadScript load' p s := by
  unfold directivesOf at same
  unfold loadScript
  cases read : readScript l.files p with
  | error e => rfl
  | ok text =>
    rw [read] at same
    have inside := absorbAll_congr (l := l)
      (m := { identifier := p.identifier, substitutions := l.defaults }) framed same
    unfold opened at inside
    unfold parse
    dsimp only
    rw [inside]

/-! ## What is left to take and to read -/

variable {keys : Finset String} {extra : Path → Nat}

/-- Those of some identifiers that are not taken. -/
def free (keys : Finset String) (s : Loading) : Finset String :=
  keys.filter (· ∉ s.graph.claimed)

/-- Those of some identifiers that are not being read once a script is. -/
def idle (keys : Finset String) (p : Path) (s : Loading) : Finset String :=
  keys.filter fun k => k ≠ Graph.key p.identifier ∧ k ∉ s.graph.loading

/-- What a reading has left. -/
def left (keys : Finset String) (extra : Path → Nat) (p : Path) (s : Loading) : Nat :=
  (free keys s).card + (idle keys p s).card + extra p

theorem mem_loading_opened {k : String} (frame : (opened p s).Frame s') :
    k ∈ s'.graph.loading ↔ k = Graph.key p.identifier ∨ k ∈ s.graph.loading := by
  rw [frame.loading]
  exact Graph.mem_loading_enter

/-- A companion takes its identifier, and a donor is not being read yet. -/
theorem Calls.takes {host : String} (h : Calls base host s d c s₁) :
    (Graph.key c.identifier ∉ s.graph.claimed ∧ Graph.key c.identifier ∈ s₁.graph.claimed) ∨
      Graph.key c.identifier ∉ s.graph.loading := by
  cases h with
  | companion _ untaken =>
    simp only [Graph.isClaimed, decide_eq_false_iff_not] at untaken
    exact .inl ⟨untaken, by simp [Loading.onGraph]⟩
  | donor _ unread =>
    simp only [Graph.isLoading, decide_eq_false_iff_not] at unread
    exact .inr unread

/-- A reading inside another one has less left, if its identifier counts. -/
theorem Calls.lowers (frame : (opened p s).Frame s')
    (calls : Calls p.directory p.identifier s' d c s₁)
    (counts : Graph.key c.identifier ∈ keys ∧ extra c ≤ extra p ∨ extra c < extra p) :
    left keys extra c s₁ < left keys extra p s := by
  have claimed : ∀ k ∈ s.graph.claimed, k ∈ s'.graph.claimed := by
    intro k taken
    exact frame.claimed (by simpa [opened, Loading.onGraph, Loading.note] using taken)
  have fewer : free keys s₁ ⊆ free keys s := by
    intro k member
    simp only [free, Finset.mem_filter] at member ⊢
    exact ⟨member.1, fun taken => member.2 (calls.frame.claimed (claimed k taken))⟩
  have busier : idle keys c s₁ ⊆ idle keys p s := by
    intro k member
    simp only [idle, Finset.mem_filter, calls.frame.loading, mem_loading_opened frame,
      not_or] at member ⊢
    exact ⟨member.1, member.2.2⟩
  have fewerCard := Finset.card_le_card fewer
  have busierCard := Finset.card_le_card busier
  unfold left
  rcases counts with ⟨counts, le⟩ | lt
  · -- one of the two sets loses the identifier
    rcases calls.takes with ⟨untaken, taken⟩ | unread
    · have : (free keys s₁).card < (free keys s).card := by
        apply Finset.card_lt_card
        refine (Finset.ssubset_iff_of_subset fewer).2 ⟨Graph.key c.identifier, ?_, ?_⟩
        · exact Finset.mem_filter.2 ⟨counts, fun before => untaken (claimed _ before)⟩
        · simp [free, taken]
      omega
    · have : (idle keys c s₁).card < (idle keys p s).card := by
        apply Finset.card_lt_card
        refine (Finset.ssubset_iff_of_subset busier).2 ⟨Graph.key c.identifier, ?_, ?_⟩
        · rw [mem_loading_opened frame, not_or] at unread
          exact Finset.mem_filter.2 ⟨counts, unread⟩
        · simp [idle]
      omega
  · omega

/-! ## Enough depth -/

def named (l : Loader) (p : Path) : List Path :=
  l.companions p ++ l.donors p

theorem Calls.mem_named {host : String} (h : Calls p.directory host s d c s₁)
    (member : d ∈ l.directivesOf p) : c ∈ l.named p := by
  rw [named, List.mem_append]
  cases h with
  | companion => exact .inl (List.mem_filterMap.2 ⟨_, member, rfl⟩)
  | donor => exact .inr (List.mem_filterMap.2 ⟨_, member, rfl⟩)

/-- If every script that is named counts, readings nest no deeper than what is left:
    what stands for the readings that are nested deeper makes no difference. -/
theorem iterate_eq_loadWithin (keys : Finset String) (extra : Path → Nat)
    (relevant : Path → Prop)
    (counts : ∀ p, relevant p → ∀ c ∈ l.named p, relevant c ∧
      (Graph.key c.identifier ∈ keys ∧ extra c ≤ extra p ∨ extra c < extra p))
    (deeper : ScriptReader) {n : Nat} (isRelevant : relevant p)
    (enough : left keys extra p s < n) :
    (l.loadScript^[n] deeper) p s = l.loadWithin n p s := by
  induction n generalizing p s with
  | zero => omega
  | succ n ih =>
    -- the two readers differ only in what they read with, and agree on all that is asked for
    rw [Function.iterate_succ_apply', loadWithin]
    refine (loadScript_congr (l.loadWithin_framed n) fun d member s' c s₁ frame calls => ?_).symm
    obtain ⟨isRelevant', lower⟩ := counts p isRelevant c (calls.mem_named member)
    have := calls.lowers frame lower
    exact (ih isRelevant' (by omega)).symm

/-! ## The depth of a tree -/

/-- The identifiers that files of a tree can have. -/
def fileKeys (t : FileTree) : Finset String :=
  insert (Graph.key "") (t.nodes.map fun n =>
    Graph.key (Path.splitName (n.1.getLast?.getD "")).1).toFinset

theorem card_fileKeys (t : FileTree) : (fileKeys t).card ≤ t.nodes.length + 1 := by
  refine (Finset.card_insert_le _ _).trans (Nat.add_le_add_right ?_ 1)
  exact (List.toFinset_card_le _).trans (List.length_map _).le

theorem readScript_eq_ok {t : FileTree} {text : String} (h : readScript t p = .ok text) :
    FileTree.pathError? p = none ∧ (t.placeOf p, .file (.text text)) ∈ t.nodes := by
  have read : t.readText p = .ok text := by
    unfold readScript at h
    split at h
    · cases answer : t.readText p with
      | ok x => simpa [answer] using h
      | error e => simp [answer] at h
    · cases h
  obtain ⟨place, found, there⟩ := FileTree.readText_eq_ok.1 read
  constructor
  · unfold FileTree.resolve at found
    split at found
    · cases found
    · assumption
  · rw [← FileTree.resolve_eq_placeOf found]
    cases place with
    | nil => cases there
    | cons name place =>
      obtain ⟨front, rest, nodes, -⟩ := List.lookup_eq_some_iff.1 there
      rw [nodes]
      exact List.mem_append_right _ List.mem_cons_self

theorem key_mem_fileKeys {t : FileTree} {text : String} (h : readScript t p = .ok text) :
    Graph.key p.identifier ∈ fileKeys t := by
  unfold Path.identifier Path.stem?
  cases name : p.fileName? with
  | none => exact Finset.mem_insert_self _ _
  | some name' =>
    have last := t.getLast?_placeOf name
    refine Finset.mem_insert_of_mem (List.mem_toFinset.2 (List.mem_map.2 ?_))
    exact ⟨_, (readScript_eq_ok h).2, by rw [last]; rfl⟩

/-- One more for a script that can be read. -/
def readable (l : Loader) (p : Path) : Nat :=
  (readScript l.files p).toBool.toNat

theorem readable_of_named (h : c ∈ l.named p) : l.readable p = 1 := by
  unfold readable
  cases read : readScript l.files p with
  | ok text => rfl
  | error e => simp [named, companions, donors, directivesOf, read] at h

theorem left_lt_depth (l : Loader) (p : Path) (s : Loading) :
    left (fileKeys l.files) l.readable p s < l.depth := by
  have size := card_fileKeys l.files
  have taken := Finset.card_filter_le (fileKeys l.files) (· ∉ s.graph.claimed)
  have reading := Finset.card_filter_le (fileKeys l.files)
    (fun k => k ≠ Graph.key p.identifier ∧ k ∉ s.graph.loading)
  unfold left free idle depth readable
  cases read : readScript l.files p with
  | error e =>
    simp only [Except.toBool, Bool.toNat_false]
    omega
  | ok text =>
    -- the script itself is among those of the tree
    have fewer : (idle (fileKeys l.files) p s).card < (fileKeys l.files).card := by
      apply Finset.card_lt_card
      refine (Finset.ssubset_iff_of_subset (Finset.filter_subset _ _)).2 ?_
      exact ⟨Graph.key p.identifier, key_mem_fileKeys read, by simp⟩
    simp only [idle] at fewer
    simp only [Except.toBool, Bool.toNat_true]
    omega

/-- However deep a reader is, it does not do more than one of the depth of the tree. -/
theorem iterate_depth_eq_loadFile (l : Loader) (deeper : ScriptReader) :
    l.loadScript^[l.depth] deeper = l.loadFile := by
  funext p s
  refine iterate_eq_loadWithin (fileKeys l.files) l.readable (fun _ => True)
    (fun p _ c member => ⟨trivial, ?_⟩) deeper trivial (l.left_lt_depth p s)
  rw [readable_of_named member]
  unfold readable
  cases read : readScript l.files c with
  | ok text => exact .inl ⟨key_mem_fileKeys read, Nat.le_refl 1⟩
  -- a script that cannot be read may have any identifier, but names nothing
  | error e => exact .inr Nat.one_pos

/-- Reading a script with all it names is reading it with all they name. -/
theorem loadScript_loadFile (l : Loader) : l.loadScript l.loadFile = l.loadFile := by
  -- one reading more around or inside those of the depth of the tree
  have once := l.iterate_depth_eq_loadFile l.loadFile
  have more := l.iterate_depth_eq_loadFile (l.loadScript l.loadFile)
  rw [← Function.iterate_succ_apply l.loadScript, Function.iterate_succ_apply' l.loadScript,
    once] at more
  exact more

/-! ## The identifiers that scripts name -/

/-- The scripts that are named by a script, by those it names, and so on. -/
inductive Reachable (l : Loader) (p : Path) : Path → Prop where
  | entry : Reachable l p p
  | named {q c : Path} : Reachable l p q → c ∈ l.named q → Reachable l p c

/-- The identifiers that occur in the scripts that can be reached from a path. -/
def namedKeys (l : Loader) (p : Path) : Set String :=
  { k | ∃ q, l.Reachable p q ∧ ∃ c ∈ l.named q, Graph.key c.identifier = k }

/-- Only finitely many paths are short enough to be read. -/
theorem finite_readable (t : FileTree) : { p | ∃ text, readScript t p = .ok text }.Finite := by
  have bytes : Finite UInt8 := Finite.of_injective UInt8.toFin fun _ _ => UInt8.toFin_inj.1
  have short := (List.finite_length_le UInt8 FileTree.maxPath).preimage
    (f := fun p : Path => p.text.toByteArray.data.toList) (by
      rintro ⟨a⟩ - ⟨b⟩ - same
      exact congrArg Path.mk (String.toByteArray_inj.1 (ByteArray.ext (Array.ext' same))))
  refine short.subset ?_
  rintro p ⟨text, read⟩
  have fits := (readScript_eq_ok read).1
  unfold FileTree.pathError? at fits
  split at fits
  · cases fits
  · split at fits
    · cases fits
    · split at fits
      · cases fits
      · next short => exact Nat.le_of_not_lt short

theorem finite_namedKeys (l : Loader) (p : Path) : (l.namedKeys p).Finite := by
  have each (q : Path) : { k | ∃ c ∈ l.named q, Graph.key c.identifier = k }.Finite :=
    ((l.named q).finite_toSet.image fun c => Graph.key c.identifier).subset (by
      rintro k ⟨c, member, rfl⟩
      exact ⟨c, member, rfl⟩)
  refine ((finite_readable l.files).biUnion fun q _ => each q).subset ?_
  rintro k ⟨q, -, c, member, rfl⟩
  refine Set.mem_biUnion ?_ ⟨c, member, rfl⟩
  have isRead := readable_of_named member
  unfold readable at isRead
  cases read : readScript l.files q with
  | ok text => exact ⟨text, read⟩
  | error e => simp [read, Except.toBool] at isRead

/-- Loading an entry script ends, whatever scripts there are and however they name one
    another: readings nest no deeper than twice the number of identifiers that the
    scripts name, and one.  So much depth gives the answer, whatever is put in place of
    readings beyond it, and the answer is that of a reader which has no bound. -/
theorem loadEntry_nesting (l : Loader) (p : Path) :
    (l.namedKeys p).Finite ∧
      (∀ deeper, addEntry (l.loadScript^[2 * (l.namedKeys p).ncard + 1] deeper) p {} =
        l.loadEntry p {}) ∧
      l.loadScript l.loadFile = l.loadFile := by
  have finite := l.finite_namedKeys p
  refine ⟨finite, fun deeper => ?_, l.loadScript_loadFile⟩
  have enough : left finite.toFinset (fun _ => 0) p (({} : Loading).onGraph (·.claim p.identifier))
      < 2 * (l.namedKeys p).ncard + 1 := by
    rw [Set.ncard_eq_toFinset_card _ finite, left]
    have := Finset.card_filter_le finite.toFinset
      (· ∉ (({} : Loading).onGraph (·.claim p.identifier)).graph.claimed)
    have := Finset.card_filter_le finite.toFinset (fun k => k ≠ Graph.key p.identifier ∧
      k ∉ (({} : Loading).onGraph (·.claim p.identifier)).graph.loading)
    unfold free idle
    omega
  have same (deeper : ScriptReader) := iterate_eq_loadWithin finite.toFinset (fun _ => 0)
    (l.Reachable p) (fun q reached c member => ⟨reached.named member,
      .inl ⟨finite.mem_toFinset.2 ⟨q, reached, c, member, rfl⟩, Nat.le_refl 0⟩⟩)
    deeper .entry enough
  -- the reader without a bound is one of those that may stand beyond the depth
  have unbounded := same l.loadFile
  rw [Function.iterate_fixed l.loadScript_loadFile] at unbounded
  unfold loadEntry addEntry
  rw [same deeper, unbounded]

end ScriptJar.Loader

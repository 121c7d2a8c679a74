import ScriptJar.FileTree.Update

/-! # Places of paths

A tree has no links, so the place that a path leads to can be told from its text and
the working directory alone, before anything is there: `FileTree.placeOf`.  Two paths
with one place are two names of one file, whatever they look like.

* `FileTree.resolve_eq_placeOf` — a path that leads anywhere leads to its place;
* `FileTree.Grows` — a tree that has everything another one has;
* `FileTree.readText_writeText`, `FileTree.readText_of_written` — what can be read
  after a text was written.
-/

namespace ScriptJar.FileTree

variable {t t' t'' : FileTree} {p q : Path} {here place : Place}

/-! ## Following a path -/

/-- Where a segment leads from a place. -/
def goTo (here : Place) (segment : List Char) : Place :=
  if Path.isVoid segment then here
  else if segment = ['.', '.'] then here.dropLast
  else here ++ [String.ofList segment]

/-- The place of a path, whether or not anything is there. -/
def placeOf (t : FileTree) (p : Path) : Place :=
  (Text.splitOn '/' p.text.toList).foldl goTo (t.origin p)

/-- A segment can be followed: it starts in a directory, and if it is a name, something
    has that name. -/
def Opens (t : FileTree) (here : Place) (segment : List Char) : Prop :=
  t.get? here = some .directory ∧
    (Path.isVoid segment = false → segment ≠ ['.', '.'] →
      (String.ofList segment).utf8ByteSize ≤ maxName ∧
        (t.get? (here ++ [String.ofList segment])).isSome)

theorem walk_cons {segment : List Char} {rest : List (List Char)} :
    t.walk here (segment :: rest) = .ok place ↔
      t.Opens here segment ∧ t.walk (goTo here segment) rest = .ok place := by
  rw [walk]
  unfold Opens goTo
  by_cases directory : t.get? here = some .directory
  · by_cases void : Path.isVoid segment = true
    · simp [directory, void]
    · by_cases up : segment = ['.', '.']
      · subst up
        simp [directory, show Path.isVoid ['.', '.'] = false from rfl]
      · by_cases short : maxName < (String.ofList segment).utf8ByteSize
        · simp [directory, void, up, short, Nat.not_le.2 short]
        · cases there : t.get? (here ++ [String.ofList segment]) with
          | none => simp [directory, void, up, short, there]
          | some n => simp [directory, void, up, short, there, Nat.le_of_not_lt short]
  · simp [directory]

theorem walk_eq_foldl {segments : List (List Char)} (h : t.walk here segments = .ok place) :
    place = segments.foldl goTo here := by
  induction segments generalizing here with
  | nil =>
    rw [walk, Except.ok.injEq] at h
    exact h.symm
  | cons segment rest ih => exact ih (walk_cons.1 h).2

theorem resolve_eq_placeOf (h : t.resolve p = .ok place) : place = t.placeOf p := by
  unfold resolve at h
  split at h
  · contradiction
  · exact walk_eq_foldl h

theorem walk_concat {segments : List (List Char)} {segment : List Char}
    (h : t.walk here segments = .ok place) (opens : t.Opens place segment) :
    t.walk here (segments ++ [segment]) = .ok (goTo place segment) := by
  induction segments generalizing here with
  | nil =>
    rw [walk, Except.ok.injEq] at h
    subst h
    exact walk_cons.2 ⟨opens, rfl⟩
  | cons head rest ih =>
    obtain ⟨first, more⟩ := walk_cons.1 h
    exact walk_cons.2 ⟨first, ih more⟩

/-! ## Larger trees -/

/-- The second tree has a directory wherever the first has one, and something wherever
    the first has anything. -/
structure Leads (t t' : FileTree) : Prop where
  workingDirectory : t'.workingDirectory = t.workingDirectory
  directory : ∀ place, t.get? place = some .directory → t'.get? place = some .directory
  something : ∀ place, (t.get? place).isSome → (t'.get? place).isSome

theorem Leads.opens (leads : Leads t t') {segment : List Char} (h : t.Opens here segment) :
    t'.Opens here segment := by
  refine ⟨leads.directory _ h.1, fun named down => ?_⟩
  obtain ⟨short, there⟩ := h.2 named down
  exact ⟨short, leads.something _ there⟩

theorem Leads.walk (leads : Leads t t') {segments : List (List Char)}
    (h : t.walk here segments = .ok place) : t'.walk here segments = .ok place := by
  induction segments generalizing here with
  | nil => exact h
  | cons segment rest ih =>
    obtain ⟨opens, more⟩ := walk_cons.1 h
    exact walk_cons.2 ⟨leads.opens opens, ih more⟩

theorem Leads.origin (leads : Leads t t') (p : Path) : t'.origin p = t.origin p := by
  rw [FileTree.origin, FileTree.origin, leads.workingDirectory]

theorem Leads.resolve (leads : Leads t t') (h : t.resolve p = .ok place) :
    t'.resolve p = .ok place := by
  unfold FileTree.resolve at h ⊢
  split at h
  · contradiction
  · rw [leads.origin]
    exact leads.walk h

/-- The second tree has all that the first has. -/
structure Grows (t t' : FileTree) : Prop where
  workingDirectory : t'.workingDirectory = t.workingDirectory
  kept : ∀ place n, t.get? place = some n → t'.get? place = some n

theorem Grows.refl (t : FileTree) : Grows t t := ⟨rfl, fun _ _ h => h⟩

theorem Grows.trans (first : Grows t t') (second : Grows t' t'') : Grows t t'' :=
  ⟨second.workingDirectory.trans first.workingDirectory,
    fun place n h => second.kept place n (first.kept place n h)⟩

theorem Grows.leads (grows : Grows t t') : Leads t t' where
  workingDirectory := grows.workingDirectory
  directory place := grows.kept place _
  something place h := by
    obtain ⟨n, there⟩ := Option.isSome_iff_exists.1 h
    rw [grows.kept place n there]
    rfl

/-! ## Setting a place -/

theorem lookup_map_set (entries : List (Place × Node)) (n : Node) (q : Place) :
    (entries.map fun e => if e.1 = place then (place, n) else e).lookup q =
      if q = place ∧ place ∈ entries.map Prod.fst then some n else entries.lookup q := by
  induction entries with
  | nil => simp
  | cons e entries ih =>
    obtain ⟨k, v⟩ := e
    by_cases hit : q = k
    · subst hit
      by_cases here : q = place <;> simp [here]
    · have miss : (q == k) = false := beq_eq_false_iff_ne.2 hit
      by_cases here : k = place
      · subst here
        simp [List.lookup_cons, hit, miss, ih]
      · simp only [List.map_cons, if_neg here, List.lookup_cons, miss, ih, List.mem_cons,
          Ne.symm here, false_or]

/-- Setting a place changes what stands there, and nothing else. -/
theorem get?_set (named : place ≠ []) (n : Node) (q : Place) :
    (t.set place n).get? q = if q = place then some n else t.get? q := by
  have known : (t.nodes.any (·.1 == place)) = true ↔ place ∈ t.nodes.map Prod.fst := by
    simp [List.any_eq_true]
  cases q with
  | nil => simp [get?, Ne.symm named]
  | cons name rest =>
    simp only [get?]
    by_cases there : place ∈ t.nodes.map Prod.fst
    · simp only [set, known, there, ite_true, lookup_map_set, and_true]
    · have free : t.nodes.lookup place = none := by
        rw [List.lookup_eq_none_iff]
        intro e member
        simp only [bne_iff_ne]
        rintro rfl
        exact there (List.mem_map_of_mem member)
      simp only [set, known, there, ite_false, List.lookup_append]
      by_cases here : name :: rest = place
      · simp [here, free]
      · have miss : (name :: rest == place) = false := beq_eq_false_iff_ne.2 here
        simp [here, List.lookup_cons, miss]

@[simp] theorem workingDirectory_set (n : Node) :
    (t.set place n).workingDirectory = t.workingDirectory := by
  unfold set
  split <;> rfl

/-- Filling a place where there is no directory blocks no way. -/
theorem leads_set (named : place ≠ []) (free : t.get? place ≠ some .directory) (n : Node) :
    Leads t (t.set place n) where
  workingDirectory := workingDirectory_set n
  directory q h := by
    rw [get?_set named, if_neg]
    · exact h
    · rintro rfl
      exact free h
  something q h := by
    rw [get?_set named]
    split
    · rfl
    · exact h

theorem Target.place_ne_nil (g : Target) : g.place ≠ [] := by
  simp [Target.place]

/-! ## Making directories -/

/-- What making a directory does: it fills a free place. -/
theorem makeDirectory_spec (h : t.makeDirectory p = .ok t') :
    ∃ place, place ≠ [] ∧ t.get? place = none ∧ t' = t.set place .directory := by
  unfold makeDirectory at h
  cases aim : t.target p with
  | error e => simp [aim] at h
  | ok g =>
    simp only [aim] at h
    split at h
    · contradiction
    · split at h
      · contradiction
      · split at h
        · contradiction
        · next free =>
          cases h
          exact ⟨g.place, g.place_ne_nil, by simpa using free, rfl⟩

theorem makeDirectory_grows (h : t.makeDirectory p = .ok t') : Grows t t' := by
  obtain ⟨place, named, free, rfl⟩ := makeDirectory_spec h
  refine ⟨workingDirectory_set _, fun q n there => ?_⟩
  rw [get?_set named, if_neg]
  · exact there
  · rintro rfl
    simp [free] at there

section Invariant

variable {P : FileTree → Prop}

theorem climb_invariant (keeps : ∀ t p t', t.makeDirectory p = .ok t' → P t → P t')
    {missing ps : List Path} {r : Except FileError (List Path)}
    (h : t.climb missing ps = (r, t')) (start : P t) : P t' := by
  induction ps generalizing missing with
  | nil =>
    cases h
    exact start
  | cons p ps ih =>
    rw [climb] at h
    split at h
    · next made =>
      cases h
      exact keeps _ _ _ made start
    · exact ih h
    · split at h <;> cases h <;> exact start

theorem makeEach_invariant (keeps : ∀ t p t', t.makeDirectory p = .ok t' → P t → P t')
    {ps : List Path} {r : Except FileError Unit} (h : t.makeEach ps = (r, t')) (start : P t) :
    P t' := by
  induction ps generalizing t with
  | nil =>
    cases h
    exact start
  | cons p ps ih =>
    rw [makeEach] at h
    split at h
    · next made => exact ih h (keeps _ _ _ made start)
    · split at h
      · exact ih h start
      · cases h
        exact start

/-- What making a directory keeps, making a directory with all above it keeps, also if it
    fails halfway. -/
theorem makeDirectories_invariant (keeps : ∀ t p t', t.makeDirectory p = .ok t' → P t → P t')
    {r : Except FileError Unit} (h : t.makeDirectories p = (r, t')) (start : P t) : P t' := by
  unfold makeDirectories at h
  rcases climbed : t.climb [] (ancestors p) with ⟨_ | missing, t₁⟩
  · simp only [climbed, Prod.mk.injEq] at h
    rw [← h.2]
    exact climb_invariant keeps climbed start
  · simp only [climbed] at h
    exact makeEach_invariant keeps h (climb_invariant keeps climbed start)

end Invariant

/-! ## Writing and reading -/

theorem readText_eq_ok {x : String} :
    t.readText q = .ok x ↔
      ∃ place, t.resolve q = .ok place ∧ t.get? place = some (.file (.text x)) := by
  unfold readText node
  cases t.resolve q with
  | error e => simp
  | ok place =>
    cases there : t.get? place with
    | none => simp [there]
    | some n =>
      cases n with
      | directory => simp [there]
      | file content => cases content <;> simp [there]

theorem Grows.readText (grows : Grows t t') {x : String} (h : t.readText q = .ok x) :
    t'.readText q = .ok x := by
  obtain ⟨place, found, text⟩ := readText_eq_ok.1 h
  exact readText_eq_ok.2 ⟨place, grows.leads.resolve found, grows.kept _ _ text⟩

theorem dropEmpty_eq_self {segments : List (List Char)}
    (h : ¬ (segments.reverse.dropWhile List.isEmpty).reverse.length < segments.length) :
    (segments.reverse.dropWhile List.isEmpty).reverse = segments := by
  have suffix := List.dropWhile_suffix (l := segments.reverse) List.isEmpty
  have whole : segments.reverse.dropWhile List.isEmpty = segments.reverse := by
    apply suffix.eq_of_length
    have := suffix.length_le
    simp only [List.length_reverse] at h this ⊢
    omega
  rw [whole, List.reverse_reverse]

theorem target_spec {g : Target} (h : t.target p = .ok g) (named : g.isFixed = false)
    (bare : g.slash = false) :
    pathError? p = none ∧ t.get? g.directory = some .directory ∧
      ∃ front, Text.splitOn '/' p.text.toList = front ++ [g.segment] ∧
        t.walk (t.origin p) front = .ok g.directory := by
  unfold target at h
  cases refused : pathError? p with
  | some e => simp [refused] at h
  | none =>
    simp only [refused] at h
    generalize cut : ((Text.splitOn '/' p.text.toList).reverse.dropWhile List.isEmpty).reverse =
      segments at h
    cases walked : t.walk (t.origin p) segments.dropLast with
    | error e => simp [walked] at h
    | ok dir =>
      simp only [walked] at h
      split at h
      · contradiction
      · next directory =>
        cases h
        simp only [decide_eq_false_iff_not] at bare
        rw [← cut] at bare
        rw [dropEmpty_eq_self bare] at cut
        refine ⟨rfl, by simpa using directory, segments.dropLast, ?_, walked⟩
        cases last : segments.getLast? with
        | none => simp [last, Target.isFixed, Path.isVoid] at named
        | some segment =>
          rw [cut, Option.getD_some]
          obtain ⟨front, rfl⟩ := List.getLast?_eq_some_iff.1 last
          rw [List.dropLast_concat]

/-- What writing does: it fills a place that is no directory, and the path then leads
    there. -/
theorem write_spec {content : Content} (h : t.write p content = .ok t') :
    ∃ place, place ≠ [] ∧ t.get? place ≠ some .directory ∧
      t' = t.set place (.file content) ∧ t'.resolve p = .ok place := by
  unfold write at h
  cases aim : t.target p with
  | error e => simp [aim] at h
  | ok g =>
    simp only [aim] at h
    split at h
    · contradiction
    · next ends =>
      split at h
      · contradiction
      · next short =>
        split at h
        · contradiction
        · next free =>
          cases h
          simp only [Bool.or_eq_true, not_or, Bool.not_eq_true] at ends
          obtain ⟨valid, directory, front, whole, walked⟩ := target_spec aim ends.1 ends.2
          have leads := leads_set g.place_ne_nil free (.file content)
          have named : Path.isVoid g.segment = false ∧ g.segment ≠ ['.', '.'] := by
            simpa [Target.isFixed] using ends.1
          have opens : (t.set g.place (.file content)).Opens g.directory g.segment := by
            refine ⟨leads.directory _ directory, fun _ _ => ⟨Nat.le_of_not_lt short, ?_⟩⟩
            rw [get?_set g.place_ne_nil, if_pos (by rfl)]
            rfl
          refine ⟨g.place, g.place_ne_nil, free, rfl, ?_⟩
          simp only [resolve, valid, whole, leads.origin]
          rw [walk_concat (leads.walk walked) opens]
          simp [goTo, named, Target.place, Target.name]

theorem readText_of_written {x : String} (h : t.writeText p x = .ok t') :
    t'.readText p = .ok x := by
  obtain ⟨place, named, _, rfl, found⟩ := write_spec h
  refine readText_eq_ok.2 ⟨place, found, ?_⟩
  rw [get?_set named, if_pos rfl]

theorem workingDirectory_writeText {x : String} (h : t.writeText p x = .ok t') :
    t'.workingDirectory = t.workingDirectory := by
  obtain ⟨place, _, _, rfl, _⟩ := write_spec h
  exact workingDirectory_set _

theorem placeOf_congr (h : t'.workingDirectory = t.workingDirectory) (p : Path) :
    t'.placeOf p = t.placeOf p := by
  simp [placeOf, origin, h]

/-- Writing a text changes the texts at its place, and no others. -/
theorem readText_writeText {x y : String} (h : t.writeText p x = .ok t')
    (before : t.readText q = .ok y) :
    t'.readText q = .ok (if t.placeOf q = t.placeOf p then x else y) := by
  have same := placeOf_congr (workingDirectory_writeText h) p
  obtain ⟨place, named, free, rfl, found⟩ := write_spec h
  obtain ⟨other, found', text⟩ := readText_eq_ok.1 before
  rw [← resolve_eq_placeOf found', ← same, ← resolve_eq_placeOf found]
  refine readText_eq_ok.2 ⟨other, (leads_set named free _).resolve found', ?_⟩
  rw [get?_set named]
  split
  · rfl
  · exact text

end ScriptJar.FileTree

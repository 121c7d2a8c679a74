import ScriptJar.Build.Correction

/-! # What a correction changes

A correction moves the selection of one reference and leaves the rest of the graph
as it is.  `Replaced R` says that exactly one element of a list gave way to another
one, related to it by `R`; `Graph.Changed R` says it of the references that can be
corrected, those of a module and those of its donors, with everything around them
spelled out as unchanged.

* `Graph.changed_modifyReference` — changing the `i`-th reference does just that;
* `Graph.advanceFirst_cases` — which reference an advance changes;
* `Graph.correct_spec` — a correction that succeeds raises one selection by one, and
  one that fails changes nothing.
-/

namespace ScriptJar

/-! ## One element of a list -/

/-- Exactly one element was replaced, by one that `R` relates to it. -/
inductive Replaced {α : Type} (R : α → α → Prop) : List α → List α → Prop where
  | head {x y : α} {xs : List α} : R x y → Replaced R (x :: xs) (y :: xs)
  | tail {x : α} {xs ys : List α} : Replaced R xs ys → Replaced R (x :: xs) (x :: ys)

namespace Replaced

variable {α : Type} {R : α → α → Prop} {xs ys : List α}

theorem modify {f : α → α} {i : Nat} {x : α} (found : xs[i]? = some x) (related : R x (f x)) :
    Replaced R xs (xs.modify i f) := by
  induction xs generalizing i with
  | nil => simp at found
  | cons z xs ih =>
    cases i with
    | zero =>
      obtain rfl : z = x := by simpa using found
      exact .head related
    | succ i => exact .tail (ih (by simpa using found))

theorem append_right (h : Replaced R xs ys) (zs : List α) :
    Replaced R (xs ++ zs) (ys ++ zs) := by
  induction h with
  | head related => exact .head related
  | tail _ ih => exact .tail ih

theorem append_left (h : Replaced R xs ys) (zs : List α) :
    Replaced R (zs ++ xs) (zs ++ ys) := by
  induction zs with
  | nil => exact h
  | cons z zs ih => exact .tail ih

/-- Replacing one of the parts of a list replaces one of its elements. -/
theorem flatMap {β : Type} {S : β → β → Prop} {f : α → List β}
    (parts : ∀ x y, R x y → Replaced S (f x) (f y)) (h : Replaced R xs ys) :
    Replaced S (xs.flatMap f) (ys.flatMap f) := by
  induction h with
  | head related => exact (parts _ _ related).append_right _
  | tail _ ih => exact ih.append_left _

theorem eq_self (same : ∀ x y, R x y → y = x) (h : Replaced R xs ys) : ys = xs := by
  induction h with
  | head related => rw [same _ _ related]
  | tail _ ih => rw [ih]

theorem forall_mem {P : α → Prop} (keeps : ∀ x y, R x y → P x → P y) (h : Replaced R xs ys)
    (all : ∀ x ∈ xs, P x) : ∀ y ∈ ys, P y := by
  induction h with
  | head related =>
    simp only [List.forall_mem_cons] at all ⊢
    exact ⟨keeps _ _ related all.1, all.2⟩
  | tail _ ih =>
    simp only [List.forall_mem_cons] at all ⊢
    exact ⟨all.1, ih all.2⟩

theorem length_eq (h : Replaced R xs ys) : ys.length = xs.length := by
  induction h with
  | head => rfl
  | tail _ ih => rw [List.length_cons, List.length_cons, ih]

theorem map_eq {β : Type} {f : α → β} (same : ∀ x y, R x y → f y = f x)
    (h : Replaced R xs ys) : ys.map f = xs.map f := by
  induction h with
  | head related => rw [List.map_cons, List.map_cons, same _ _ related]
  | tail _ ih => rw [List.map_cons, List.map_cons, ih]

/-- A count that grows by one where the element is replaced grows by one in all. -/
theorem foldr_add {count : α → Nat} (grows : ∀ x y, R x y → count y = count x + 1)
    (h : Replaced R xs ys) :
    ys.foldr (fun x n => count x + n) 0 = xs.foldr (fun x n => count x + n) 0 + 1 := by
  induction h with
  | head related =>
    simp only [List.foldr_cons, grows _ _ related]
    omega
  | tail _ ih =>
    simp only [List.foldr_cons, ih]
    omega

end Replaced

/-! ## One reference of a graph -/

/-- The selection moved on to the next candidate; nothing else changed. -/
def Reference.Raised (r r' : Reference) : Prop :=
  r.selected + 1 < r.candidates.length ∧ r' = { r with selected := r.selected + 1 }

theorem Reference.advance_raised {r : Reference} (can : r.canAdvance = true) :
    r.Raised r.advance := by
  refine ⟨by simpa [canAdvance] using can, ?_⟩
  rw [advance, if_pos can]

theorem Reference.advance_eq_self {r : Reference}
    (inRange : r.selected < max 1 r.candidates.length) (last : ¬ r.canAdvance = true) :
    r.advance = r := by
  have ge : ¬ r.selected + 1 < r.candidates.length := by simpa [canAdvance] using last
  rw [advance, if_neg last, show r.candidates.length - 1 = r.selected by omega]

namespace Module

variable {R : Reference → Reference → Prop}

/-- One of the module's own references was replaced, and nothing else. -/
def OwnChanged (R : Reference → Reference → Prop) (m m' : Module) : Prop :=
  ∃ rs, Replaced R m.references rs ∧ m' = { m with references := rs }

/-- One reference of the module or of one of its donors was replaced, and nothing
    else. -/
inductive Changed (R : Reference → Reference → Prop) (m : Module) : Module → Prop where
  | own {m' : Module} : m.OwnChanged R m' → m.Changed R m'
  | donor {ds : List Module} :
      Replaced (OwnChanged R) m.donors ds → m.Changed R { m with donors := ds }

theorem changed_modifyInDonors {f : Reference → Reference} {i : Nat} {r : Reference}
    {ds : List Module} (found : (ds.flatMap references)[i]? = some r) (related : R r (f r)) :
    Replaced (OwnChanged R) ds (modifyInDonors f i ds) := by
  induction ds generalizing i with
  | nil => simp at found
  | cons d ds ih =>
    rw [List.flatMap_cons] at found
    rw [modifyInDonors]
    split
    · next own =>
      rw [List.getElem?_append_left own] at found
      exact .head ⟨_, .modify found related, rfl⟩
    · next other =>
      rw [List.getElem?_append_right (Nat.le_of_not_lt other)] at found
      exact .tail (ih found)

theorem changed_modifyReference {f : Reference → Reference} {i : Nat} {r : Reference}
    {m : Module} (found : m.allReferences[i]? = some r) (related : R r (f r)) :
    m.Changed R (m.modifyReference i f) := by
  unfold allReferences at found
  unfold modifyReference
  split
  · next own =>
    rw [List.getElem?_append_left own] at found
    exact .own ⟨_, .modify found related, rfl⟩
  · next other =>
    rw [List.getElem?_append_right (Nat.le_of_not_lt other)] at found
    exact .donor (changed_modifyInDonors found related)

theorem OwnChanged.references {m m' : Module} (h : m.OwnChanged R m') :
    Replaced R m.references m'.references := by
  obtain ⟨rs, replaced, rfl⟩ := h
  exact replaced

theorem Changed.allReferences {m m' : Module} (h : m.Changed R m') :
    Replaced R m.allReferences m'.allReferences := by
  cases h with
  | own own =>
    obtain ⟨rs, replaced, rfl⟩ := own
    exact replaced.append_right _
  | donor replaced =>
    have donors := Replaced.flatMap (fun _ _ own => OwnChanged.references own) replaced
    exact donors.append_left _

theorem Changed.sourcePath {m m' : Module} (h : m.Changed R m') :
    m'.sourcePath = m.sourcePath := by
  cases h with
  | own own =>
    obtain ⟨rs, -, rfl⟩ := own
    rfl
  | donor => rfl

theorem Changed.qualifiedName {m m' : Module} (h : m.Changed R m') :
    m'.qualifiedName = m.qualifiedName := by
  cases h with
  | own own =>
    obtain ⟨rs, -, rfl⟩ := own
    rfl
  | donor => rfl

theorem OwnChanged.eq_self (same : ∀ r r', R r r' → r' = r) {m m' : Module}
    (h : m.OwnChanged R m') : m' = m := by
  obtain ⟨rs, replaced, rfl⟩ := h
  rw [replaced.eq_self same]
  cases m; rfl

theorem Changed.eq_self (same : ∀ r r', R r r' → r' = r) {m m' : Module}
    (h : m.Changed R m') : m' = m := by
  cases h with
  | own own => exact own.eq_self same
  | donor replaced =>
    rw [replaced.eq_self fun _ _ own => OwnChanged.eq_self same own]
    cases m; rfl

end Module

namespace Graph

variable {R : Reference → Reference → Prop} {g g' : Graph}

/-- One reference of one module or of one of its donors was replaced, and nothing
    else. -/
def Changed (R : Reference → Reference → Prop) (g g' : Graph) : Prop :=
  ∃ ms, Replaced (Module.Changed R) g.modules ms ∧ g' = { g with modules := ms }

theorem changed_modifyInModules {f : Reference → Reference} {i : Nat} {r : Reference}
    {ms : List Module} (found : (ms.flatMap Module.allReferences)[i]? = some r)
    (related : R r (f r)) : Replaced (Module.Changed R) ms (modifyInModules f i ms) := by
  induction ms generalizing i with
  | nil => simp at found
  | cons m ms ih =>
    rw [List.flatMap_cons] at found
    rw [modifyInModules]
    split
    · next own =>
      rw [List.getElem?_append_left own] at found
      exact .head (Module.changed_modifyReference found related)
    · next other =>
      rw [List.getElem?_append_right (Nat.le_of_not_lt other)] at found
      exact .tail (ih found)

theorem changed_modifyReference {f : Reference → Reference} {i : Nat} {r : Reference}
    (found : g.references[i]? = some r) (related : R r (f r)) :
    g.Changed R (g.modifyReference i f) :=
  ⟨_, changed_modifyInModules found related, rfl⟩

theorem Changed.references (h : g.Changed R g') : Replaced R g.references g'.references := by
  obtain ⟨ms, replaced, rfl⟩ := h
  exact replaced.flatMap fun _ _ changed => Module.Changed.allReferences changed

theorem Changed.eq_self (same : ∀ r r', R r r' → r' = r) (h : g.Changed R g') : g' = g := by
  obtain ⟨ms, replaced, rfl⟩ := h
  rw [replaced.eq_self fun _ _ changed => Module.Changed.eq_self same changed]

/-! ## Corrections -/

/-- Every selection is that of a candidate, or the first if there is none. -/
def InRange (g : Graph) : Prop :=
  ∀ r ∈ g.references, r.selected < max 1 r.candidates.length

instance (g : Graph) : Decidable g.InRange :=
  inferInstanceAs (Decidable (∀ r ∈ g.references, r.selected < max 1 r.candidates.length))

theorem InRange.of_raised (inRange : g.InRange) (h : g.Changed Reference.Raised g') :
    g'.InRange := by
  apply h.references.forall_mem ?_ inRange
  rintro r r' ⟨lt, rfl⟩ _
  simp only
  omega

theorem selected_of_raised (h : g.Changed Reference.Raised g') :
    g'.total Reference.selected = g.total Reference.selected + 1 := by
  apply h.references.foldr_add
  rintro r r' ⟨_, rfl⟩
  rfl

/-- An advance changes nothing if no reference fits, and otherwise advances the first one that
    does. -/
theorem advanceFirst_cases {fits : Reference → Bool} {moved : Bool}
    (h : g.advanceFirst fits = (moved, g')) :
    ((∀ r ∈ g.references, fits r = false) ∧ moved = false ∧ g' = g) ∨
      ∃ before r after, g.references = before ++ r :: after ∧ (∀ x ∈ before, fits x = false) ∧
        fits r = true ∧ moved = r.canAdvance ∧
        g' = g.modifyReference before.length Reference.advance := by
  rw [advanceFirst] at h
  cases found : g.references.findIdx? fits with
  | none =>
    simp only [found, Prod.mk.injEq] at h
    exact .inl ⟨List.findIdx?_eq_none_iff.1 found, h.1.symm, h.2.symm⟩
  | some i =>
    obtain ⟨lt, fit, earlier⟩ := List.findIdx?_eq_some_iff_getElem.1 found
    simp only [found, List.getElem?_eq_getElem lt, Option.any_some, Prod.mk.injEq] at h
    refine .inr ⟨g.references.take i, g.references[i], g.references.drop (i + 1), ?_, ?_, fit,
      h.1.symm, ?_⟩
    · rw [List.getElem_cons_drop, List.take_append_drop]
    · intro x member
      obtain ⟨j, below, rfl⟩ := List.mem_take_iff_getElem.1 member
      simpa using earlier j (by omega)
    · rw [List.length_take_of_le (Nat.le_of_lt lt), h.2]

theorem getElem?_place {before after : List Reference} {r : Reference}
    (place : g.references = before ++ r :: after) : g.references[before.length]? = some r := by
  simp [place]

theorem advanceFirst_spec (inRange : g.InRange) {fits : Reference → Bool} {moved : Bool}
    (h : g.advanceFirst fits = (moved, g')) :
    if moved then g.Changed Reference.Raised g' else g' = g := by
  rcases advanceFirst_cases h with
    ⟨-, rfl, rfl⟩ | ⟨before, r, after, place, -, -, rfl, rfl⟩
  · rfl
  · have here := getElem?_place place
    split
    · next can => exact changed_modifyReference here (Reference.advance_raised can)
    · next last =>
      -- the reference is written back as it was: out of range, it would be clamped
      have stays := Reference.advance_eq_self (inRange _ (List.mem_of_getElem? here)) last
      exact (changed_modifyReference here stays).eq_self fun _ _ same => same

/-- A correction goes by the words of the error, or by the source line and, if that is
    in vain, by the words after all. -/
theorem correct_cases {files : FileTree} {d : Diagnostic} {moved : Bool} {ws : List Warning}
    (h : g.correct files d = (moved, g', ws)) :
    ((∀ line, d.sourceLine files ≠ .ok (some line)) ∧ g.correctLoosely d.text = (moved, g')) ∨
      ∃ line, d.sourceLine files = .ok (some line) ∧
        ((moved = true ∧ g.correctByLine line = (true, g')) ∨
          ∃ g₁, g.correctByLine line = (false, g₁) ∧
            g₁.correctLoosely d.text = (moved, g')) := by
  unfold correct at h
  cases line : d.sourceLine files with
  | error e =>
    simp only [line, Prod.mk.injEq] at h
    exact .inl ⟨by simp, Prod.ext h.1 h.2.1⟩
  | ok line? =>
    cases line? with
    | none =>
      simp only [line, Prod.mk.injEq] at h
      exact .inl ⟨by simp, Prod.ext h.1 h.2.1⟩
    | some text =>
      right
      rcases byLine : g.correctByLine text with ⟨_ | _, g₁⟩
      · simp only [line, byLine, Prod.mk.injEq] at h
        exact ⟨text, rfl, .inr ⟨g₁, byLine, Prod.ext h.1 h.2.1⟩⟩
      · simp only [line, byLine, Prod.mk.injEq] at h
        obtain ⟨rfl, rfl, -⟩ := h
        exact ⟨text, rfl, .inl ⟨rfl, byLine⟩⟩

/-- A correction that succeeds raises one selection; any other changes nothing.  When
    it goes by the line in vain, the second attempt starts from the same graph. -/
theorem correct_spec (inRange : g.InRange) {files : FileTree} {d : Diagnostic} {moved : Bool}
    {ws : List Warning} (h : g.correct files d = (moved, g', ws)) :
    if moved then g.Changed Reference.Raised g' else g' = g := by
  rcases correct_cases h with ⟨-, loosely⟩ | ⟨line, -, ⟨rfl, byLine⟩ | ⟨g₁, byLine, loosely⟩⟩
  · exact advanceFirst_spec inRange loosely
  · exact advanceFirst_spec inRange byLine
  · obtain rfl : g₁ = g := advanceFirst_spec inRange byLine
    exact advanceFirst_spec inRange loosely

/-! ## What stays the same -/

/-- The modules are those they were, whatever is selected. -/
structure Alike (g g' : Graph) : Prop where
  paths : g'.modules.map Module.sourcePath = g.modules.map Module.sourcePath
  names : g'.modules.map Module.qualifiedName = g.modules.map Module.qualifiedName
  entryIndex : g'.entryIndex = g.entryIndex

theorem Alike.refl (g : Graph) : Alike g g := ⟨rfl, rfl, rfl⟩

theorem Alike.trans {g'' : Graph} (first : Alike g g') (second : Alike g' g'') : Alike g g'' :=
  ⟨second.paths.trans first.paths, second.names.trans first.names,
    second.entryIndex.trans first.entryIndex⟩

theorem Changed.alike (h : g.Changed R g') : Alike g g' := by
  obtain ⟨ms, replaced, rfl⟩ := h
  exact ⟨replaced.map_eq fun _ _ changed => changed.sourcePath,
    replaced.map_eq fun _ _ changed => changed.qualifiedName, rfl⟩

theorem Alike.qualifiedName_entry? (h : Alike g g') :
    g'.entry?.map Module.qualifiedName = g.entry?.map Module.qualifiedName := by
  have entry (g : Graph) : g.entry?.map Module.qualifiedName =
      g.entryIndex.bind ((g.modules.map Module.qualifiedName)[·]?) := by
    simp only [Graph.entry?, Option.map_bind, List.getElem?_map]
    rfl
  rw [entry, entry, h.names, h.entryIndex]

theorem advanceFirst_alike {fits : Reference → Bool} {moved : Bool}
    (h : g.advanceFirst fits = (moved, g')) : Alike g g' := by
  rcases advanceFirst_cases h with ⟨-, -, rfl⟩ | ⟨before, r, after, place, -, -, -, rfl⟩
  · exact .refl _
  · exact (changed_modifyReference (R := fun r r' => r' = r.advance) (getElem?_place place)
      rfl).alike

theorem correct_alike {files : FileTree} {d : Diagnostic} {moved : Bool} {ws : List Warning}
    (h : g.correct files d = (moved, g', ws)) : Alike g g' := by
  rcases correct_cases h with ⟨-, loosely⟩ | ⟨line, -, ⟨-, byLine⟩ | ⟨g₁, byLine, loosely⟩⟩
  · exact advanceFirst_alike loosely
  · exact advanceFirst_alike byLine
  · exact (advanceFirst_alike byLine).trans (advanceFirst_alike loosely)

end Graph

end ScriptJar

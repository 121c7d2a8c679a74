import ScriptJar.JavaSource

/-! # Substitution in a whole text

Substitutions are applied to the statements of a source one by one, before the statements
become the lines of a file.  Where no key has a line end in it, nothing is found across the end
of a statement, and substituting in the whole file gives the same text.  A value may have line
ends: what it leaves is again a text with the statement's own end after it.

* `Text.replaceAll_append_cons` — a replacement on both sides of a character;
* `Substitutions.apply_intercalate` — a table on all statements;
* `Module.javaText_whole` — the source of a module.
-/

namespace ScriptJar

namespace Text

variable {part : List Char} {c : Char}

theorem isPrefixOf_append_cons (free : c ∉ part) (s t : List Char) :
    part.isPrefixOf (s ++ c :: t) = part.isPrefixOf s := by
  induction part generalizing s with
  | nil => rfl
  | cons d part ih =>
    rw [List.mem_cons, not_or] at free
    cases s with
    | nil =>
      have other : d ≠ c := Ne.symm free.1
      simp [List.isPrefixOf, other]
    | cons e s => rw [List.cons_append, List.isPrefixOf, List.isPrefixOf, ih free.2]

/-- The characters still to be dropped are all before the one at which the text is cut. -/
theorem replaceFrom_append_cons (free : c ∉ part) (some : part ≠ []) (by_ : List Char)
    {skip : Nat} {s : List Char} (inside : skip ≤ s.length) (t : List Char) :
    replaceFrom part by_ skip (s ++ c :: t) =
      replaceFrom part by_ skip s ++ c :: replaceFrom part by_ 0 t := by
  induction s generalizing skip with
  | nil =>
    obtain rfl : skip = 0 := by simpa using inside
    have notHere : part.isPrefixOf (c :: t) = false := by
      rw [← List.nil_append (c :: t), isPrefixOf_append_cons free]
      cases part with
      | nil => exact absurd rfl some
      | cons => rfl
    rw [List.nil_append, replaceFrom.eq_3, notHere, if_neg Bool.false_ne_true]
    rfl
  | cons d s ih =>
    rw [List.length_cons] at inside
    cases skip with
    | succ skip => exact ih (by omega)
    | zero =>
      have same := isPrefixOf_append_cons free (d :: s) t
      rw [List.cons_append] at same
      rw [List.cons_append, replaceFrom, replaceFrom, same]
      by_cases found : part.isPrefixOf (d :: s) = true
      · have fits := (List.isPrefixOf_iff_prefix.1 found).length_le
        rw [List.length_cons] at fits
        rw [if_pos found, if_pos found, ih (by omega), List.append_assoc]
      · rw [if_neg found, if_neg found, ih (Nat.zero_le _), List.cons_append]

theorem replaceAll_append_cons (free : c ∉ part) (some : part ≠ []) (by_ s t : List Char) :
    replaceAll part by_ (s ++ c :: t) = replaceAll part by_ s ++ c :: replaceAll part by_ t :=
  replaceFrom_append_cons free some by_ (Nat.zero_le _) t

end Text

namespace Substitutions

theorem applyEntry_append_newline {e : String × String} (single : '\n' ∉ unescape e.1.toList)
    (s t : List Char) :
    applyEntry (s ++ '\n' :: t) e = applyEntry s e ++ '\n' :: applyEntry t e := by
  simp only [applyEntry]
  split
  · rfl
  · next some =>
    apply Text.replaceAll_append_cons single
    simpa using some

theorem foldl_applyEntry_append_newline {entries : List (String × String)}
    (single : ∀ e ∈ entries, '\n' ∉ unescape e.1.toList) (s t : List Char) :
    entries.foldl applyEntry (s ++ '\n' :: t) =
      entries.foldl applyEntry s ++ '\n' :: entries.foldl applyEntry t := by
  -- each entry meets what the one before has left on either side, line ends or not
  induction entries generalizing s t with
  | nil => rfl
  | cons e entries ih =>
    rw [List.forall_mem_cons] at single
    rw [List.foldl_cons, applyEntry_append_newline single.1, ih single.2]
    rfl

theorem apply_append_newline {table : Substitutions}
    (single : ∀ k ∈ table.keys, '\n' ∉ unescape k.toList) (s t : String) :
    table.apply (s ++ "\n" ++ t) = table.apply s ++ "\n" ++ table.apply t := by
  have each : ∀ e ∈ table.entries, '\n' ∉ unescape e.1.toList := fun e member =>
    single e.1 (List.mem_map_of_mem member)
  rw [apply, String.toList_append, String.toList_append, List.append_assoc]
  rw [show "\n".toList ++ t.toList = '\n' :: t.toList from rfl,
    foldl_applyEntry_append_newline each]
  rw [← String.toList_inj]
  simp [apply]

theorem apply_intercalate {table : Substitutions}
    (single : ∀ k ∈ table.keys, '\n' ∉ unescape k.toList) {statements : List String}
    (some : statements ≠ []) :
    table.apply ("\n".intercalate statements) = "\n".intercalate (statements.map table.apply) := by
  induction statements with
  | nil => exact absurd rfl some
  | cons s statements ih =>
    cases statements with
    | nil => rw [List.map_singleton, String.intercalate_singleton, String.intercalate_singleton]
    | cons s' statements =>
      rw [String.intercalate_cons_cons, apply_append_newline single, ih (List.cons_ne_nil _ _),
        List.map_cons, List.map_cons, List.map_cons, String.intercalate_cons_cons]

end Substitutions

namespace Module

/-- Where no key has a line end in it, the source of a module is what its substitutions make of
    the whole text of its statements, and a line end. -/
theorem javaText_whole (m : Module)
    (single : ∀ k ∈ m.effectiveSubstitutions.keys, '\n' ∉ Substitutions.unescape k.toList) :
    m.javaText = m.effectiveSubstitutions.apply ("\n".intercalate m.plainLines) ++ "\n" := by
  have some : m.plainLines ≠ [] := by simp [plainLines]
  rw [javaText, javaLines, Substitutions.apply_intercalate single some]

/-- A statement on two lines, and a value on two lines in which the next key is found. -/
def stacked : Module where
  identifier := "Main"
  substitutions := .ofList [("A", "B\nB"), ("B", "C")]
  entryScope := ["A(\nA);"]

theorem javaText_whole_stacked :
    stacked.javaText =
        stacked.effectiveSubstitutions.apply ("\n".intercalate stacked.plainLines) ++ "\n" ∧
      stacked.javaLines[2]? = some "C\nC(\nC\nC);" := by
  constructor
  · exact javaText_whole stacked (by decide +kernel)
  · decide +kernel

-- a key with a line end is found in the whole text only
example :
    let m : Module :=
      { identifier := "Main", substitutions := .ofList [("\x7d\n\x7d", "")] }
    m.javaText ≠ m.effectiveSubstitutions.apply ("\n".intercalate m.plainLines) ++ "\n" := by
  decide +kernel

end Module

end ScriptJar

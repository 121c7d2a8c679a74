import ScriptJar.Proofs.Quoting

/-! # Occurrences that are replaced

`Text.replaceAll` goes through a text from the left.  `Text.Cuts` says what it finds without
going through it: the text falls into pieces with the part between them, each occurrence being
the first in what is left after the one before.

A key and a value of a table are stored escaped, and are resolved by two replacements on the
whole text.  These undo the escaping only in their order: the first one leaves every backslash
doubled, since no quote in an escaped text has an even number of backslashes before it.

* `Text.occurrences_induction` — a text by the occurrences of a part;
* `Text.exists_cuts_replaceAll`, `Text.Cuts.unique` — what a replacement does;
* `Substitutions.unescape_escape` — escaping is undone;
* `Substitutions.apply_escaped` — a table of one escaped entry.
-/

namespace ScriptJar

namespace Text

variable {part s : List Char} {pieces : List (List Char)} {c : Char}

/-! ## Going through a text -/

theorem replaceFrom_eq_drop (part by_ : List Char) (skip : Nat) (s : List Char) :
    replaceFrom part by_ skip s = replaceAll part by_ (s.drop skip) := by
  induction s generalizing skip with
  | nil => cases skip <;> rfl
  | cons c s ih =>
    cases skip with
    | zero => rfl
    | succ skip => exact ih skip

theorem replaceAll_append (some : part ≠ []) (by_ rest : List Char) :
    replaceAll part by_ (part ++ rest) = by_ ++ replaceAll part by_ rest := by
  obtain ⟨c, tail, rfl⟩ := List.exists_cons_of_ne_nil some
  have here : (c :: tail).isPrefixOf (c :: (tail ++ rest)) = true :=
    List.isPrefixOf_iff_prefix.2 (List.prefix_append (c :: tail) rest)
  rw [replaceAll, List.cons_append, replaceFrom, if_pos here, replaceFrom_eq_drop]
  simp

theorem replaceAll_cons (other : ¬ part <+: c :: s) (by_ : List Char) :
    replaceAll part by_ (c :: s) = c :: replaceAll part by_ s := by
  rw [← List.isPrefixOf_iff_prefix] at other
  rw [replaceAll, replaceFrom, if_neg other]
  rfl

theorem replaceAll_singleton (c : Char) (by_ s : List Char) :
    replaceAll [c] by_ s = s.flatMap fun d => if d = c then by_ else [d] := by
  induction s with
  | nil => rfl
  | cons d s ih =>
    rw [List.flatMap_cons, ← ih]
    by_cases same : d = c
    · subst same
      rw [if_pos rfl]
      exact replaceAll_append (List.cons_ne_nil d []) by_ s
    · rw [if_neg same, replaceAll_cons (by simp [Ne.symm same])]
      rfl

/-- Either the part stands at the beginning of a text, and the rest comes after it, or the rest
    comes after one character. -/
theorem occurrences_induction (some : part ≠ []) {motive : List Char → Prop} (nil : motive [])
    (found : ∀ rest, motive rest → motive (part ++ rest))
    (other : ∀ c rest, ¬ part <+: c :: rest → motive rest → motive (c :: rest))
    (s : List Char) : motive s := by
  cases s with
  | nil => exact nil
  | cons c s =>
    by_cases here : part <+: c :: s
    · obtain ⟨rest, whole⟩ := here
      have shorter : rest.length < (c :: s).length := by
        rw [← whole, List.length_append]
        have := List.length_pos_of_ne_nil some
        omega
      rw [← whole]
      exact found rest (occurrences_induction some nil found other rest)
    · exact other c s here (occurrences_induction some nil found other s)
termination_by s.length
decreasing_by
  · exact shorter
  · exact Nat.lt_succ_self _

/-! ## The pieces of a text -/

/-- The pieces that are left of a text when a part is taken out of it: first where it first
    occurs, and so on in what comes after. -/
inductive Cuts (part : List Char) : List Char → List (List Char) → Prop where
  | last {s : List Char} : ¬ part <:+: s → Cuts part s [s]
  | found {before rest : List Char} {pieces : List (List Char)} :
      (∀ before' rest', before ++ (part ++ rest) = before' ++ (part ++ rest') →
        before.length ≤ before'.length) →
      Cuts part rest pieces → Cuts part (before ++ (part ++ rest)) (before :: pieces)

theorem intercalate_cons_cons_head (sep : List Char) (c : Char) (piece : List Char)
    (pieces : List (List Char)) :
    sep.intercalate ((c :: piece) :: pieces) = c :: sep.intercalate (piece :: pieces) := by
  cases pieces <;> simp

namespace Cuts

theorem exists_cons (cuts : Cuts part s pieces) : ∃ first others, pieces = first :: others := by
  cases cuts with
  | last => exact ⟨_, _, rfl⟩
  | found => exact ⟨_, _, rfl⟩

/-- The part between the pieces gives the text again. -/
theorem intercalate_eq (cuts : Cuts part s pieces) : part.intercalate pieces = s := by
  induction cuts with
  | last => simp
  | found least cuts ih =>
    obtain ⟨first, others, rfl⟩ := cuts.exists_cons
    rw [List.intercalate_cons_cons, ih, List.append_assoc]

theorem append (cuts : Cuts part s pieces) : Cuts part (part ++ s) ([] :: pieces) := by
  rw [← List.nil_append (part ++ s)]
  exact .found (fun _ _ _ => Nat.zero_le _) cuts

theorem cons_char {piece : List Char} (cuts : Cuts part s (piece :: pieces))
    (other : ¬ part <+: c :: s) : Cuts part (c :: s) ((c :: piece) :: pieces) := by
  cases cuts with
  | last absent =>
    apply Cuts.last
    rw [List.infix_cons_iff, not_or]
    exact ⟨other, absent⟩
  | @found _ rest _ least cuts =>
    rw [← List.cons_append]
    refine .found (fun before' rest' same => ?_) cuts
    cases before' with
    | nil =>
      rw [List.cons_append] at same
      exact absurd ⟨rest', same.symm⟩ other
    | cons d before' =>
      obtain ⟨-, later⟩ := List.cons.inj same
      exact Nat.succ_le_succ (least before' rest' later)

theorem unique {pieces' : List (List Char)} (cuts : Cuts part s pieces)
    (cuts' : Cuts part s pieces') : pieces' = pieces := by
  induction cuts generalizing pieces' with
  | last absent =>
    cases cuts' with
    | last => rfl
    | @found before rest => exact absurd ⟨before, rest, List.append_assoc _ _ _⟩ absent
  | @found before rest pieces least _ ih =>
    generalize whole : before ++ (part ++ rest) = s at cuts'
    cases cuts' with
    | last absent =>
      rw [← whole] at absent
      exact absurd ⟨before, rest, List.append_assoc _ _ _⟩ absent
    | @found before' rest' pieces' least' cuts' =>
      -- each of the two is the first occurrence, so they are the same
      have lengths : before.length = before'.length :=
        Nat.le_antisymm (least before' rest' whole) (least' before rest whole.symm)
      obtain ⟨rfl, rests⟩ := List.append_inj whole lengths
      obtain rfl := List.append_cancel_left rests
      rw [ih cuts']

end Cuts

/-- A replacement puts its text between the pieces. -/
theorem exists_cuts_replaceAll (some : part ≠ []) (by_ s : List Char) :
    ∃ pieces, Cuts part s pieces ∧ replaceAll part by_ s = by_.intercalate pieces := by
  induction s using occurrences_induction some with
  | nil =>
    refine ⟨[[]], .last ?_, rfl⟩
    rwa [List.infix_nil]
  | found rest ih =>
    obtain ⟨pieces, cuts, replaced⟩ := ih
    obtain ⟨first, others, rfl⟩ := cuts.exists_cons
    refine ⟨[] :: first :: others, cuts.append, ?_⟩
    rw [replaceAll_append some, replaced, List.intercalate_cons_cons, List.nil_append]
  | other c rest other ih =>
    obtain ⟨pieces, cuts, replaced⟩ := ih
    obtain ⟨first, others, rfl⟩ := cuts.exists_cons
    refine ⟨(c :: first) :: others, cuts.cons_char other, ?_⟩
    rw [replaceAll_cons other, replaced, intercalate_cons_cons_head]

end Text

namespace Substitutions

open Text

/-! ## Resolving escapes -/

/-- A text with every backslash doubled. -/
def doubled (s : List Char) : List Char :=
  s.flatMap fun c => if c = '\\' then ['\\', '\\'] else [c]

/-- A quote is always escaped. -/
theorem head?_escape (s : List Char) : (escape s).head? ≠ some '"' := by
  cases s with
  | nil => simp [escape]
  | cons c s =>
    rw [escape]
    split
    · simp
    · next bare => simpa using fun quote => bare (.inr quote)

theorem replaceAll_quotes_escape (s : List Char) :
    replaceAll ['\\', '"'] ['"'] (escape s) = doubled s := by
  induction s with
  | nil => rfl
  | cons c s ih =>
    rw [escape, doubled, List.flatMap_cons]
    by_cases backslash : c = '\\'
    · -- neither backslash of the pair is one that a quote follows
      subst backslash
      have next : ¬ ['\\', '"'] <+: '\\' :: escape s := by
        rw [List.prefix_cons_inj, List.singleton_prefix_iff_head?_eq_some]
        exact head?_escape s
      rw [if_pos (.inl rfl), if_pos rfl, replaceAll_cons (by simp), replaceAll_cons next, ih]
      rfl
    · by_cases quote : c = '"'
      · subst quote
        rw [if_pos (.inr rfl), if_neg (by decide)]
        exact (replaceAll_append (by simp) ['"'] (escape s)).trans (by rw [ih]; rfl)
      · rw [if_neg (by simp [backslash, quote]), if_neg backslash, replaceAll_cons, ih]
        · rfl
        · simp [Ne.symm backslash]

theorem replaceAll_backslashes_doubled (s : List Char) :
    replaceAll ['\\', '\\'] ['\\'] (doubled s) = s := by
  induction s with
  | nil => rfl
  | cons c s ih =>
    rw [doubled, List.flatMap_cons]
    by_cases backslash : c = '\\'
    · subst backslash
      rw [if_pos rfl, replaceAll_append (by simp)]
      exact congrArg ('\\' :: ·) ih
    · rw [if_neg backslash, List.singleton_append, replaceAll_cons]
      · exact congrArg (c :: ·) ih
      · simp [Ne.symm backslash]

theorem unescape_escape (s : List Char) : unescape (escape s) = s := by
  rw [unescape, replaceAll_quotes_escape, replaceAll_backslashes_doubled]

/-! ## A table of one entry -/

theorem apply_escape {key : String} (some : key ≠ "") (value line : String) :
    (ofList [(String.ofList (escape key.toList), String.ofList (escape value.toList))]).apply line =
      replaceAllIn key value line := by
  have nonempty : key.toList.isEmpty = false := by simpa using some
  simp only [ofList, List.foldl_cons, List.foldl_nil, apply, insert, setEntry, applyEntry,
    String.toList_ofList, unescape_escape, nonempty]
  rfl

/-- Escaping is undone, and a table whose only entry is an escaped key with an escaped value
    puts the value for the key wherever it occurs in a line, from the left and without overlap. -/
theorem apply_escaped :
    (∀ s, unescape (escape s) = s) ∧
      ∀ key value line : String, key ≠ "" →
        ∃ pieces, (∀ pieces', Cuts key.toList line.toList pieces' ↔ pieces' = pieces) ∧
          line.toList = key.toList.intercalate pieces ∧
          ((ofList [(String.ofList (escape key.toList), String.ofList (escape value.toList))]).apply
            line).toList = value.toList.intercalate pieces := by
  refine ⟨unescape_escape, fun key value line some => ?_⟩
  have nonempty : key.toList ≠ [] := by simpa using some
  obtain ⟨pieces, cuts, replaced⟩ := exists_cuts_replaceAll nonempty value.toList line.toList
  refine ⟨pieces, fun pieces' => ⟨cuts.unique, ?_⟩, cuts.intercalate_eq.symm, ?_⟩
  · rintro rfl
    exact cuts
  · rw [apply_escape some, replaceAllIn, String.toList_ofList, replaced]

/-- The key overlaps with itself, and the value is the end of an escape. -/
theorem apply_escaped_entangled :
    (ofList [("\\\"\\\\\\\"", "\\\\")]).apply "\"\\\"\\\"\\\"x" = "\\\\\\x" ∧
      Cuts "\"\\\"".toList "\"\\\"\\\"\\\"x".toList [[], ['\\'], ['x']] := by
  have last : Cuts "\"\\\"".toList ['x'] [['x']] := .last (by decide)
  have second : Cuts "\"\\\"".toList "\\\"\\\"x".toList [['\\'], ['x']] :=
    last.append.cons_char (by decide)
  obtain ⟨pieces, only, -, replaced⟩ :=
    apply_escaped.2 "\"\\\"" "\\" "\"\\\"\\\"\\\"x" (by decide)
  rw [← (only _).1 second.append] at replaced
  exact ⟨String.toList_inj.1 replaced, second.append⟩

end Substitutions

end ScriptJar

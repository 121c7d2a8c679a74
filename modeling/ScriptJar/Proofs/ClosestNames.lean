import Mathlib.Data.List.Sort
import Mathlib.Data.Prod.Lex
import Mathlib.Data.String.Basic
import ScriptJar.Suggestion

/-! # The closest names

A directory is listed in no particular order, and the same class may be in several
libraries.  Suggestions show nothing of that: they are the first three names in an order
that ranks names by what they are, `Suggestion.rank`.  Names of one rank are equal, so
dropping repetitions of neighbours is enough to leave each name once.

* `mem_eraseReps`, `pairwise_eraseReps` — a sorted list without repetitions of neighbours;
* `Suggestion.ranked_unique` — there is one way to put names into order;
* `Suggestion.suggestBy_closest` — which names are suggested.
-/

namespace ScriptJar

/-! ## Repetitions of neighbours -/

section Repetitions

variable {α β : Type} [DecidableEq α]

theorem eraseReps_loop (a : α) (l acc : List α) :
    List.eraseRepsBy.loop (· == ·) a l acc = acc.reverse ++ (a :: l).eraseReps := by
  induction l generalizing a acc with
  | nil => exact List.reverse_cons
  | cons b l ih =>
    -- the accumulator holds what was passed, the last one first
    show cond (a == b) (List.eraseRepsBy.loop (· == ·) a l acc)
        (List.eraseRepsBy.loop (· == ·) b l (a :: acc)) =
      acc.reverse ++ cond (a == b) (List.eraseRepsBy.loop (· == ·) a l [])
        (List.eraseRepsBy.loop (· == ·) b l [a])
    cases a == b <;> simp [ih]

theorem eraseReps_cons_cons (a b : α) (l : List α) :
    (a :: b :: l).eraseReps =
      if a = b then (b :: l).eraseReps else a :: (b :: l).eraseReps := by
  have step : (a :: b :: l).eraseReps = cond (a == b) (List.eraseRepsBy.loop (· == ·) a l [])
      (List.eraseRepsBy.loop (· == ·) b l [a]) := rfl
  rw [step, eraseReps_loop, eraseReps_loop]
  by_cases same : a = b
  · simp [same]
  · simp [same, beq_eq_false_iff_ne.2 same]

theorem mem_eraseReps {x : α} {l : List α} : x ∈ l.eraseReps ↔ x ∈ l := by
  induction l with
  | nil => exact .rfl
  | cons a l ih =>
    cases l with
    | nil => exact .rfl
    | cons b l =>
      rw [eraseReps_cons_cons, List.mem_cons, ← ih]
      split
      · next same =>
        subst same
        rw [ih, List.mem_cons]
        tauto
      · exact List.mem_cons

/-- If equal neighbours are the only ones of one rank, what is left goes up strictly. -/
theorem pairwise_eraseReps [PartialOrder β] {rank : α → β} (injective : Function.Injective rank)
    {l : List α} (sorted : l.Pairwise (rank · ≤ rank ·)) :
    l.eraseReps.Pairwise (rank · < rank ·) := by
  induction l with
  | nil => exact .nil
  | cons a l ih =>
    cases l with
    | nil => exact List.pairwise_singleton _ a
    | cons b l =>
      obtain ⟨first, rest⟩ := List.pairwise_cons.1 sorted
      rw [eraseReps_cons_cons]
      split
      · exact ih rest
      · next differ =>
        refine List.pairwise_cons.2 ⟨fun x member => ?_, ih rest⟩
        have less : rank a < rank b :=
          lt_of_le_of_ne (first b List.mem_cons_self) (injective.ne differ)
        rcases List.mem_cons.1 (mem_eraseReps.1 member) with rfl | later
        · exact less
        · exact less.trans_le ((List.pairwise_cons.1 rest).1 x later)

end Repetitions

namespace Suggestion

variable {measure : Measure} {needle name : String} {names names' : List String}

/-! ## The order of names -/

/-- What names are ordered by: the distance, the length in bytes, and the name itself. -/
def Scored.rank (s : Scored) : ℕ ×ₗ ℕ ×ₗ String :=
  toLex (s.distance, toLex (s.name.utf8ByteSize, s.name))

theorem Scored.le_iff (a b : Scored) : a.le b = true ↔ a.rank ≤ b.rank := by
  simp only [Scored.le, Scored.rank, Prod.Lex.toLex_le_toLex]
  by_cases distances : a.distance = b.distance
  · by_cases sizes : a.name.utf8ByteSize = b.name.utf8ByteSize
    · simp [distances, sizes]
    · simp [distances, sizes]
  · simp [distances]

/-- A name with its distance from the needle. -/
def score (measure : Measure) (needle name : String) : Scored :=
  ⟨distance measure needle name, name⟩

/-- The rank of a name among those that may be meant by a needle. -/
def rank (measure : Measure) (needle name : String) : ℕ ×ₗ ℕ ×ₗ String :=
  (score measure needle name).rank

theorem rank_injective (measure : Measure) (needle : String) :
    Function.Injective (rank measure needle) := by
  intro a b same
  exact congrArg (fun r : ℕ ×ₗ ℕ ×ₗ String => (ofLex (ofLex r).2).2) same

/-- A name that may be suggested: not empty, not the needle, and within the limit. -/
structure IsClose (measure : Measure) (needle name : String) : Prop where
  named : name ≠ ""
  other : name ≠ needle
  near : distance measure needle name ≤ limit needle

instance (measure : Measure) (needle name : String) : Decidable (IsClose measure needle name) :=
  decidable_of_iff (name ≠ "" ∧ name ≠ needle ∧ distance measure needle name ≤ limit needle)
    ⟨fun h => ⟨h.1, h.2.1, h.2.2⟩, fun h => ⟨h.named, h.other, h.near⟩⟩

theorem mem_close {s : Scored} :
    s ∈ close measure needle names ↔
      ∃ n ∈ names, IsClose measure needle n ∧ s = score measure needle n := by
  simp only [close, List.mem_filter, List.mem_map, decide_eq_true_eq]
  constructor
  · rintro ⟨⟨n, ⟨member, named, other⟩, rfl⟩, near⟩
    exact ⟨n, member, ⟨named, other, near⟩, rfl⟩
  · rintro ⟨n, member, fits, rfl⟩
    exact ⟨⟨n, ⟨member, fits.named, fits.other⟩, rfl⟩, fits.near⟩

/-- All names that may be suggested, in order and each once. -/
def ranked (measure : Measure) (needle : String) (names : List String) : List String :=
  (((close measure needle names).mergeSort Scored.le).map Scored.name).eraseReps

theorem mem_ranked :
    name ∈ ranked measure needle names ↔ name ∈ names ∧ IsClose measure needle name := by
  rw [ranked, mem_eraseReps, List.mem_map]
  simp only [List.mem_mergeSort, mem_close]
  constructor
  · rintro ⟨_, ⟨n, member, fits, rfl⟩, rfl⟩
    exact ⟨member, fits⟩
  · rintro ⟨member, fits⟩
    exact ⟨_, ⟨name, member, fits, rfl⟩, rfl⟩

theorem pairwise_ranked (measure : Measure) (needle : String) (names : List String) :
    (ranked measure needle names).Pairwise
      (rank measure needle · < rank measure needle ·) := by
  apply pairwise_eraseReps (rank_injective measure needle)
  have sorted : ((close measure needle names).mergeSort Scored.le).Pairwise (·.le ·) := by
    refine List.pairwise_mergeSort (fun a b c first second => ?_) (fun a b => ?_) _
    · rw [Scored.le_iff] at first second ⊢
      exact first.trans second
    · simpa only [Bool.or_eq_true, Scored.le_iff] using le_total a.rank b.rank
  -- every score is that of its name
  have scored (s : Scored) (member : s ∈ (close measure needle names).mergeSort Scored.le) :
      rank measure needle s.name = s.rank := by
    obtain ⟨n, -, -, rfl⟩ := mem_close.1 (List.mem_mergeSort.1 member)
    rfl
  rw [List.pairwise_map]
  refine sorted.imp_of_mem fun {a b} first second le => ?_
  rw [scored a first, scored b second]
  exact (Scored.le_iff a b).1 le

/-- There is one way to put the close names into order. -/
theorem ranked_unique {all : List String}
    (sorted : all.Pairwise (rank measure needle · < rank measure needle ·))
    (complete : ∀ n, n ∈ all ↔ n ∈ names ∧ IsClose measure needle n) :
    ranked measure needle names = all := by
  have irrefl : Std.Irrefl (rank measure needle · < rank measure needle ·) :=
    ⟨fun a => lt_irrefl _⟩
  have antisymm : Std.Antisymm (rank measure needle · < rank measure needle ·) :=
    ⟨fun a b lt gt => absurd gt lt.asymm⟩
  refine (pairwise_ranked measure needle names).eq_of_mem_iff sorted fun n => ?_
  rw [mem_ranked, complete]

theorem ranked_congr (same : ∀ n, n ∈ names ↔ n ∈ names') :
    ranked measure needle names = ranked measure needle names' := by
  refine ranked_unique (pairwise_ranked measure needle names') fun n => ?_
  rw [mem_ranked, same]

/-! ## Suggestions -/

theorem suggestBy_eq (measure : Measure) (needle : String) (names : List String) :
    suggestBy measure needle names =
      if Text.trimmed needle = "" then []
      else (ranked measure (Text.trimmed needle) names).take 3 :=
  rfl

theorem suggestBy_sublist (measure : Measure) (needle : String) (names : List String) :
    (suggestBy measure needle names).Sublist (ranked measure (Text.trimmed needle) names) := by
  rw [suggestBy_eq]
  split
  · exact List.nil_sublist _
  · exact List.take_sublist 3 _

/-- What is left out of the first three comes after all of them. -/
theorem rank_lt_of_left_out (solid : Text.trimmed needle ≠ "") (member : name ∈ names)
    (fits : IsClose measure (Text.trimmed needle) name)
    (leftOut : name ∉ suggestBy measure needle names) :
    (suggestBy measure needle names).length = 3 ∧
      ∀ f ∈ suggestBy measure needle names,
        rank measure (Text.trimmed needle) f < rank measure (Text.trimmed needle) name := by
  rw [suggestBy_eq, if_neg solid] at leftOut ⊢
  have sorted := pairwise_ranked measure (Text.trimmed needle) names
  have inside : name ∈ ranked measure (Text.trimmed needle) names := mem_ranked.2 ⟨member, fits⟩
  generalize ranked measure (Text.trimmed needle) names = all at leftOut sorted inside ⊢
  have later : name ∈ all.drop 3 := by
    rw [← List.take_append_drop 3 all, List.mem_append] at inside
    exact inside.resolve_left leftOut
  constructor
  · have some := List.length_pos_of_mem later
    rw [List.length_drop] at some
    rw [List.length_take]
    omega
  · rw [← List.take_append_drop 3 all, List.pairwise_append] at sorted
    exact fun f first => sorted.2.2 f first name later

/-- The suggestions for a needle depend on which names there are, not on their order or on
    how often they occur.  There are at most three of them; each is one of the names, is close
    to the needle, and their ranks go up.  For a needle that is not blank, a close name is left
    out only for three that come before it; for a blank one nothing is suggested. -/
theorem suggestBy_closest (measure : Measure) (needle : String) :
    (∀ names names' : List String, (∀ n, n ∈ names ↔ n ∈ names') →
      suggestBy measure needle names = suggestBy measure needle names') ∧
    ∀ names : List String,
      (suggestBy measure needle names).length ≤ 3 ∧
      (suggestBy measure needle names).Pairwise
        (rank measure (Text.trimmed needle) · < rank measure (Text.trimmed needle) ·) ∧
      (∀ n ∈ suggestBy measure needle names,
        n ∈ names ∧ IsClose measure (Text.trimmed needle) n) ∧
      (Text.trimmed needle = "" → suggestBy measure needle names = []) ∧
      (Text.trimmed needle ≠ "" → ∀ n ∈ names, IsClose measure (Text.trimmed needle) n →
        n ∉ suggestBy measure needle names →
        (suggestBy measure needle names).length = 3 ∧
          ∀ f ∈ suggestBy measure needle names,
            rank measure (Text.trimmed needle) f < rank measure (Text.trimmed needle) n) := by
  refine ⟨fun names names' same => ?_,
    fun names => ⟨?_, ?_, fun n member => ?_, fun blank => ?_, ?_⟩⟩
  · rw [suggestBy_eq, suggestBy_eq, ranked_congr same]
  · rw [suggestBy_eq]
    split
    · exact Nat.zero_le 3
    · exact List.length_take_le 3 _
  · exact (pairwise_ranked _ _ _).sublist (suggestBy_sublist measure needle names)
  · exact mem_ranked.1 ((suggestBy_sublist measure needle names).mem member)
  · rw [suggestBy_eq, if_pos blank]
  · exact fun solid n member fits leftOut => rank_lt_of_left_out solid member fits leftOut

/-- Names around `Cat`, one of them twice. -/
def namesAroundCat : List String :=
  ["hat", "coat", "bat", "Cut", "car", "bat"]

/-- Four names and `coat` are one edit away; `hat` is the last of the short ones and `coat` is
    longer, so both give way. -/
theorem suggestBy_closest_crowded :
    suggest " Cat " namesAroundCat = ["Cut", "bat", "car"] ∧
    suggest " Cat " namesAroundCat.reverse = ["Cut", "bat", "car"] ∧
    (∀ f ∈ suggest " Cat " namesAroundCat,
      rank Text.editDistance "Cat" f < rank Text.editDistance "Cat" "hat") ∧
    suggest "\t" ["a"] = [] := by
  have trims : Text.trimmed " Cat " = "Cat" := by decide
  have order : ranked Text.editDistance "Cat" namesAroundCat =
      ["Cut", "bat", "car", "hat", "coat"] := by
    have close : ∀ n ∈ namesAroundCat, IsClose Text.editDistance "Cat" n := by decide +kernel
    refine ranked_unique (by decide +kernel) fun n => ⟨fun member => ?_, fun both => ?_⟩
    · have listed : n ∈ namesAroundCat := by revert n; decide
      exact ⟨listed, close n listed⟩
    · obtain ⟨member, -⟩ := both
      revert n
      decide
  have names : suggest " Cat " namesAroundCat = ["Cut", "bat", "car"] := by
    rw [suggest, suggestBy_eq, trims, order]
    rfl
  have fits : IsClose Text.editDistance "Cat" "hat" := by decide +kernel
  obtain ⟨same, closest⟩ := suggestBy_closest Text.editDistance " Cat "
  obtain ⟨-, -, -, -, first⟩ := closest namesAroundCat
  rw [trims] at first
  refine ⟨names, (same _ _ fun n => List.mem_reverse).trans names, ?_, ?_⟩
  · refine (first (by decide) "hat" (by decide) fits ?_).2
    rw [← suggest, names]
    decide
  · exact ((suggestBy_closest Text.editDistance "\t").2 ["a"]).2.2.2.1 (by decide)

/-- For a blank needle nothing is suggested, though a name of one letter is close to it. -/
theorem suggest_blank_needle :
    "a" ∈ ["a"] ∧ IsClose Text.editDistance (Text.trimmed "") "a" ∧ "a" ∉ suggest "" ["a"] ∧
      (suggest "" ["a"]).length ≠ 3 := by
  decide +kernel

end Suggestion

end ScriptJar

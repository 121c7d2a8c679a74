import Mathlib.Data.List.Forall2
import Mathlib.Data.Prod.Lex
import ScriptJar.Library.Resolve
import ScriptJar.Proofs.TextFacts

/-! # The order of candidates

The entries of the admitted libraries stand at places: the position of the library, then
that of the entry.  A name may be offered at several places, by one library or by several;
the candidate takes its position and its library from the first of them.

* `Admitted` — what a hint asks of a library;
* `OfferedAt`, `FirstAt` — the places of a name, and the first of them;
* `exists_firsts` — what is kept of offers in the order of their places;
* `resolve_candidates` — the candidates of a request.
-/

namespace ScriptJar.Library

/-! ## Admitted libraries -/

/-- What a hint asks of a library: the runtime library is known by its whole path, others by
    their file name. -/
def Admitted : Option String → Library → Prop
  | none, _ => True
  | some hint, l =>
    if l.runtime = true then hint.toList <:+: l.path.text.toList
    else ∃ name, l.path.fileName? = some name ∧ hint.toList <:+: name.toList

theorem admitted_some {hint : String} {l : Library} :
    Admitted (some hint) l ↔ admits hint l = true := by
  unfold admits Admitted
  by_cases runtime : l.runtime = true
  · simp only [runtime, if_true, Text.occursIn_iff]
  · simp only [runtime, if_false, Bool.false_eq_true]
    cases l.path.fileName? <;> simp [Text.occursIn_iff]

instance : ∀ (hint : Option String) (l : Library), Decidable (Admitted hint l)
  | none, _ => .isTrue trivial
  | some _, _ => decidable_of_iff _ admitted_some.symm

theorem admitted_eq_filter (libraries : List Library) (hint : Option String) :
    admitted libraries hint = libraries.filter (Admitted hint ·) := by
  cases hint with
  | none => exact (List.filter_true libraries).symm
  | some hint => simp [admitted, admitted_some]

/-! ## The first of each name -/

theorem mem_names_firstOfName {name : String} (seen : List String) (cs : List Candidate) :
    name ∈ (firstOfName seen cs).map Candidate.name ↔
      name ∈ cs.map Candidate.name ∧ name ∉ seen := by
  fun_induction firstOfName seen cs with
  | case1 => simp
  | case2 seen c rest old ih =>
    rw [ih, List.map_cons, List.mem_cons]
    constructor
    · exact fun h => ⟨.inr h.1, h.2⟩
    · rintro ⟨rfl | later, new⟩
      · exact absurd old new
      · exact ⟨later, new⟩
  | case3 seen c rest new ih =>
    rw [List.map_cons, List.mem_cons, ih, List.map_cons, List.mem_cons, List.mem_cons, not_or]
    constructor
    · rintro (rfl | ⟨later, -, new⟩)
      · exact ⟨.inl rfl, new⟩
      · exact ⟨.inr later, new⟩
    · rintro ⟨same | later, new⟩
      · exact .inl same
      · by_cases same : name = c.name
        · exact .inl same
        · exact .inr ⟨later, same, new⟩

theorem nodup_names_firstOfName (seen : List String) (cs : List Candidate) :
    ((firstOfName seen cs).map Candidate.name).Nodup := by
  fun_induction firstOfName seen cs with
  | case1 => exact List.nodup_nil
  | case2 seen c rest old ih => exact ih
  | case3 seen c rest new ih =>
    rw [List.map_cons, List.nodup_cons]
    refine ⟨fun again => ?_, ih⟩
    exact ((mem_names_firstOfName _ rest).1 again).2 List.mem_cons_self

theorem firstOfName_isPrefix_append (seen : List String) (cs more : List Candidate) :
    firstOfName seen cs <+: firstOfName seen (cs ++ more) := by
  fun_induction firstOfName seen cs with
  | case1 => exact List.nil_prefix
  | case2 seen c rest old ih =>
    rw [List.cons_append, firstOfName, if_pos old]
    exact ih
  | case3 seen c rest new ih =>
    rw [List.cons_append, firstOfName, if_neg new, List.prefix_cons_inj]
    exact ih

/-! ## Places -/

/-- A candidate that is offered at a place: the position of the library, then that of the
    entry in it. -/
structure Offer where
  place : ℕ ×ₗ ℕ
  candidate : Candidate

/-- Whether an entry of an admitted library gives a candidate at a place. -/
def OfferedAt (libraries : List Library) (p : Pattern) (hint : Option String) (c : Candidate)
    (place : ℕ ×ₗ ℕ) : Prop :=
  ∃ l e, libraries[(ofLex place).1]? = some l ∧ l.entries[(ofLex place).2]? = some e ∧
    Admitted hint l ∧ p.match? e = some c.name ∧ c.library = l.path

/-- What a library at position `i` offers, with the places. -/
def placedEntries (p : Pattern) (l : Library) (i : ℕ) : List Offer :=
  l.entries.zipIdx.filterMap fun e =>
    (p.match? e.1).map fun name => ⟨toLex (i, e.2), name, l.path⟩

def placedOffers (libraries : List Library) (p : Pattern) (hint : Option String) : List Offer :=
  (libraries.zipIdx.filter fun l => Admitted hint l.1).flatMap fun l => placedEntries p l.1 l.2

variable {libraries : List Library} {p : Pattern} {hint : Option String}

theorem mem_placedEntries {l : Library} {i : ℕ} {o : Offer} :
    o ∈ placedEntries p l i ↔ ∃ e j, l.entries[j]? = some e ∧
      p.match? e = some o.candidate.name ∧ o.place = toLex (i, j) ∧
      o.candidate.library = l.path := by
  obtain ⟨place, name, library⟩ := o
  simp only [placedEntries, List.mem_filterMap, Option.map_eq_some_iff, Offer.mk.injEq,
    Candidate.mk.injEq]
  constructor
  · rintro ⟨e, member, name, found, rfl, rfl, rfl⟩
    exact ⟨e.1, e.2, List.mem_zipIdx_iff_getElem?.1 member, found, rfl, rfl⟩
  · rintro ⟨e, j, member, found, rfl, rfl⟩
    exact ⟨(e, j), List.mem_zipIdx_iff_getElem?.2 member, name, found, rfl, rfl, rfl⟩

theorem mem_placedOffers {o : Offer} :
    o ∈ placedOffers libraries p hint ↔ OfferedAt libraries p hint o.candidate o.place := by
  simp only [placedOffers, List.mem_flatMap, List.mem_filter, mem_placedEntries,
    decide_eq_true_eq]
  constructor
  · rintro ⟨l, ⟨member, admitted⟩, e, j, entry, found, place, library⟩
    refine ⟨l.1, e, ?_, ?_, admitted, found, library⟩
    · rw [place]
      exact List.mem_zipIdx_iff_getElem?.1 member
    · rw [place]
      exact entry
  · rintro ⟨l, e, member, entry, admitted, found, library⟩
    exact ⟨(l, (ofLex o.place).1), ⟨List.mem_zipIdx_iff_getElem?.2 member, admitted⟩, e,
      (ofLex o.place).2, entry, found, rfl, library⟩

theorem pairwise_zipIdx {α : Type} (xs : List α) : xs.zipIdx.Pairwise (·.2 < ·.2) := by
  rw [← List.pairwise_map, List.zipIdx_map_snd]
  exact List.pairwise_lt_range'

theorem pairwise_placedOffers (libraries : List Library) (p : Pattern) (hint : Option String) :
    (placedOffers libraries p hint).Pairwise (·.place < ·.place) := by
  rw [placedOffers, List.pairwise_flatMap]
  constructor
  · intro l _
    rw [placedEntries, List.pairwise_filterMap]
    refine (pairwise_zipIdx l.1.entries).imp ?_
    intro e e' lt o found o' found'
    obtain ⟨name, -, rfl⟩ := Option.map_eq_some_iff.1 found
    obtain ⟨name', -, rfl⟩ := Option.map_eq_some_iff.1 found'
    exact Prod.Lex.toLex_lt_toLex.2 (.inr ⟨rfl, lt⟩)
  · refine ((pairwise_zipIdx libraries).filter _).imp ?_
    intro l l' lt o member o' member'
    obtain ⟨_, _, -, -, place, -⟩ := mem_placedEntries.1 member
    obtain ⟨_, _, -, -, place', -⟩ := mem_placedEntries.1 member'
    rw [place, place']
    exact Prod.Lex.toLex_lt_toLex.2 (.inl lt)

theorem map_candidate_placedEntries (l : Library) (i : ℕ) :
    (placedEntries p l i).map Offer.candidate = offers p l := by
  have entries : l.entries = l.entries.zipIdx.map Prod.fst := (List.zipIdx_map_fst 0 _).symm
  rw [offers, placedEntries, List.map_filterMap]
  conv => rhs; rw [entries]
  rw [List.filterMap_map, List.map_filterMap]
  simp only [Option.map_map]
  rfl

theorem map_candidate_placedOffers :
    (placedOffers libraries p hint).map Offer.candidate =
      (admitted libraries hint).flatMap (offers p) := by
  have places : libraries = libraries.zipIdx.map Prod.fst := (List.zipIdx_map_fst 0 _).symm
  rw [placedOffers, List.map_flatMap, admitted_eq_filter]
  conv => rhs; rw [places, List.filter_map, List.flatMap_map]
  simp only [map_candidate_placedEntries]
  rfl

/-- The offers that are kept are, for each new name, the one at the first place. -/
theorem exists_firsts {os : List Offer} (ordered : os.Pairwise (·.place < ·.place))
    (seen : List String) :
    ∃ firsts : List Offer, firsts.Sublist os ∧
      firsts.map Offer.candidate = firstOfName seen (os.map Offer.candidate) ∧
      ∀ first ∈ firsts, ∀ o ∈ os, o.candidate.name = first.candidate.name →
        first.place ≤ o.place := by
  induction os generalizing seen with
  | nil => exact ⟨[], .slnil, rfl, by simp⟩
  | cons o os ih =>
    rw [List.pairwise_cons] at ordered
    -- a name that has been seen is not offered again
    have new {seen : List String} {firsts : List Offer} {first : Offer}
        (same : firsts.map Offer.candidate = firstOfName seen (os.map Offer.candidate))
        (member : first ∈ firsts) : first.candidate.name ∉ seen := by
      have name : first.candidate.name ∈
          (firstOfName seen (os.map Offer.candidate)).map Candidate.name := by
        rw [← same]
        exact List.mem_map_of_mem (List.mem_map_of_mem member)
      exact ((mem_names_firstOfName seen _).1 name).2
    rw [List.map_cons, firstOfName]
    by_cases old : o.candidate.name ∈ seen
    · obtain ⟨firsts, sublist, same, least⟩ := ih ordered.2 seen
      refine ⟨firsts, sublist.cons o, by rw [same, if_pos old], fun first member => ?_⟩
      rw [List.forall_mem_cons]
      refine ⟨fun name => ?_, least first member⟩
      exact absurd (name ▸ old) (new same member)
    · obtain ⟨firsts, sublist, same, least⟩ := ih ordered.2 (o.candidate.name :: seen)
      refine ⟨o :: firsts, sublist.cons_cons o, by rw [List.map_cons, same, if_neg old], ?_⟩
      rw [List.forall_mem_cons]
      constructor
      · rw [List.forall_mem_cons]
        exact ⟨fun _ => le_rfl, fun later member _ => (ordered.1 later member).le⟩
      · intro first member
        rw [List.forall_mem_cons]
        refine ⟨fun name => ?_, least first member⟩
        exact absurd (name ▸ List.mem_cons_self) (new same member)

/-! ## Candidates -/

/-- The place at which a name is offered first, with the candidate's own library there. -/
def FirstAt (libraries : List Library) (p : Pattern) (hint : Option String) (c : Candidate)
    (place : ℕ ×ₗ ℕ) : Prop :=
  OfferedAt libraries p hint c place ∧
    ∀ c' q, OfferedAt libraries p hint c' q → c'.name = c.name → place ≤ q

theorem exists_places (libraries : List Library) (requested : String) (hint : Option String) :
    ∃ places : List (ℕ ×ₗ ℕ), places.Pairwise (· < ·) ∧
      List.Forall₂ (FirstAt libraries (Pattern.ofRequest requested) hint)
        (candidates libraries requested hint) places := by
  have ordered := pairwise_placedOffers libraries (Pattern.ofRequest requested) hint
  obtain ⟨firsts, sublist, same, least⟩ := exists_firsts ordered []
  refine ⟨firsts.map Offer.place, ?_, ?_⟩
  · rw [List.pairwise_map]
    exact ordered.sublist sublist
  · rw [candidates, ← map_candidate_placedOffers, ← same, List.forall₂_map_left_iff,
      List.forall₂_map_right_iff, List.forall₂_same]
    intro first member
    have here := mem_placedOffers.1 (sublist.subset member)
    refine ⟨here, fun c q offered name => ?_⟩
    exact least first member ⟨q, c⟩ (mem_placedOffers.2 offered) name

theorem mem_names_candidates {requested name : String} :
    name ∈ (candidates libraries requested hint).map Candidate.name ↔
      ∃ l ∈ libraries, Admitted hint l ∧
        ∃ e ∈ l.entries, (Pattern.ofRequest requested).match? e = some name := by
  rw [candidates, mem_names_firstOfName, admitted_eq_filter]
  simp only [offers, List.map_flatMap, List.map_map, List.mem_flatMap, List.mem_filter,
    decide_eq_true_eq, List.mem_map, List.mem_filterMap, Function.comp_def]
  constructor
  · rintro ⟨⟨l, ⟨member, admitted⟩, _, ⟨e, entry, found⟩, rfl⟩, -⟩
    exact ⟨l, member, admitted, e, entry, found⟩
  · rintro ⟨l, member, admitted, e, entry, found⟩
    exact ⟨⟨l, ⟨member, admitted⟩, name, ⟨e, entry, found⟩, rfl⟩, List.not_mem_nil⟩

/-- A request is resolved to the first offers of the admitted libraries: each name once, in the
    order of the places where the names are first offered, and with the library there.
    Further libraries only add candidates at the end. -/
theorem resolve_candidates (libraries : List Library) (requested : String)
    (hint : Option String) :
    let r := (resolve libraries requested hint).1
    r.raw = requested ∧ r.hint = hint ∧ r.selected = 0 ∧
      (r.candidates.map Candidate.name).Nodup ∧
      (∀ name, name ∈ r.candidates.map Candidate.name ↔
        ∃ l ∈ libraries, Admitted hint l ∧
          ∃ e ∈ l.entries, (Pattern.ofRequest requested).match? e = some name) ∧
      (∃ places : List (ℕ ×ₗ ℕ), places.Pairwise (· < ·) ∧
        List.Forall₂ (FirstAt libraries (Pattern.ofRequest requested) hint) r.candidates places) ∧
      ∀ more, r.candidates <+: (resolve (libraries ++ more) requested hint).1.candidates := by
  refine ⟨rfl, rfl, rfl, nodup_names_firstOfName _ _, fun name => mem_names_candidates,
    exists_places libraries requested hint, fun more => ?_⟩
  have further : candidates (libraries ++ more) requested hint = firstOfName []
      ((admitted libraries hint).flatMap (offers (Pattern.ofRequest requested)) ++
        (admitted more hint).flatMap (offers (Pattern.ofRequest requested))) := by
    rw [candidates, admitted_eq_filter, List.filter_append, List.flatMap_append,
      ← admitted_eq_filter, ← admitted_eq_filter]
  simp only [resolve, further]
  exact firstOfName_isPrefix_append _ _ _

-- the hint leaves out the library that has the name first
example :
    let libraries : List Library := [⟨⟨"jdk/rt.jar"⟩, true, ["java/awt/List.class"]⟩,
      ⟨⟨"libs/jdk-a.jar"⟩, false, ["x/List.class", "java/awt/List.class", "x/List.class"]⟩]
    (candidates libraries "List" none =
      [⟨"java.awt.List", ⟨"jdk/rt.jar"⟩⟩, ⟨"x.List", ⟨"libs/jdk-a.jar"⟩⟩]) ∧
    candidates libraries "List" (some "jdk-") =
      [⟨"x.List", ⟨"libs/jdk-a.jar"⟩⟩, ⟨"java.awt.List", ⟨"libs/jdk-a.jar"⟩⟩] := by
  decide +kernel

end ScriptJar.Library

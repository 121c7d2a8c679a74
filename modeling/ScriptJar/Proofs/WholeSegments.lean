import ScriptJar.Library.Pattern
import ScriptJar.Proofs.TextFacts

/-! # Whole segments

A pattern is a text to be looked for, with a slash in front; entries get one too.  So what is
found starts where a segment starts: either at the beginning of the entry or after one of
its own slashes.

* `IsName`, `joined` — the segments of a request, and their texts with dots and slashes;
* `Whole` — what may stand in an entry before a segment;
* `normalize_eq_append` — the places of slashes are those where segments start;
* `match?_name`, `match?_wildcard` — which entries fit, and their names;
* `match?_segments` — both kinds of requests.
-/

namespace ScriptJar

namespace Text

/-! ## First occurrences -/

theorem splitFirst?_isSome_iff {part s : List Char} :
    (splitFirst? part s).isSome = true ↔ part <:+: s := by
  induction s with
  | nil => cases part <;> simp [splitFirst?]
  | cons c rest ih =>
    rw [splitFirst?, List.infix_cons_iff, ← ih, ← List.isPrefixOf_iff_prefix]
    split
    · next here => simp [here]
    · next other => simp [other]

/-- The part found is at the beginning of what is left, and no earlier place has it. -/
theorem splitFirst?_eq_some {part s before found : List Char}
    (h : splitFirst? part s = some (before, found)) :
    s = before ++ found ∧ part <+: found ∧
      ∀ before' found', s = before' ++ found' → part <+: found' →
        before.length ≤ before'.length := by
  induction s generalizing before with
  | nil =>
    cases part with
    | nil =>
      cases h
      exact ⟨rfl, List.nil_prefix, fun _ _ _ _ => Nat.zero_le _⟩
    | cons => simp [splitFirst?] at h
  | cons c rest ih =>
    rw [splitFirst?] at h
    split at h
    · next here =>
      cases h
      exact ⟨rfl, List.isPrefixOf_iff_prefix.1 here, fun _ _ _ _ => Nat.zero_le _⟩
    · next other =>
      obtain ⟨⟨before, found⟩, later, same⟩ := Option.map_eq_some_iff.1 h
      cases same
      obtain ⟨rfl, start, least⟩ := ih later
      refine ⟨rfl, start, fun before' found' whole occurs => ?_⟩
      cases before' with
      | nil =>
        -- at the very beginning it would have been found
        obtain rfl : _ = found' := whole
        exact absurd (List.isPrefixOf_iff_prefix.2 occurs) other
      | cons c' before' =>
        obtain ⟨-, later⟩ := List.cons.inj whole
        exact Nat.succ_le_succ (least before' found' later occurs)

/-! ## Replacing and trimming -/

theorem replaceChar_append (old new : Char) (s t : List Char) :
    replaceChar old new (s ++ t) = replaceChar old new s ++ replaceChar old new t :=
  List.map_append

theorem replaceChar_of_notMem {old new : Char} {s : List Char} (h : old ∉ s) :
    replaceChar old new s = s := by
  rw [replaceChar]
  conv => rhs; rw [← List.map_id s]
  refine List.map_congr_left fun c member => if_neg ?_
  rintro rfl
  exact h member

theorem trim_of_solid {s : List Char} (solid : ∀ c ∈ s, isBlank c = false) :
    trim s = s :=
  trim_of_ends (fun c first => solid c (List.mem_of_head? first))
    (fun c last => solid c (List.mem_of_getLast? last))

end Text

namespace Pattern

open Text

/-! ## Requests -/

/-- A segment of a requested name. -/
structure IsSegment (s : String) : Prop where
  nonempty : s ≠ ""
  plain : ∀ c ∈ s.toList, c ≠ '.' ∧ c ≠ '/' ∧ c ≠ '\\' ∧ c ≠ '*' ∧ isBlank c = false

/-- Segments with a separator between them. -/
def joined (sep : Char) (segments : List String) : List Char :=
  [sep].intercalate (segments.map String.toList)

theorem joined_cons_cons (sep : Char) (s s' : String) (segments : List String) :
    joined sep (s :: s' :: segments) = s.toList ++ sep :: joined sep (s' :: segments) := by
  simp [joined]

theorem joined_singleton (sep : Char) (s : String) : joined sep [s] = s.toList := by
  simp [joined]

theorem replaceChar_joined {old new : Char} {segments : List String}
    (absent : ∀ s ∈ segments, old ∉ s.toList) :
    replaceChar old new (joined old segments) = joined new segments := by
  induction segments with
  | nil => rfl
  | cons s segments ih =>
    rw [List.forall_mem_cons] at absent
    cases segments with
    | nil => rw [joined_singleton, joined_singleton, replaceChar_of_notMem absent.1]
    | cons s' segments =>
      rw [joined_cons_cons, joined_cons_cons, replaceChar_append,
        replaceChar_of_notMem absent.1, ← ih absent.2]
      simp [replaceChar]

theorem mem_joined {sep c : Char} {segments : List String} (h : c ∈ joined sep segments) :
    c = sep ∨ ∃ s ∈ segments, c ∈ s.toList := by
  induction segments with
  | nil => cases h
  | cons s segments ih =>
    cases segments with
    | nil =>
      rw [joined_singleton] at h
      exact .inr ⟨s, List.mem_cons_self, h⟩
    | cons s' segments =>
      rw [joined_cons_cons, List.mem_append, List.mem_cons] at h
      rcases h with here | rfl | later
      · exact .inr ⟨s, List.mem_cons_self, here⟩
      · exact .inl rfl
      · rcases ih later with same | ⟨t, member, inside⟩
        · exact .inl same
        · exact .inr ⟨t, List.mem_cons_of_mem _ member, inside⟩

/-- A requested name: segments with dots between them. -/
structure IsName (segments : List String) : Prop where
  nonempty : segments ≠ []
  segment : ∀ s ∈ segments, IsSegment s

namespace IsName

variable {segments : List String} {sep c : Char}

theorem plain_of_mem (h : IsName segments) (member : c ∈ joined sep segments) (other : c ≠ sep) :
    c ≠ '.' ∧ c ≠ '/' ∧ c ≠ '\\' ∧ c ≠ '*' ∧ isBlank c = false := by
  rcases mem_joined member with same | ⟨s, inside, letter⟩
  · exact absurd same other
  · exact (h.segment s inside).plain c letter

theorem exists_head (h : IsName segments) (sep : Char) :
    ∃ c rest, joined sep segments = c :: rest ∧ c ≠ '/' := by
  obtain ⟨s, segments, rfl⟩ := List.exists_cons_of_ne_nil h.nonempty
  have segment := h.segment s List.mem_cons_self
  obtain ⟨c, rest, chars⟩ := List.exists_cons_of_ne_nil
    (String.toList_eq_nil_iff.not.2 segment.nonempty)
  have plain := (segment.plain c (by simp [chars])).2.1
  cases segments with
  | nil => exact ⟨c, rest, by rw [joined_singleton, chars], plain⟩
  | cons s' segments => exact ⟨c, _, by rw [joined_cons_cons, chars]; rfl, plain⟩

theorem isBlank_eq_false (h : IsName segments) (member : c ∈ joined '.' segments) :
    isBlank c = false := by
  by_cases dot : c = '.'
  · subst dot
    decide
  · exact (h.plain_of_mem member dot).2.2.2.2

theorem replaceChar_dots (h : IsName segments) :
    replaceChar '.' '/' (joined '.' segments) = joined '/' segments := by
  refine replaceChar_joined fun s inside dot => ?_
  exact ((h.segment s inside).plain '.' dot).1 rfl

theorem dotted_joined (h : IsName segments) :
    dotted (joined '/' segments) = joined '.' segments := by
  refine replaceChar_joined fun s inside slash => ?_
  exact ((h.segment s inside).plain '/' slash).2.1 rfl

theorem slashed_append (h : IsName segments) (rest : List Char) :
    slashed (joined '/' segments ++ rest) = '/' :: (joined '/' segments ++ rest) := by
  obtain ⟨c, others, chars, plain⟩ := h.exists_head '/'
  rw [slashed, if_neg]
  simpa [chars] using plain

end IsName

theorem ofRequest_name {segments : List String} (h : IsName segments) :
    ofRequest (".".intercalate segments) = ⟨'/' :: joined '/' segments, false⟩ := by
  have chars : (".".intercalate segments).toList = joined '.' segments :=
    String.toList_intercalate
  have noStar : (joined '/' segments).getLast? ≠ some '*' := by
    intro last
    exact (h.plain_of_mem (List.mem_of_getLast? last) (by decide)).2.2.2.1 rfl
  have start := h.slashed_append []
  rw [List.append_nil] at start
  simp only [ofRequest, chars, trim_of_solid fun c => h.isBlank_eq_false, h.replaceChar_dots,
    if_neg noStar, start]

theorem ofRequest_wildcard {segments : List String} (h : IsName segments) :
    ofRequest (".".intercalate segments ++ ".*") =
      ⟨'/' :: (joined '/' segments ++ ['/']), true⟩ := by
  have chars : (".".intercalate segments ++ ".*").toList = joined '.' segments ++ ['.', '*'] := by
    rw [String.toList_append, String.toList_intercalate]
    rfl
  have solid : ∀ c ∈ joined '.' segments ++ ['.', '*'], isBlank c = false := by
    rw [List.forall_mem_append, List.forall_mem_cons, List.forall_mem_singleton]
    exact ⟨fun c => h.isBlank_eq_false, by decide, by decide⟩
  have slashes : replaceChar '.' '/' (joined '.' segments ++ ['.', '*']) =
      joined '/' segments ++ ['/', '*'] := by
    rw [replaceChar_append, h.replaceChar_dots]
    rfl
  simp only [ofRequest, chars, trim_of_solid solid, slashes]
  simp [h.slashed_append]

/-! ## Entries -/

/-- An entry with slashes only. -/
def slashes (entry : String) : List Char :=
  replaceChar '\\' '/' entry.toList

/-- A part of an entry after which a segment starts. -/
def Whole (q : List Char) : Prop :=
  q = [] ∨ q.getLast? = some '/'

/-- An entry that starts with a segment. -/
def Relative (entry : String) : Prop :=
  entry.toList.head? ≠ some '/' ∧ entry.toList.head? ≠ some '\\'

theorem head?_slashes {entry : String} (h : Relative entry) :
    (slashes entry).head? ≠ some '/' := by
  obtain ⟨slash, backslash⟩ := h
  rw [slashes, replaceChar, List.head?_map]
  cases first : entry.toList.head? with
  | none => simp
  | some c =>
    rw [first] at slash backslash
    have other : c ≠ '\\' := fun same => backslash (by rw [same])
    rw [Option.map_some, if_neg other]
    exact slash

theorem Whole.exists_slash {q : List Char} (h : Whole q) : ∃ w, '/' :: q = w ++ ['/'] := by
  rcases h with rfl | last
  · exact ⟨[], rfl⟩
  · obtain ⟨front, rfl⟩ := List.getLast?_eq_some_iff.1 last
    exact ⟨'/' :: front, rfl⟩

theorem slash_append {q w : List Char} (slash : '/' :: q = w ++ ['/']) (rest : List Char) :
    w ++ '/' :: rest = '/' :: (q ++ rest) := by
  rw [← List.cons_append, slash]
  simp

/-- With a slash in front of the entry, a segment starts after each slash. -/
theorem normalize_eq_append {entry : String} {w rest : List Char} :
    normalize entry = w ++ '/' :: rest ↔
      ∃ q, Whole q ∧ slashes entry = q ++ rest ∧ '/' :: q = w ++ ['/'] := by
  constructor
  · intro h
    cases w with
    | nil => exact ⟨[], .inl rfl, (List.cons.inj h).2, rfl⟩
    | cons c w =>
      obtain ⟨rfl, tail⟩ := List.cons.inj h
      refine ⟨w ++ ['/'], .inr (by simp), ?_, rfl⟩
      rw [List.append_assoc, List.singleton_append]
      exact tail
  · rintro ⟨q, -, tail, slash⟩
    rw [slash_append slash, ← tail]
    rfl

/-- What comes before whole segments ends with a dot, if there is anything. -/
theorem Whole.ofList_dotted {q : List Char} (h : Whole q) (r : String) :
    String.ofList (dotted q ++ r.toList) = r ∨
      '.' :: r.toList <:+ (String.ofList (dotted q ++ r.toList)).toList := by
  rcases h with rfl | last
  · exact .inl String.ofList_toList
  · obtain ⟨front, rfl⟩ := List.getLast?_eq_some_iff.1 last
    exact .inr ⟨dotted front, by simp [dotted, replaceChar]⟩

/-! ## Matches -/

variable {segments : List String} {entry name : String} {needle q : List Char}

theorem match?_class :
    match? ⟨needle, false⟩ entry = some name ↔
      ∃ stem, normalize entry = stem ++ ".class".toList ∧ needle <:+ stem ∧
        String.ofList (dotted (stem.dropWhile (· == '/'))) = name := by
  simp only [match?, Bool.false_eq_true, if_false, ← before?_eq_some]
  cases before? ".class".toList (normalize entry) with
  | none => simp
  | some stem => by_cases suffix : needle <:+ stem <;> simp [suffix]

theorem match?_package :
    match? ⟨needle, true⟩ entry = some name ↔
      ∃ before found, splitFirst? needle (normalize entry) = some (before, found) ∧
        String.ofList (dotted ((before ++ needle).drop 1) ++ ['*']) = name := by
  simp only [match?, if_true, Option.map_eq_some_iff, Prod.exists]

/-- The slash in front is the only one that the stem of a class entry starts with. -/
theorem dropWhile_stem (h : IsName segments) (relative : Relative entry) {rest : List Char}
    (whole : slashes entry = q ++ (joined '/' segments ++ rest)) :
    ('/' :: (q ++ joined '/' segments)).dropWhile (· == '/') = q ++ joined '/' segments := by
  -- the stem is not empty, so its first character is that of the entry
  have first := head?_slashes relative
  obtain ⟨c, others, chars, -⟩ := h.exists_head '/'
  obtain ⟨d, tail, stem⟩ : ∃ d tail, q ++ joined '/' segments = d :: tail :=
    List.exists_cons_of_ne_nil (by simp [chars])
  have other : d ≠ '/' := by simpa [whole, ← List.append_assoc, stem] using first
  rw [stem]
  simp [other]

theorem match?_name (h : IsName segments) (relative : Relative entry) :
    (ofRequest (".".intercalate segments)).match? entry = some name ↔
      ∃ q, Whole q ∧ slashes entry = q ++ (joined '/' segments ++ ".class".toList) ∧
        name = String.ofList (dotted (q ++ joined '/' segments)) := by
  rw [ofRequest_name h, match?_class]
  constructor
  · rintro ⟨stem, ends, ⟨w, rfl⟩, rfl⟩
    rw [List.append_assoc, List.cons_append, normalize_eq_append] at ends
    obtain ⟨q, start, whole, slash⟩ := ends
    exact ⟨q, start, whole, by rw [slash_append slash, dropWhile_stem h relative whole]⟩
  · rintro ⟨q, start, whole, rfl⟩
    obtain ⟨w, slash⟩ := start.exists_slash
    refine ⟨'/' :: (q ++ joined '/' segments), ?_, ⟨w, ?_⟩, ?_⟩
    · rw [normalize_eq_append.2 ⟨q, start, whole, slash⟩, slash_append slash, List.cons_append,
        List.append_assoc]
    · exact slash_append slash _
    · rw [dropWhile_stem h relative whole]

theorem isSome_match?_wildcard (h : IsName segments) :
    ((ofRequest (".".intercalate segments ++ ".*")).match? entry).isSome = true ↔
      ∃ q t, Whole q ∧ slashes entry = q ++ (joined '/' segments ++ '/' :: t) := by
  rw [ofRequest_wildcard h, match?]
  simp only [if_true, Option.isSome_map, splitFirst?_isSome_iff]
  constructor
  · rintro ⟨w, t, occurs⟩
    have place : normalize entry = w ++ '/' :: (joined '/' segments ++ '/' :: t) := by
      rw [← occurs]
      simp
    obtain ⟨q, start, whole, -⟩ := normalize_eq_append.1 place
    exact ⟨q, t, start, whole⟩
  · rintro ⟨q, t, start, whole⟩
    obtain ⟨w, slash⟩ := start.exists_slash
    have place := normalize_eq_append.2 ⟨q, start, whole, slash⟩
    exact ⟨w, t, by rw [place]; simp⟩

/-- The shortest part of an entry after which segments stand as whole ones, with more
    segments after them. -/
structure Shortest (segments : List String) (entry : String) (q t : List Char) : Prop where
  start : Whole q
  whole : slashes entry = q ++ (joined '/' segments ++ '/' :: t)
  least : ∀ q' t', Whole q' → slashes entry = q' ++ (joined '/' segments ++ '/' :: t') →
    q.length ≤ q'.length

theorem Shortest.unique {q' t t' : List Char} (h : Shortest segments entry q t)
    (h' : Shortest segments entry q' t') : q = q' := by
  have length := Nat.le_antisymm (h.least q' t' h'.start h'.whole) (h'.least q t h.start h.whole)
  exact (List.append_inj (h.whole.symm.trans h'.whole) length).1

theorem exists_shortest (h : IsName segments)
    (found : (ofRequest (".".intercalate segments ++ ".*")).match? entry = some name) :
    ∃ q t, Shortest segments entry q t ∧
      name = String.ofList (dotted (q ++ joined '/' segments ++ ['/']) ++ ['*']) := by
  rw [ofRequest_wildcard h, match?_package] at found
  obtain ⟨before, found, split, rfl⟩ := found
  obtain ⟨whole, ⟨t, rfl⟩, least⟩ := splitFirst?_eq_some split
  have place : normalize entry = before ++ '/' :: (joined '/' segments ++ '/' :: t) := by
    rw [whole]
    simp
  obtain ⟨q, start, rest, slash⟩ := normalize_eq_append.1 place
  -- the text before the slash and the part up to it are equally long
  have length {w q : List Char} (slash : '/' :: q = w ++ ['/']) : w.length = q.length := by
    simpa using (congrArg List.length slash).symm
  refine ⟨q, t, ⟨start, rest, fun q' t' start' rest' => ?_⟩, ?_⟩
  · obtain ⟨w, slash'⟩ := start'.exists_slash
    have place' := normalize_eq_append.2 ⟨q', start', rest', slash'⟩
    rw [← length slash, ← length slash']
    exact least w _ place' ⟨t', by simp⟩
  · rw [slash_append slash, List.append_assoc]
    rfl

theorem match?_wildcard (h : IsName segments) :
    (ofRequest (".".intercalate segments ++ ".*")).match? entry = some name ↔
      ∃ q t, Shortest segments entry q t ∧
        name = String.ofList (dotted (q ++ joined '/' segments ++ ['/']) ++ ['*']) := by
  refine ⟨exists_shortest h, ?_⟩
  rintro ⟨q, t, shortest, rfl⟩
  -- something is found, and only one part is the shortest
  have some := (isSome_match?_wildcard h).2 ⟨q, t, shortest.start, shortest.whole⟩
  obtain ⟨name, found⟩ := Option.isSome_iff_exists.1 some
  obtain ⟨q', t', shortest', rfl⟩ := exists_shortest h found
  rw [found, shortest.unique shortest']

/-- Requests are matched by whole segments.  A class fits an entry that ends with its segments
    after a part that is empty or ends with a slash; a package fits an entry that has its
    segments after such a part, and the shortest part counts.  The name is that of the
    entry with dots, which is the request or ends with it. -/
theorem match?_segments {segments : List String} (h : IsName segments) {entry : String}
    (relative : Relative entry) :
    let r := ".".intercalate segments
    let path := joined '/' segments
    (∀ name, (ofRequest r).match? entry = some name ↔
      ∃ q, Whole q ∧ slashes entry = q ++ (path ++ ".class".toList) ∧
        name = String.ofList (dotted (q ++ path))) ∧
    (∀ name, (ofRequest r).match? entry = some name →
      name = r ∨ '.' :: r.toList <:+ name.toList) ∧
    (((ofRequest (r ++ ".*")).match? entry).isSome = true ↔
      ∃ q t, Whole q ∧ slashes entry = q ++ (path ++ '/' :: t)) ∧
    (∀ name, (ofRequest (r ++ ".*")).match? entry = some name ↔
      ∃ q t, Shortest segments entry q t ∧
        name = String.ofList (dotted (q ++ path ++ ['/']) ++ ['*'])) ∧
    (∀ name, (ofRequest (r ++ ".*")).match? entry = some name →
      name = r ++ ".*" ∨ '.' :: (r ++ ".*").toList <:+ name.toList) := by
  have dots (q : List Char) : dotted (q ++ joined '/' segments) =
      dotted q ++ (".".intercalate segments).toList := by
    rw [dotted, replaceChar_append, ← dotted, ← dotted, h.dotted_joined, String.toList_intercalate]
    rfl
  refine ⟨fun name => match?_name h relative, ?_, isSome_match?_wildcard h,
    fun name => match?_wildcard h, ?_⟩
  · intro name found
    obtain ⟨q, start, -, rfl⟩ := (match?_name h relative).1 found
    rw [dots]
    exact start.ofList_dotted _
  · intro name found
    obtain ⟨q, t, shortest, rfl⟩ := (match?_wildcard h).1 found
    have dots' : dotted (q ++ joined '/' segments ++ ['/']) ++ ['*'] =
        dotted q ++ (".".intercalate segments ++ ".*").toList := by
      rw [dotted, replaceChar_append, ← dotted, dots, String.toList_append, List.append_assoc,
        List.append_assoc]
      rfl
    rw [dots']
    exact shortest.start.ofList_dotted _

/-- The segments of the request stand in it twice, and a backslash for a slash. -/
def nestedEntry : String := "x\\u/L/u/L.class"

theorem match?_segments_nested :
    IsName ["u", "L"] ∧ Relative nestedEntry ∧
      (∃ q, Whole q ∧ slashes nestedEntry = q ++ (joined '/' ["u", "L"] ++ ".class".toList) ∧
        "x.u.L.u.L" = String.ofList (dotted (q ++ joined '/' ["u", "L"]))) ∧
      ∃ q t, Shortest ["u", "L"] nestedEntry q t ∧
        "x.u.L.*" = String.ofList (dotted (q ++ joined '/' ["u", "L"] ++ ['/']) ++ ['*']) := by
  have name : IsName ["u", "L"] := by
    refine ⟨by decide, ?_⟩
    rw [List.forall_mem_cons, List.forall_mem_singleton]
    constructor
    · refine ⟨by decide, fun c member => ?_⟩
      obtain rfl := List.mem_singleton.1 member
      decide
    · refine ⟨by decide, fun c member => ?_⟩
      obtain rfl := List.mem_singleton.1 member
      decide
  have relative : Relative nestedEntry := ⟨by decide, by decide⟩
  obtain ⟨cls, -, -, package, -⟩ := match?_segments name relative
  exact ⟨name, relative, (cls _).1 (by decide +kernel), (package _).1 (by decide +kernel)⟩

end Pattern

end ScriptJar

import Mathlib.Data.List.TakeWhile
import ScriptJar.Proofs.WrittenDirectives

/-! # The first word of a header

A header may start with a word for its kind, and a name may stand in its place or after it.
Where the word ends is not looked at: a name that begins with such a word is cut in two, and
the rest of it is what the next parts of the header see.  So `interfaceFoo` is read as
`interface Foo`, and after `classext` comes a superclass.

* `parse_apart` — a word for the kind, and a blank after it;
* `parse_plain`, `parse_joined` — a name that begins with no such word, and one that does;
* `Directive.classify_firstWord` — how a header with a name at its beginning is read.
-/

namespace ScriptJar

open Text

/-! ## The ends of a text -/

namespace Text

theorem trimStart_blanks {lead : List Char} (blank : ∀ c ∈ lead, isBlank c = true)
    (s : List Char) : trimStart (lead ++ s) = trimStart s := by
  rw [trimStart, List.dropWhile_append_of_pos blank]
  rfl

/-- After other text, only the end of a text is trimmed. -/
theorem exists_trim_append {front s : List Char} (starts : front.head?.any isWordChar = true)
    (some : trim s ≠ []) :
    ∃ lead, (∀ c ∈ lead, isBlank c = true) ∧ trim (front ++ s) = front ++ (lead ++ trim s) := by
  cases solid : trimStart s with
  | nil =>
    rw [trim, solid] at some
    exact absurd rfl some
  | cons c rest =>
    have other : isBlank c = false := by
      have first := List.head?_dropWhile_not isBlank s
      rw [← trimStart, solid] at first
      simpa using first
    have whole : s.takeWhile isBlank ++ c :: rest = s := by
      rw [← solid]
      exact List.takeWhile_append_dropWhile
    have ends : trim s = c :: trimEnd rest := by
      rw [trim, solid]
      exact trimEnd_append_cons [] rest other
    refine ⟨s.takeWhile isBlank, fun c member => List.mem_takeWhile_imp member, ?_⟩
    conv => lhs; rw [← whole]
    rw [trim, trimStart_append starts, ends, ← List.append_assoc, trimEnd_append_cons _ rest other,
      List.append_assoc]

end Text

namespace Header

variable {k : Kind} {body name rest tail s : List Char}

/-- A header without the semicolons at its end. -/
def ended (s : List Char) : List Char :=
  trimEnd (dropEndWhile (· == ';') s)

theorem ended_append (settled : Settled s) (rest : List Char) :
    ended (s ++ rest) = s ++ ended rest := by
  rw [ended, dropEndWhile_append fun c last => by simpa using (settled c last).2, trimEnd,
    dropEndWhile_append fun c last => (settled c last).1]
  rfl

theorem ended_isPrefix (s : List Char) : ended s <+: s :=
  (dropEndWhile_isPrefix _ _).trans (dropEndWhile_isPrefix _ _)

/-! ## Taking off a kind -/

/-- What is read after the kind. -/
def afterKind (k : Kind) (s : List Char) : Header :=
  let superclass := takeSuperclass (skipName (takeGenerics s).2)
  { kind := k, generics := (takeGenerics s).1, superclass := superclass.1,
    contracts := takeContracts superclass.2 }

theorem parse_eq (body : List Char) :
    parse body = afterKind (takeKind (ended (trim body))).1 (takeKind (ended (trim body))).2 := by
  simp only [parse, afterKind, ended]

theorem letters_word (k : Kind) : ∀ c ∈ (word k).toList, isWordChar c = true := by
  rw [← List.all_eq_true]
  cases k <;> decide +kernel

theorem takeKind_of_none (none : ∀ k, ¬ (word k).toList <+: s) : takeKind s = (.standard, s) := by
  have other (k : Kind) : after? (word k).toList s = Option.none := by
    cases after : after? (word k).toList s with
    | none => rfl
    | some rest => exact absurd ⟨rest, (after?_eq_some.1 after).symm⟩ (none k)
  have interface : after? "interface".toList s = Option.none := other .interface
  have abstractClass : after? "abstract".toList s = Option.none := other .abstractClass
  have standard : after? "class".toList s = Option.none := other .standard
  simp only [takeKind, kindWords, List.findSome?_cons, List.findSome?_nil, interface,
    abstractClass, standard, Option.map_none, Option.getD_none]

theorem word_isPrefix_iff {k' : Kind} : (word k).toList <+: (word k').toList ++ s ↔ k = k' := by
  cases k <;> cases k' <;> simp [word]

theorem kind_takeKind_iff (other : k ≠ .standard) :
    (takeKind s).1 = k ↔ (word k).toList <+: s := by
  by_cases known : ∃ k', (word k').toList <+: s
  · obtain ⟨k', rest, rfl⟩ := known
    rw [takeKind_word, word_isPrefix_iff, eq_comm]
  · have none : ∀ k', ¬ (word k').toList <+: s := fun k' starts => known ⟨k', starts⟩
    rw [takeKind_of_none none]
    exact ⟨fun same => absurd same.symm other, fun starts => absurd starts (none k)⟩

theorem word_isPrefix_ended : (word k).toList <+: ended s ↔ (word k).toList <+: s := by
  constructor
  · exact fun starts => starts.trans (ended_isPrefix s)
  · rintro ⟨rest, rfl⟩
    rw [ended_append (.of_letters (letters_word k))]
    exact List.prefix_append _ _

/-- A kind other than that of a class is read where its word is at the beginning. -/
theorem kind_parse_iff (other : k ≠ .standard) :
    (parse body).kind = k ↔ (word k).toList <+: trim body := by
  rw [parse_eq, ← word_isPrefix_ended, ← kind_takeKind_iff other]
  rfl

/-! ## Taking off a name -/

/-- A header whose first word is a name or a word of its own. -/
structure FirstWord (body name rest : List Char) : Prop where
  whole : trim body = name ++ rest
  some : name ≠ []
  letters : ∀ c ∈ name, isWordChar c = true
  ends : rest.head?.any isWordChar = false

theorem starts_of_letters (some : name ≠ []) (letters : ∀ c ∈ name, isWordChar c = true)
    (s : List Char) : (name ++ s).head?.any isWordChar = true := by
  obtain ⟨c, name, rfl⟩ := List.exists_cons_of_ne_nil some
  exact letters c List.mem_cons_self

theorem bracket_of_starts (starts : s.head?.any isWordChar = true) : s.head? ≠ some '<' := by
  intro bracket
  rw [bracket] at starts
  exact absurd starts (by decide +kernel)

theorem takeGenerics_of_head (other : s.head? ≠ some '<') : takeGenerics s = ([], s) := by
  cases s with
  | nil => rfl
  | cons c s =>
    have differs : c ≠ '<' := by simpa using other
    simp [takeGenerics, differs]

theorem afterKind_of_head (k : Kind) (other : s.head? ≠ some '<') :
    afterKind k s =
      { kind := k, superclass := (takeSuperclass (skipName s)).1,
        contracts := takeContracts (takeSuperclass (skipName s)).2 } := by
  rw [afterKind, takeGenerics_of_head other]

theorem skipName_congr {t : List Char} (same : trimStart s = trimStart t) :
    skipName s = skipName t := by
  unfold skipName
  rw [same]

theorem afterKind_blanks (k : Kind) {lead : List Char} (blank : ∀ c ∈ lead, isBlank c = true)
    (starts : s.head?.any isWordChar = true) :
    afterKind k (' ' :: (lead ++ s)) = afterKind k s := by
  have start : trimStart (' ' :: (lead ++ s)) = trimStart s := by
    rw [trimStart_cons_blank (by decide), trimStart_blanks blank]
  rw [afterKind_of_head k (by simp), afterKind_of_head k (bracket_of_starts starts),
    skipName_congr start]

/-- The word for a kind, and a blank before the first word. -/
theorem parse_apart (k : Kind) (first : FirstWord body name rest) :
    parse ((word k).toList ++ ' ' :: body) = afterKind k (name ++ ended rest) := by
  obtain ⟨whole, some, letters, -⟩ := first
  have front : ((word k).toList ++ [' ']).head?.any isWordChar = true := by
    cases k <;> decide +kernel
  obtain ⟨lead, blank, trimmed⟩ := exists_trim_append front (s := body) (by simp [whole, some])
  have settled : Settled ((word k).toList ++ [' '] ++ lead ++ name) :=
    (Settled.of_letters letters).append fun none => absurd none some
  have text : ended (trim ((word k).toList ++ ' ' :: body)) =
      (word k).toList ++ ' ' :: (lead ++ (name ++ ended rest)) := by
    rw [← List.singleton_append, ← List.append_assoc, trimmed, whole, ← List.append_assoc,
      ← List.append_assoc, ended_append settled]
    simp
  rw [parse_eq, text, takeKind_word,
    afterKind_blanks k blank (starts_of_letters some letters (ended rest))]

theorem FirstWord.ended_eq (first : FirstWord body name rest) :
    ended (trim body) = name ++ ended rest := by
  rw [first.whole, ended_append (.of_letters first.letters)]

theorem head?_ended (ends : rest.head?.any isWordChar = false) :
    (ended rest).head?.any isWordChar = false := by
  cases start : (ended rest).head? with
  | none => rfl
  | some c =>
    obtain ⟨more, whole⟩ := ended_isPrefix rest
    rw [← whole, List.head?_append, start] at ends
    exact ends

theorem isPrefix_of_letters {lead : List Char} (letters : ∀ c ∈ lead, isWordChar c = true)
    (ends : rest.head?.any isWordChar = false) : lead <+: name ++ rest ↔ lead <+: name := by
  constructor
  · rintro ⟨more, whole⟩
    rcases List.append_eq_append_iff.1 whole with ⟨others, rfl, -⟩ | ⟨others, rfl, rfl⟩
    · exact List.prefix_append _ _
    · -- what the name lacks of it would be the beginning of the rest
      cases others with
      | nil => simp
      | cons c others => simp [letters c (by simp)] at ends
  · exact fun starts => starts.trans (List.prefix_append _ _)

/-- A first word that begins with no word for a kind. -/
theorem parse_plain (first : FirstWord body name rest) (plain : ∀ k, ¬ (word k).toList <+: name) :
    parse body = afterKind .standard (name ++ ended rest) := by
  have none : ∀ k, ¬ (word k).toList <+: name ++ ended rest := by
    intro k
    rw [isPrefix_of_letters (letters_word k) (head?_ended first.ends)]
    exact plain k
  rw [parse_eq, first.ended_eq, takeKind_of_none none]

/-- A first word that begins with a word for a kind. -/
theorem parse_joined (first : FirstWord body ((word k).toList ++ tail) rest) :
    parse body = afterKind k (tail ++ ended rest) := by
  rw [parse_eq, first.ended_eq, List.append_assoc, takeKind_word]

theorem cutType_letters (letters : ∀ c ∈ name, isWordChar c = true) (s : List Char) :
    (cutType 0 (name ++ s)).2 = (cutType 0 s).2 := by
  induction name with
  | nil => rfl
  | cons c name ih =>
    rw [List.forall_mem_cons] at letters
    have solid := isBlank_of_isWordChar letters.1
    have depth : angleDepth 0 c = 0 := by
      unfold angleDepth
      split
      · next bracket => exact absurd (bracket ▸ letters.1) (by decide +kernel)
      · split <;> rfl
    rw [List.cons_append, cutType, if_neg (by simp [solid]), depth]
    exact ih letters.2

theorem skipName_letters (named : IsName name) (ends : s.head?.any isWordChar = false) :
    skipName (name ++ s) = trimStart (cutType 0 s).2 := by
  obtain ⟨some, letters, notExt, notImpl⟩ := named
  have start : trimStart (name ++ s) = name ++ s :=
    trimStart_append (by simpa using starts_of_letters some letters []) s
  have noExt := startsWithWord_eq_false letters (by decide +kernel) notExt ends
  have noImpl := startsWithWord_eq_false letters (by decide +kernel) notImpl ends
  have nonempty : (name ++ s).isEmpty = false := by simp [some]
  simp only [skipName, start, noExt, noImpl, nonempty, takeType, cutType_letters letters,
    Bool.or_self, Bool.false_eq_true, if_false]

/-- Whatever the name is, the same is read after it. -/
theorem afterKind_name {name' : List Char} (named : IsName name) (named' : IsName name')
    (ends : s.head?.any isWordChar = false) :
    afterKind k (name ++ s) = afterKind k (name' ++ s) := by
  have bracket := bracket_of_starts (starts_of_letters named.1 named.2.1 s)
  have bracket' := bracket_of_starts (starts_of_letters named'.1 named'.2.1 s)
  rw [afterKind_of_head k bracket, afterKind_of_head k bracket', skipName_letters named ends,
    skipName_letters named' ends]

/-! ## Names that are cut in two -/

/-- The words of a header. -/
def words : List String :=
  ["interface", "abstract", "class", "ext", "impl"]

/-- A name that is passed over whole, or of which a name is left when a word is cut off. -/
structure Kept (name : List Char) : Prop where
  notInterface : ¬ "interface".toList <+: name
  notAbstract : ¬ "abstract".toList <+: name
  notExt : name ≠ "classext".toList
  notImpl : name ≠ "classimpl".toList

theorem isName_of_notMem_words {name : String} (some : name ≠ "")
    (letters : ∀ c ∈ name.toList, isWordChar c = true) (other : name ∉ words) :
    IsName name.toList := by
  simp only [words, List.mem_cons, not_or] at other
  refine ⟨by simpa using some, letters, ?_, ?_⟩
  · exact fun same => other.2.2.2.1 (String.toList_inj.1 same)
  · exact fun same => other.2.2.2.2.1 (String.toList_inj.1 same)

theorem isName_of_kept {name : String} (letters : ∀ c ∈ name.toList, isWordChar c = true)
    (other : name ∉ words) (kept : Kept name.toList)
    (whole : "class".toList ++ tail = name.toList) : IsName tail := by
  rw [← whole] at kept letters
  refine ⟨?_, fun c member => letters c (List.mem_append_right _ member), ?_, ?_⟩
  · rintro rfl
    have same : "class" = name := String.toList_inj.1 (by simpa using whole)
    exact other (same ▸ by decide)
  · rintro rfl
    exact kept.notExt rfl
  · rintro rfl
    exact kept.notImpl rfl

/-- A name that is kept is read as if it came after the word for a class. -/
theorem parse_kept {name : String} (first : FirstWord body name.toList rest)
    (other : name ∉ words) (kept : Kept name.toList) :
    parse body = parse ("class ".toList ++ body) := by
  refine Eq.trans ?_ (parse_apart .standard first).symm
  by_cases known : ∃ k, (word k).toList <+: name.toList
  · obtain ⟨k, tail, whole⟩ := known
    cases k with
    | interface => exact absurd ⟨tail, whole⟩ kept.notInterface
    | abstractClass => exact absurd ⟨tail, whole⟩ kept.notAbstract
    | standard =>
      have named := isName_of_notMem_words (by simpa using first.some) first.letters other
      have rests := isName_of_kept first.letters other kept whole
      rw [afterKind_name named rests (head?_ended first.ends)]
      rw [← whole] at first
      exact parse_joined first
  · exact parse_plain first fun k starts => known ⟨k, starts⟩

theorem firstWord_of_last (nonempty : name ≠ []) (letters : ∀ c ∈ name, isWordChar c = true)
    (ends : rest.head?.any isWordChar = false)
    (last : ∀ c, (name ++ rest).getLast? = some c → isBlank c = false) :
    FirstWord (name ++ rest) name rest := by
  refine ⟨trim_of_ends (fun c first => ?_) last, nonempty, letters, ends⟩
  have letter := starts_of_letters nonempty letters rest
  rw [first] at letter
  exact isBlank_of_isWordChar letter

/-- What is left of a first word is one again. -/
theorem FirstWord.drop {lead : List Char} (first : FirstWord body (lead ++ tail) rest)
    (some : tail ≠ []) : FirstWord (tail ++ rest) tail rest := by
  obtain ⟨whole, -, letters, ends⟩ := first
  refine firstWord_of_last some (fun c member => letters c (List.mem_append_right _ member)) ends ?_
  intro c last
  refine isBlank_of_getLast?_trim (s := body) ?_
  rw [whole, List.append_assoc, List.getLast?_append, last]
  rfl

theorem firstWord_append (some : name ≠ []) (letters : ∀ c ∈ name, isWordChar c = true) :
    FirstWord (name ++ " A".toList) name " A".toList := by
  refine firstWord_of_last some letters (by simp [isWordChar_space]) fun c last => ?_
  obtain rfl : 'A' = c := by simpa using last
  decide

/-- A name is kept if what comes after it is read as after any other. -/
theorem kept_of_parse {name : String} (some : name ≠ "")
    (letters : ∀ c ∈ name.toList, isWordChar c = true)
    (same : parse (name.toList ++ " A".toList) =
      parse ("class ".toList ++ (name.toList ++ " A".toList))) :
    Kept name.toList := by
  have first := firstWord_append (by simpa using some) letters
  have kind : (parse (name.toList ++ " A".toList)).kind = .standard := by
    rw [same]
    exact congrArg Header.kind (parse_apart .standard first)
  have notKind (k : Kind) (other : k ≠ .standard) : ¬ (word k).toList <+: name.toList := by
    intro starts
    refine other (((kind_parse_iff other).2 ?_).symm.trans kind)
    rw [first.whole]
    exact starts.trans (List.prefix_append _ _)
  refine ⟨notKind .interface (by decide), notKind .abstractClass (by decide), ?_, ?_⟩
  · intro glued
    rw [glued] at same
    exact absurd same (by decide +kernel)
  · intro glued
    rw [glued] at same
    exact absurd same (by decide +kernel)

end Header

namespace Directive

open Header

theorem classify_header {position : Nat} (early : position = 1 ∨ position = 2) (body : String) :
    classify ("#!" ++ body) position = .header (parse body.toList) := by
  have text : "#!" ++ body = String.ofList ("#!".toList ++ body.toList) := by
    rw [← String.toList_inj]
    simp
  rw [text]
  refine classify_of_form '#' ?_ rfl
  rw [formFor, if_pos (by omega), header?, after?_eq_some.2 rfl, Option.map_some]

/-- The kind of a header is read off its beginning, where the word for it may be a part of a
    longer one.  A name at the beginning is passed over as after the word for a class, whatever
    follows it, if it is kept, and only then.  One that begins with the word for a kind is read as
    two words. -/
theorem classify_firstWord {position : Nat} (early : position = 1 ∨ position = 2) :
    (∀ body : String, ∃ h, classify ("#!" ++ body) position = .header h ∧
        (h.kind = .interface ↔ "interface".toList <+: trim body.toList) ∧
        (h.kind = .abstractClass ↔ "abstract".toList <+: trim body.toList)) ∧
      (∀ name : String, name ≠ "" → (∀ c ∈ name.toList, isWordChar c = true) → name ∉ words →
        ((∀ (body : String) (rest : List Char), FirstWord body.toList name.toList rest →
          ∃ h, h.kind = .standard ∧ classify ("#!" ++ body) position = .header h ∧
            classify ("#!class " ++ body) position = .header h) ↔ Kept name.toList)) ∧
      ∀ (body : String) (k : Kind) (tail rest : List Char), tail ≠ [] →
        FirstWord body.toList ((word k).toList ++ tail) rest →
        classify ("#!" ++ body) position =
          classify ("#!" ++ (word k ++ " " ++ String.ofList (tail ++ rest))) position := by
  have apart (body : String) : classify ("#!class " ++ body) position =
      .header (parse ("class ".toList ++ body.toList)) := by
    have text : "#!class " ++ body = "#!" ++ ("class " ++ body) := by
      rw [← String.append_assoc]
      rfl
    rw [text, classify_header early, String.toList_append]
  refine ⟨fun body => ⟨_, classify_header early body, kind_parse_iff (by decide),
    kind_parse_iff (by decide)⟩, fun name some letters other => ⟨fun same => ?_, ?_⟩, ?_⟩
  · obtain ⟨h, -, alone, after⟩ := same (name ++ " A") " A".toList (by
      rw [String.toList_append]
      exact firstWord_append (by simpa using some) letters)
    rw [classify_header early] at alone
    rw [apart, ← alone, header.injEq, String.toList_append] at after
    exact kept_of_parse some letters after.symm
  · intro kept body rest first
    have same := parse_kept first other kept
    refine ⟨_, ?_, classify_header early body, ?_⟩
    · rw [same]
      exact congrArg Header.kind (parse_apart .standard first)
    · rw [apart, same]
  · intro body k tail rest some first
    have text : (word k ++ " " ++ String.ofList (tail ++ rest)).toList =
        (word k).toList ++ ' ' :: (tail ++ rest) := by
      simp
    rw [classify_header early, classify_header early, text, parse_joined first,
      parse_apart k (first.drop some)]

theorem classify_firstWord_classes :
    (∃ h, h.kind = .standard ∧ classify ("#!" ++ " classes<T> ext Base;") 1 = .header h ∧
        classify ("#!class " ++ " classes<T> ext Base;") 1 = .header h) ∧
      classify ("#!" ++ "interfaces ext Base") 2 =
        classify ("#!" ++ ("interface" ++ " " ++ "s ext Base")) 2 := by
  have kept : Kept "classes".toList := ⟨by decide, by decide, by decide, by decide⟩
  have classes : FirstWord " classes<T> ext Base;".toList "classes".toList "<T> ext Base;".toList :=
    ⟨by decide, by decide, List.all_eq_true.1 (by decide +kernel), by decide +kernel⟩
  have interfaces : FirstWord "interfaces ext Base".toList ("interface".toList ++ ['s'])
      " ext Base".toList :=
    ⟨by decide, by decide, List.all_eq_true.1 (by decide +kernel), by decide +kernel⟩
  constructor
  · exact ((classify_firstWord (.inl rfl)).2.1 "classes" (by decide) classes.letters
      (by decide)).2 kept _ _ classes
  · exact (classify_firstWord (.inr rfl)).2.2 _ .interface ['s'] _ (by decide) interfaces

/-- A name that begins with the word for a kind is cut in two. -/
theorem classify_cuts_name :
    classify "#!interfaceFoo ext Base" 1 =
        .header { kind := .interface, superclass := some "Base" } ∧
      classify "#!class interfaceFoo ext Base" 1 = .header { superclass := some "Base" } ∧
      classify "#!classext Base" 1 = .header { superclass := some "Base" } ∧
      classify "#!class classext Base" 1 = .header {} := by
  decide +kernel

end Directive

end ScriptJar

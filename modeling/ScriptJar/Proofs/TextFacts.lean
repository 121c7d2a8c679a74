import Mathlib.Data.List.Basic
import ScriptJar.Text.Blank
import ScriptJar.Text.Basic
import ScriptJar.Text.Decimal
import ScriptJar.Text.Word

/-! # Facts about texts

Laws of the operations on `List Char` that other proofs share.
-/

namespace ScriptJar.Text

/-! ## Beginnings and ends -/

theorem after?_eq_some {lead s rest : List Char} : after? lead s = some rest ↔ s = lead ++ rest := by
  rw [after?, List.isPrefixOf?_eq_some_iff_append_eq, eq_comm]

theorem before?_eq_some {tail s rest : List Char} :
    before? tail s = some rest ↔ s = rest ++ tail := by
  rw [before?, List.isSuffixOf?_eq_some_iff_append_eq, eq_comm]

theorem after?_of_head (word : String) {a b : Char} (first : word.toList.head? = some a)
    (other : b ≠ a) (rest : List Char) : after? word.toList (b :: rest) = none := by
  cases chars : word.toList with
  | nil => simp [chars] at first
  | cons c lead =>
    obtain rfl : c = a := by simpa [chars] using first
    simp [after?, List.isPrefixOf?, Ne.symm other]

/-- What stands between a beginning and an end. -/
theorem after?_bind_before? (lead body tail : List Char) :
    (after? lead (lead ++ (body ++ tail))).bind (before? tail) = some body := by
  rw [after?_eq_some.2 rfl, Option.bind_some, before?_eq_some]

theorem occursIn_iff {part s : List Char} : occursIn part s = true ↔ part <:+: s := by
  induction s with
  | nil => simp [occursIn]
  | cons c rest ih => simp [occursIn, ih, List.infix_cons_iff]

theorem occursIn_append (front part back : List Char) :
    occursIn part (front ++ (part ++ back)) = true :=
  occursIn_iff.2 ⟨front, back, List.append_assoc front part back⟩

/-! ## Words and blanks -/

/-- The code points of the blank characters. -/
def blankCodes : List Nat :=
  [0x20, 0x85, 0xA0, 0x1680, 0x2028, 0x2029, 0x202F, 0x205F, 0x3000]
    ++ List.range' 0x09 5 ++ List.range' 0x2000 11

theorem toNat_mem_blankCodes {c : Char} (h : isBlank c = true) : c.toNat ∈ blankCodes := by
  simp [isBlank, blankCodes, List.mem_range'_1] at h ⊢
  omega

/-- No blank character continues a word. -/
theorem isWordChar_of_isBlank {c : Char} (h : isBlank c = true) : isWordChar c = false := by
  have outside : ∀ n ∈ blankCodes, inRanges alphanumericRanges n = false := by decide +kernel
  have mark : c ≠ '_' ∧ c ≠ '$' := by
    constructor <;> (rintro rfl; exact absurd h (by decide))
  simp [isWordChar, isAlphanumeric, outside _ (toNat_mem_blankCodes h), mark]

theorem isDecimalDigit_of_isBlank {c : Char} (h : isBlank c = true) : isDecimalDigit c = false := by
  have outside : ∀ n ∈ blankCodes, inRanges decimalDigitRanges n = false := by decide +kernel
  exact outside _ (toNat_mem_blankCodes h)

theorem isBlank_of_isWordChar {c : Char} (h : isWordChar c = true) : isBlank c = false := by
  cases blank : isBlank c with
  | false => rfl
  | true => simp [isWordChar_of_isBlank blank] at h

theorem isWordChar_space : isWordChar ' ' = false :=
  isWordChar_of_isBlank (by decide)

theorem afterWord?_append (word : List Char) {rest : List Char}
    (ends : rest.head?.any isWordChar = false) : afterWord? word (word ++ rest) = some rest := by
  have after : after? word (word ++ rest) = some rest := after?_eq_some.2 rfl
  simp [afterWord?, after, ends]

/-- A name is not the beginning of a text that starts with another word. -/
theorem startsWithWord_eq_false {word name rest : List Char}
    (letters : ∀ c ∈ name, isWordChar c = true) (solid : word.all isWordChar = true)
    (other : name ≠ word) (ends : rest.head?.any isWordChar = false) :
    startsWithWord word (name ++ rest) = false := by
  rw [List.all_eq_true] at solid
  unfold startsWithWord afterWord?
  cases after : after? word (name ++ rest) with
  | none => rfl
  | some r =>
    rcases List.append_eq_append_iff.1 (after?_eq_some.1 after) with
      ⟨more, rfl, rfl⟩ | ⟨more, rfl, rfl⟩
    · -- the name ends where the word goes on
      cases more with
      | nil => simp at other
      | cons c more => simp [solid c (by simp)] at ends
    · cases more with
      | nil => simp at other
      | cons c more => simp [letters c (by simp)]

/-! ## Trimming -/

theorem trimStart_of_head {c : Char} (solid : isBlank c = false) (s : List Char) :
    trimStart (c :: s) = c :: s := by
  simp [trimStart, solid]

theorem trimStart_cons_blank {c : Char} (blank : isBlank c = true) (s : List Char) :
    trimStart (c :: s) = trimStart s := by
  simp [trimStart, blank]

theorem trimStart_append {s : List Char} (letter : s.head?.any isWordChar = true)
    (rest : List Char) : trimStart (s ++ rest) = s ++ rest := by
  cases s with
  | nil => cases letter
  | cons c s => exact trimStart_of_head (isBlank_of_isWordChar letter) _

theorem dropEndWhile_of_last {p : Char → Bool} {s : List Char}
    (h : ∀ c, s.getLast? = some c → p c = false) : dropEndWhile p s = s := by
  rcases List.eq_nil_or_concat s with rfl | ⟨front, c, rfl⟩
  · rfl
  · have last : p c = false := h c (by simp)
    simp [dropEndWhile, last]

theorem dropEndWhile_append {p : Char → Bool} {front : List Char}
    (last : ∀ c, front.getLast? = some c → p c = false) (rest : List Char) :
    dropEndWhile p (front ++ rest) = front ++ dropEndWhile p rest := by
  have kept : dropEndWhile p front = front := dropEndWhile_of_last last
  simp only [dropEndWhile, List.reverse_append, List.dropWhile_append] at kept ⊢
  split
  · next none =>
    rw [List.isEmpty_iff] at none
    simp [none, kept]
  · simp

theorem dropEndWhile_isPrefix (p : Char → Bool) (s : List Char) : dropEndWhile p s <+: s := by
  rw [← List.reverse_suffix, dropEndWhile, List.reverse_reverse]
  exact List.dropWhile_suffix p

theorem trim_of_ends {s : List Char} (first : ∀ c, s.head? = some c → isBlank c = false)
    (last : ∀ c, s.getLast? = some c → isBlank c = false) : trim s = s := by
  have start : trimStart s = s := by
    cases s with
    | nil => rfl
    | cons c s => exact trimStart_of_head (first c rfl) s
  rw [trim, start, trimEnd, dropEndWhile_of_last last]

theorem trimStart_of_trimmed {s : List Char} (trimmed : trim s = s) : trimStart s = s := by
  have suffix : trimStart s <:+ s := List.dropWhile_suffix isBlank
  have shorter : (trim s).length ≤ (trimStart s).length := by
    have cut : (trimStart s).reverse.dropWhile isBlank <:+ _ := List.dropWhile_suffix isBlank
    simpa [trim, trimEnd, dropEndWhile] using cut.length_le
  rw [trimmed] at shorter
  exact suffix.eq_of_length (Nat.le_antisymm suffix.length_le shorter)

theorem isBlank_of_getLast?_trim {s : List Char} {c : Char} (h : (trim s).getLast? = some c) :
    isBlank c = false := by
  rw [trim, trimEnd, dropEndWhile, List.getLast?_reverse] at h
  have first := List.head?_dropWhile_not isBlank (trimStart s).reverse
  rw [h] at first
  simpa using first

/-! ## Numerals -/

theorem isDecimalDigit_of_isDigit {c : Char} (h : c.isDigit = true) : isDecimalDigit c = true := by
  have range : '0'.toNat ≤ c.toNat ∧ c.toNat ≤ '9'.toNat := by
    simpa [Char.isDigit, UInt32.le_iff_toNat_le] using h
  simp only [isDecimalDigit, inRanges, decimalDigitRanges, List.any_cons]
  rw [Bool.or_eq_true]
  left
  simpa using range

theorem isDigit_toDigits (n : Nat) : ∀ c ∈ Nat.toDigits 10 n, c.isDigit = true :=
  fun _ member => Nat.isDigit_of_mem_toDigits (by omega) (by omega) member

theorem numeralBelow?_toDigits {n bound : Nat} (h : n < bound) :
    numeralBelow? bound (Nat.toDigits 10 n) = some n := by
  have value : numeralValue (Nat.toDigits 10 n) = n := Nat.ofDigitChars_ten_toDigits
  have digits : (Nat.toDigits 10 n).all Char.isDigit = true := by
    rw [List.all_eq_true]
    exact isDigit_toDigits n
  simp only [numeralBelow?, value, digits, h]
  simp [Nat.toDigits_ne_nil]

theorem numeralBelow?_eq_some {bound n : Nat} {s : List Char} :
    numeralBelow? bound s = some n ↔
      s ≠ [] ∧ (∀ c ∈ s, c.isDigit = true) ∧ numeralValue s < bound ∧ n = numeralValue s := by
  unfold numeralBelow?
  split
  · next h =>
    simp only [Bool.and_eq_true, Bool.not_eq_true', List.isEmpty_eq_false_iff, List.all_eq_true,
      decide_eq_true_eq] at h
    obtain ⟨⟨some, digits⟩, below⟩ := h
    constructor
    · intro value
      exact ⟨some, digits, below, (Option.some.inj value).symm⟩
    · rintro ⟨-, -, -, rfl⟩
      rfl
  · next h =>
    constructor
    · intro none
      cases none
    · rintro ⟨some, digits, below, -⟩
      refine absurd ?_ h
      simp only [Bool.and_eq_true, Bool.not_eq_true', List.isEmpty_eq_false_iff,
        List.all_eq_true, decide_eq_true_eq]
      exact ⟨⟨some, digits⟩, below⟩

theorem trimEnd_append_cons (before after : List Char) {c : Char} (h : isBlank c = false) :
    trimEnd (before ++ c :: after) = before ++ c :: trimEnd after := by
  have last : ∀ d, (before ++ [c]).getLast? = some d → isBlank d = false := by
    intro d same
    rw [List.getLast?_concat] at same
    cases same
    exact h
  have cut := dropEndWhile_append last after
  rwa [List.append_assoc, List.append_assoc] at cut

/-! ## Pieces -/

theorem splitOn_ne_nil (sep : Char) (s : List Char) : splitOn sep s ≠ [] := by
  cases s with
  | nil => simp [splitOn]
  | cons c rest =>
    rw [splitOn]
    split
    · simp
    · split <;> simp

theorem splitOn_append_cons (sep : Char) (front rest : List Char) :
    splitOn sep (front ++ sep :: rest) = splitOn sep front ++ splitOn sep rest := by
  induction front with
  | nil => simp [splitOn]
  | cons c front ih =>
    rw [List.cons_append, splitOn, ih, splitOn]
    split
    · rfl
    · cases pieces : splitOn sep front with
      | nil => exact absurd pieces (splitOn_ne_nil sep front)
      | cons piece pieces => rfl

theorem notMem_of_mem_splitOn {sep : Char} {s piece : List Char} (h : piece ∈ splitOn sep s) :
    sep ∉ piece := by
  induction s generalizing piece with
  | nil =>
    rw [splitOn, List.mem_singleton] at h
    simp [h]
  | cons c rest ih =>
    rw [splitOn] at h
    split at h
    · rcases List.mem_cons.1 h with rfl | later
      · exact List.not_mem_nil
      · exact ih later
    · next other =>
      cases pieces : splitOn sep rest with
      | nil => exact absurd pieces (splitOn_ne_nil sep rest)
      | cons first pieces' =>
        simp only [pieces, List.mem_cons] at h ih
        rcases h with rfl | later
        · rw [List.mem_cons, not_or]
          exact ⟨Ne.symm other, ih (.inl rfl)⟩
        · exact ih (.inr later)

theorem mem_of_mem_splitOn {sep c : Char} {s piece : List Char} (h : piece ∈ splitOn sep s)
    (member : c ∈ piece) : c ∈ s := by
  induction s generalizing piece with
  | nil =>
    rw [splitOn, List.mem_singleton] at h
    simp [h] at member
  | cons d rest ih =>
    rw [splitOn] at h
    split at h
    · rcases List.mem_cons.1 h with rfl | later
      · cases member
      · exact List.mem_cons_of_mem _ (ih later member)
    · cases cut : splitOn sep rest with
      | nil => exact absurd cut (splitOn_ne_nil sep rest)
      | cons p ps =>
        simp only [cut] at h ih
        rcases List.mem_cons.1 h with rfl | later
        · rcases List.mem_cons.1 member with rfl | inside
          · exact List.mem_cons_self
          · exact List.mem_cons_of_mem _ (ih List.mem_cons_self inside)
        · exact List.mem_cons_of_mem _ (ih (List.mem_cons_of_mem _ later) member)

theorem splitOn_of_notMem {sep : Char} {s : List Char} (h : sep ∉ s) : splitOn sep s = [s] := by
  induction s with
  | nil => rfl
  | cons c rest ih =>
    rw [List.mem_cons, not_or] at h
    rw [splitOn, if_neg (Ne.symm h.1), ih h.2]

/-! ## Lines -/

theorem lines_cons {c : Char} {rest : List Char} (inside : c ≠ '\n')
    (single : c = '\r' → rest.head? ≠ some '\n') :
    lines (c :: rest) = ((lines rest).head?.getD []).cons c :: (lines rest).tail := by
  rw [lines.eq_4 c rest inside]
  · cases lines rest <;> rfl
  · rintro tail rfl rfl
    simp at single

theorem lines_ne_nil {s : List Char} (h : s ≠ []) : lines s ≠ [] := by
  unfold lines
  split
  · exact absurd rfl h
  · simp
  · simp
  · split <;> simp

theorem newline_notMem_of_mem_lines {s line : List Char} (h : line ∈ lines s) : '\n' ∉ line := by
  fun_induction lines s generalizing line with
  | case1 => cases h
  | case2 rest ih | case3 rest ih =>
    rcases List.mem_cons.1 h with rfl | later
    · exact List.not_mem_nil
    · exact ih later
  | case4 c rest inside =>
    rw [List.mem_singleton] at h
    simpa [h] using Ne.symm inside
  | case5 c rest inside _ first others split ih =>
    rw [split] at ih
    rcases List.mem_cons.1 h with rfl | later
    · rw [List.mem_cons, not_or]
      exact ⟨Ne.symm inside, ih List.mem_cons_self⟩
    · exact ih (List.mem_cons_of_mem _ later)

theorem isPrefix_of_head?_lines {s line : List Char} (h : (lines s).head? = some line) :
    line <+: s := by
  fun_induction lines s generalizing line with
  | case1 => cases h
  | case2 rest | case3 rest =>
    obtain rfl : [] = line := by simpa using h
    exact List.nil_prefix
  | case4 c rest =>
    obtain rfl : [c] = line := by simpa using h
    exact ⟨rest, rfl⟩
  | case5 c rest _ _ first others split ih =>
    obtain rfl : c :: first = line := by simpa using h
    rw [List.prefix_cons_inj]
    exact ih (by rw [split]; rfl)

theorem isInfix_of_mem_lines {s line : List Char} (h : line ∈ lines s) : line <:+: s := by
  fun_induction lines s generalizing line with
  | case1 => cases h
  | case2 rest ih =>
    rcases List.mem_cons.1 h with rfl | later
    · exact List.nil_infix
    · exact List.infix_cons (ih later)
  | case3 rest ih =>
    rcases List.mem_cons.1 h with rfl | later
    · exact List.nil_infix
    · exact List.infix_cons (List.infix_cons (ih later))
  | case4 c rest =>
    obtain rfl := List.mem_singleton.1 h
    exact List.IsPrefix.isInfix ⟨rest, rfl⟩
  | case5 c rest _ _ first others split ih =>
    rcases List.mem_cons.1 h with rfl | later
    · have start : first <+: rest := isPrefix_of_head?_lines (by rw [split]; rfl)
      exact ((List.prefix_cons_inj c).2 start).isInfix
    · exact List.infix_cons (ih (by rw [split]; exact List.mem_cons_of_mem _ later))

theorem lines_append_newline (a b : List Char) :
    lines (a ++ '\n' :: b) = lines (a ++ ['\n']) ++ lines b := by
  induction a with
  | nil => simp [lines]
  | cons c a ih =>
    by_cases ends : c = '\n'
    · simp [ends, lines, ih]
    · by_cases pair : c = '\r' ∧ (a ++ ['\n']).head? = some '\n'
      · obtain ⟨rfl, next⟩ := pair
        cases a with
        | nil => simp [lines]
        | cons d a =>
          obtain rfl : d = '\n' := by simpa using next
          simpa [lines] using ih
      · have single : c = '\r' → (a ++ ['\n']).head? ≠ some '\n' := fun cr next => pair ⟨cr, next⟩
        have single' : c = '\r' → (a ++ '\n' :: b).head? ≠ some '\n' := by
          cases a <;> simpa using single
        have some : lines (a ++ ['\n']) ≠ [] := lines_ne_nil (by simp)
        rw [List.cons_append, List.cons_append, lines_cons ends single, lines_cons ends single', ih]
        cases first : lines (a ++ ['\n']) with
        | nil => exact absurd first some
        | cons l ls => simp

theorem lines_single {s : List Char} (plain : '\n' ∉ s ∧ '\r' ∉ s) :
    lines (s ++ ['\n']) = [s] := by
  induction s with
  | nil => rfl
  | cons c s ih =>
    simp only [List.mem_cons, not_or] at plain
    have inside : c ≠ '\n' := Ne.symm plain.1.1
    rw [List.cons_append, lines_cons inside fun cr => absurd cr.symm plain.2.1,
      ih ⟨plain.1.2, plain.2.2⟩]
    rfl

theorem lines_of_notMem {s : List Char} (single : '\n' ∉ s) (some : s ≠ []) : lines s = [s] := by
  induction s with
  | nil => exact absurd rfl some
  | cons c s ih =>
    rw [List.mem_cons, not_or] at single
    have next : c = '\r' → s.head? ≠ Option.some '\n' := by
      intro _ first
      exact single.2 (List.mem_of_mem_head? first)
    rw [lines_cons (Ne.symm single.1) next]
    cases s with
    | nil => rfl
    | cons d s =>
      rw [ih single.2 (List.cons_ne_nil d s)]
      rfl

theorem lines_flatMap (texts : List (List Char)) :
    lines (texts.flatMap (· ++ ['\n'])) = texts.flatMap fun s => lines (s ++ ['\n']) := by
  induction texts with
  | nil => rfl
  | cons s texts ih =>
    rw [List.flatMap_cons, List.flatMap_cons, ← ih, List.append_assoc, List.singleton_append,
      lines_append_newline]

/-- A separator between texts and one more at the end. -/
theorem intercalate_concat (sep : List Char) {texts : List (List Char)} (some : texts ≠ []) :
    sep.intercalate texts ++ sep = texts.flatMap (· ++ sep) := by
  induction texts with
  | nil => exact absurd rfl some
  | cons s texts ih =>
    cases texts with
    | nil => simp
    | cons s' texts => rw [List.intercalate_cons_cons, List.flatMap_cons, ← ih (by simp)]; simp

end ScriptJar.Text

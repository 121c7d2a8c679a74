import Mathlib.Data.List.TakeWhile
import ScriptJar.Build.Diagnostic
import ScriptJar.Proofs.TextFacts

/-! # Lines that point at a place

Which lines of the compiler are diagnostics, and what they say.  The form is a relation between
a text and the file and the digits of a line number that stand at its beginning.  A text may
have it with several files; the shortest one counts, and whether its digits are those of a
number decides about the line as a whole.

* `Diagnostic.Form`, `Diagnostic.Shortest` — the form, and the file that counts;
* `Diagnostic.lineDigits?_eq_some` — what may follow the file;
* `Diagnostic.locate?_cons` — one step of the search for a file;
* `Diagnostic.locate?_eq_some` — the file that is found is the shortest;
* `Diagnostic.parse?_eq_some` — the lines that are diagnostics;
* `Diagnostic.parse?_located` — a line `F.java:N: error…` is read back.
-/

namespace ScriptJar.Diagnostic

open Text

/-! ## Numbers, columns and the word `error` -/

/-- A run of decimal digits, of any script. -/
structure IsNumber (digits : List Char) : Prop where
  some : digits ≠ []
  all : ∀ c ∈ digits, isDecimalDigit c = true

/-- A column with its colon, or nothing. -/
inductive IsColumn : List Char → Prop where
  | absent : IsColumn []
  | present {digits : List Char} : IsNumber digits → IsColumn (digits ++ [':'])

/-- What follows the file and a colon: the number of the line and a colon, perhaps a column,
    perhaps blanks, and the word `error`. -/
inductive Tail (digits : List Char) : List Char → Prop where
  | mk {column blanks : List Char} (message : List Char) :
      IsNumber digits → IsColumn column → (∀ c ∈ blanks, isBlank c = true) →
      Tail digits (digits ++ ':' :: (column ++ (blanks ++ ("error".toList ++ message))))

variable {s rest digits digits' : List Char} {c : Char}

theorem takeNumber?_eq_some :
    takeNumber? s = some (digits, rest) ↔ IsNumber digits ∧ s = digits ++ ':' :: rest := by
  constructor
  · intro taken
    have whole := List.takeWhile_append_dropWhile (p := isDecimalDigit) (l := s)
    have all : ∀ c ∈ s.takeWhile isDecimalDigit, isDecimalDigit c = true := fun c member =>
      List.mem_takeWhile_imp member
    unfold takeNumber? at taken
    split at taken
    · cases taken
    · next after some =>
      cases taken
      rw [after] at whole
      exact ⟨⟨some, all⟩, whole.symm⟩
    · cases taken
  · rintro ⟨number, rfl⟩
    have colon : isDecimalDigit ':' = false := by decide
    unfold takeNumber?
    rw [List.takeWhile_append_of_pos number.all, List.dropWhile_append_of_pos number.all,
      List.takeWhile_cons_of_neg (by simp [colon]), List.dropWhile_cons_of_neg (by simp [colon]),
      List.append_nil]
    cases digits with
    | nil => exact absurd rfl number.some
    | cons c digits => rfl

theorem takeNumber?_of_head (other : isDecimalDigit c = false) : takeNumber? (c :: s) = none := by
  simp [takeNumber?, other]

theorem isError_iff : isError s = true ↔
    ∃ blanks message, (∀ c ∈ blanks, isBlank c = true) ∧
      s = blanks ++ ("error".toList ++ message) := by
  rw [isError, List.isPrefixOf_iff_prefix]
  constructor
  · rintro ⟨message, whole⟩
    refine ⟨s.takeWhile isBlank, message, fun c member => List.mem_takeWhile_imp member, ?_⟩
    rw [whole]
    exact List.takeWhile_append_dropWhile.symm
  · rintro ⟨blanks, message, all, rfl⟩
    have solid : isBlank 'e' = false := by decide
    have start : "error".toList ++ message = 'e' :: ("rror".toList ++ message) := rfl
    rw [trimStart, List.dropWhile_append_of_pos all, start,
      List.dropWhile_cons_of_neg (by simp [solid]), ← start]
    exact List.prefix_append _ _

/-- Neither a blank nor the word `error` begins a column. -/
theorem takeNumber?_error {blanks : List Char} (all : ∀ c ∈ blanks, isBlank c = true)
    (message : List Char) : takeNumber? (blanks ++ ("error".toList ++ message)) = none := by
  cases blanks with
  | nil => exact takeNumber?_of_head (s := "rror".toList ++ message) (by decide)
  | cons c blanks =>
    exact takeNumber?_of_head (isDecimalDigit_of_isBlank (all c List.mem_cons_self))

theorem lineDigits?_eq_some : lineDigits? s = some digits ↔ Tail digits s := by
  constructor
  · intro found
    unfold lineDigits? at found
    cases taken : takeNumber? s with
    | none => simp [taken] at found
    | some pair =>
      obtain ⟨number, after⟩ := pair
      obtain ⟨isNumber, rfl⟩ := takeNumber?_eq_some.1 taken
      simp only [taken] at found
      cases column : takeNumber? after with
      | none =>
        simp only [column, Option.ite_none_right_eq_some, Option.some.injEq] at found
        obtain ⟨error, rfl⟩ := found
        obtain ⟨blanks, message, all, rfl⟩ := isError_iff.1 error
        exact .mk message isNumber .absent all
      | some pair =>
        obtain ⟨place, afterColumn⟩ := pair
        obtain ⟨isPlace, rfl⟩ := takeNumber?_eq_some.1 column
        simp only [column, Option.ite_none_right_eq_some, Option.some.injEq] at found
        obtain ⟨error, rfl⟩ := found
        obtain ⟨blanks, message, all, rfl⟩ := isError_iff.1 error
        have tail := Tail.mk message isNumber (.present isPlace) all
        rwa [List.append_assoc, List.singleton_append] at tail
  · intro tail
    cases tail with
    | @mk column blanks message isNumber isColumn all =>
      have error : isError (blanks ++ ("error".toList ++ message)) = true :=
        isError_iff.2 ⟨blanks, message, all, rfl⟩
      unfold lineDigits?
      rw [takeNumber?_eq_some.2 ⟨isNumber, rfl⟩]
      cases isColumn with
      | absent =>
        simp only [List.nil_append, takeNumber?_error all, error, if_true]
      | present isPlace =>
        rw [List.append_assoc, List.singleton_append]
        simp only [takeNumber?_eq_some.2 ⟨isPlace, rfl⟩, error, if_true]

/-! ## The search for a file -/

/-- The rest of the form follows `front` in a text; `before` is what was passed already. -/
structure Fits (before front digits s : List Char) : Prop where
  named : before ≠ [] ∨ front ≠ []
  oneLine : '\n' ∉ front
  follows : ∃ rest, s = front ++ (".java:".toList ++ rest) ∧ Tail digits rest

variable {before front file file' text : List Char}

theorem Fits.cons_iff {d : Char} : Fits before (d :: front) digits (c :: s) ↔
    d = c ∧ c ≠ '\n' ∧ Fits (c :: before) front digits s := by
  constructor
  · rintro ⟨-, oneLine, rest, whole, tail⟩
    rw [List.mem_cons, not_or] at oneLine
    obtain ⟨rfl, later⟩ := List.cons.inj whole
    exact ⟨rfl, Ne.symm oneLine.1, .inl (List.cons_ne_nil _ _), oneLine.2, rest, later, tail⟩
  · rintro ⟨rfl, other, -, oneLine, rest, rfl, tail⟩
    refine ⟨.inr (List.cons_ne_nil _ _), ?_, rest, rfl, tail⟩
    rw [List.mem_cons, not_or]
    exact ⟨Ne.symm other, oneLine⟩

/-- Either the form fits here, and the file ends here, or the search goes on behind the next
    character of the line. -/
theorem locate?_cons (before : List Char) (c : Char) (s : List Char) :
    (∃ digits, Fits before [] digits (c :: s) ∧
      locate? before (c :: s) = some (before.reverse ++ ".java".toList, digits)) ∨
    ((∀ digits, ¬ Fits before [] digits (c :: s)) ∧
      locate? before (c :: s) = if c = '\n' then none else locate? (c :: before) s) := by
  rw [locate?]
  cases hit : after? ".java:".toList (c :: s) with
  | none =>
    refine .inr ⟨fun digits fits => ?_, by simp only⟩
    obtain ⟨rest, whole, -⟩ := fits.follows
    rw [List.nil_append, ← after?_eq_some, hit] at whole
    cases whole
  | some rest =>
    have whole := after?_eq_some.1 hit
    cases before with
    | nil =>
      refine .inr ⟨fun digits fits => ?_, by simp only [List.isEmpty_nil, if_true]⟩
      simpa using fits.named
    | cons b before =>
      simp only [List.isEmpty_cons, Bool.false_eq_true, if_false]
      cases found : lineDigits? rest with
      | none =>
        refine .inr ⟨fun digits fits => ?_, rfl⟩
        obtain ⟨rest', whole', tail⟩ := fits.follows
        obtain rfl : rest = rest' := List.append_cancel_left (whole.symm.trans whole')
        rw [lineDigits?_eq_some.2 tail] at found
        cases found
      | some digits =>
        refine .inl ⟨digits, ⟨.inl (List.cons_ne_nil _ _), by simp, rest, whole, ?_⟩, rfl⟩
        exact lineDigits?_eq_some.1 found

theorem locate?_fits (h : locate? before s = some (file, digits)) :
    ∃ front, file = before.reverse ++ (front ++ ".java".toList) ∧ Fits before front digits s ∧
      ∀ front' digits', Fits before front' digits' s → front.length ≤ front'.length := by
  induction s generalizing before with
  | nil => cases h
  | cons c s ih =>
    rcases locate?_cons before c s with ⟨digits', fits, found⟩ | ⟨nothing, next⟩
    · cases found.symm.trans h
      exact ⟨[], rfl, fits, fun _ _ _ => Nat.zero_le _⟩
    · rw [next] at h
      by_cases ends : c = '\n'
      · rw [if_pos ends] at h
        cases h
      · rw [if_neg ends] at h
        obtain ⟨front, rfl, fits, least⟩ := ih h
        refine ⟨c :: front, by simp, Fits.cons_iff.2 ⟨rfl, ends, fits⟩, ?_⟩
        intro front' digits' fits'
        cases front' with
        | nil => exact absurd fits' (nothing digits')
        | cons d front' =>
          obtain ⟨rfl, -, later⟩ := Fits.cons_iff.1 fits'
          exact Nat.succ_le_succ (least front' digits' later)

theorem isSome_locate? (fits : Fits before front digits s) : (locate? before s).isSome = true := by
  induction s generalizing before front with
  | nil =>
    obtain ⟨rest, whole, -⟩ := fits.follows
    simp at whole
  | cons c s ih =>
    rcases locate?_cons before c s with ⟨digits', -, found⟩ | ⟨nothing, next⟩
    · rw [found]
      rfl
    · cases front with
      | nil => exact absurd fits (nothing digits)
      | cons d front =>
        obtain ⟨rfl, other, later⟩ := Fits.cons_iff.1 fits
        rw [next, if_neg other]
        exact ih later

/-! ## The shortest file -/

/-- A text begins with a file and a colon, then comes the rest of the form. -/
structure Form (file digits text : List Char) : Prop where
  name : ∃ name, name ≠ [] ∧ file = name ++ ".java".toList
  oneLine : '\n' ∉ file
  follows : ∃ rest, text = file ++ ':' :: rest ∧ Tail digits rest

/-- No other file for which a text has the form is shorter. -/
structure Shortest (file digits text : List Char) : Prop where
  form : Form file digits text
  least : ∀ file' digits', Form file' digits' text → file.length ≤ file'.length

theorem form_iff : Form file digits text ↔
    ∃ front, file = front ++ ".java".toList ∧ Fits [] front digits text := by
  constructor
  · rintro ⟨⟨name, some, rfl⟩, oneLine, rest, rfl, tail⟩
    refine ⟨name, rfl, .inr some, fun member => ?_, rest, by simp, tail⟩
    exact oneLine (List.mem_append_left _ member)
  · rintro ⟨front, rfl, named, oneLine, rest, rfl, tail⟩
    refine ⟨⟨front, by simpa using named, rfl⟩, ?_, rest, by simp, tail⟩
    rw [List.mem_append, not_or]
    exact ⟨oneLine, by decide⟩

theorem Shortest.unique (h : Shortest file digits text) (h' : Shortest file' digits' text) :
    file = file' ∧ digits = digits' := by
  obtain ⟨rest, whole, tail⟩ := h.form.follows
  obtain ⟨rest', whole', tail'⟩ := h'.form.follows
  have length := Nat.le_antisymm (h.least _ _ h'.form) (h'.least _ _ h.form)
  obtain ⟨rfl, same⟩ := List.append_inj (whole.symm.trans whole') length
  obtain rfl : rest = rest' := (List.cons.inj same).2
  have found := (lineDigits?_eq_some.2 tail).symm.trans (lineDigits?_eq_some.2 tail')
  exact ⟨rfl, Option.some.inj found⟩

theorem shortest_of_locate? (h : locate? [] text = some (file, digits)) :
    Shortest file digits text := by
  obtain ⟨front, rfl, fits, least⟩ := locate?_fits h
  refine ⟨form_iff.2 ⟨front, rfl, fits⟩, fun file' digits' form => ?_⟩
  obtain ⟨front', rfl, fits'⟩ := form_iff.1 form
  have shorter := least front' digits' fits'
  rw [List.reverse_nil, List.nil_append, List.length_append, List.length_append]
  omega

theorem locate?_eq_some : locate? [] text = some (file, digits) ↔ Shortest file digits text := by
  refine ⟨shortest_of_locate?, fun shortest => ?_⟩
  obtain ⟨front, -, fits⟩ := form_iff.1 shortest.form
  obtain ⟨⟨file', digits'⟩, found⟩ := Option.isSome_iff_exists.1 (isSome_locate? fits)
  obtain ⟨rfl, rfl⟩ := shortest.unique (shortest_of_locate? found)
  exact found

/-- A file without a colon is the shortest, since each file ends before a colon. -/
theorem Form.shortest (form : Form file digits text) (plain : ':' ∉ file) :
    Shortest file digits text := by
  refine ⟨form, fun file' digits' form' => Nat.le_of_not_lt fun shorter => ?_⟩
  obtain ⟨rest, whole, -⟩ := form.follows
  obtain ⟨rest', whole', -⟩ := form'.follows
  have colon : text[file'.length]? = some ':' := by rw [whole']; simp
  rw [whole, List.getElem?_append_left shorter] at colon
  exact plain (List.mem_of_getElem? colon)

/-! ## Diagnostics -/

theorem parse?_eq_some {line : String} {d : Diagnostic} :
    parse? line = some d ↔
      ∃ file digits, Shortest file digits (trimEnd line.toList) ∧
        (∀ c ∈ digits, c.isDigit = true) ∧ numeralValue digits < wordBound ∧
        d = ⟨⟨String.ofList file⟩, numeralValue digits, line⟩ := by
  unfold parse?
  constructor
  · intro parsed
    cases found : locate? [] (trimEnd line.toList) with
    | none => simp [found] at parsed
    | some pair =>
      obtain ⟨file, digits⟩ := pair
      simp only [found, Option.map_eq_some_iff] at parsed
      obtain ⟨n, number, rfl⟩ := parsed
      obtain ⟨-, ascii, below, rfl⟩ := numeralBelow?_eq_some.1 number
      exact ⟨file, digits, locate?_eq_some.1 found, ascii, below, rfl⟩
  · rintro ⟨file, digits, shortest, ascii, below, rfl⟩
    have some : digits ≠ [] := by
      obtain ⟨rest, -, tail⟩ := shortest.form.follows
      cases tail with
      | mk _ isNumber => exact isNumber.some
    rw [locate?_eq_some.2 shortest]
    simp only [numeralBelow?_eq_some.2 ⟨some, ascii, below, rfl⟩, Option.map_some]

theorem tail_error (n : Nat) (message : List Char) :
    Tail (Nat.toDigits 10 n) (Nat.toDigits 10 n ++ ": error".toList ++ message) := by
  have number : IsNumber (Nat.toDigits 10 n) := ⟨Nat.toDigits_ne_nil, fun c member =>
    isDecimalDigit_of_isDigit (isDigit_toDigits n c member)⟩
  have blank : ∀ c ∈ [' '], isBlank c = true := List.forall_mem_singleton.2 (by decide)
  have tail := Tail.mk message number .absent blank
  rw [List.append_assoc]
  exact tail

/-- A line that points at a place is read back. -/
theorem parse?_located {path message : List Char} {n : Nat}
    (plain : ':' ∉ path ∧ '\n' ∉ path) (named : path ≠ []) (fits : n < wordBound) :
    parse? (String.ofList
        (path ++ ".java".toList ++ ':' :: Nat.toDigits 10 n ++ ": error".toList ++ message)) =
      some ⟨⟨String.ofList (path ++ ".java".toList)⟩, n, String.ofList
        (path ++ ".java".toList ++ ':' :: Nat.toDigits 10 n ++ ": error".toList ++ message)⟩ := by
  have stop : isBlank 'r' = false := by decide
  have trimmed : trimEnd (path ++ ".java".toList ++ ':' :: Nat.toDigits 10 n ++ ": error".toList
      ++ message) = path ++ ".java".toList ++ ':' :: (Nat.toDigits 10 n ++ ": error".toList
      ++ trimEnd message) := by
    have cut : path ++ ".java".toList ++ ':' :: Nat.toDigits 10 n ++ ": error".toList ++ message =
        (path ++ ".java".toList ++ ':' :: Nat.toDigits 10 n ++ ": erro".toList) ++ 'r' :: message := by
      simp
    rw [cut, trimEnd_append_cons _ _ stop]
    simp
  have free {c : Char} (absent : c ∉ path) (other : c ∉ ".java".toList) :
      c ∉ path ++ ".java".toList := by
    rw [List.mem_append, not_or]
    exact ⟨absent, other⟩
  have form : Form (path ++ ".java".toList) (Nat.toDigits 10 n) (trimEnd (path ++ ".java".toList
      ++ ':' :: Nat.toDigits 10 n ++ ": error".toList ++ message)) :=
    ⟨⟨path, named, rfl⟩, free plain.2 (by decide), _, trimmed, tail_error n (trimEnd message)⟩
  obtain ⟨-, ascii, below, value⟩ := numeralBelow?_eq_some.1 (numeralBelow?_toDigits fits)
  have shortest := form.shortest (free plain.1 (by decide))
  refine parse?_eq_some.2 ⟨_, _, ?_, ascii, below, by rw [← value]⟩
  simpa only [String.toList_ofList] using shortest

/-- A line is a diagnostic if and only if, without the blanks at its end, it has the form, and
    the digits after the shortest file are ASCII digits of a number below 2^64.  A line
    `F.java:N: error…` is one for every file without colons and line ends. -/
theorem parse?_shortest :
    (∀ line d, parse? line = some d ↔
      ∃ file digits, Shortest file digits (trimEnd line.toList) ∧
        (∀ c ∈ digits, c.isDigit = true) ∧ numeralValue digits < wordBound ∧
        d = ⟨⟨String.ofList file⟩, numeralValue digits, line⟩) ∧
    ∀ (file : String) (n : Nat) (message : String),
      (∃ name, name ≠ [] ∧ file.toList = name ++ ".java".toList) →
      ':' ∉ file.toList → '\n' ∉ file.toList → n < wordBound →
      parse? (file ++ ":" ++ numeral n ++ ": error" ++ message) =
        some ⟨⟨file⟩, n, file ++ ":" ++ numeral n ++ ": error" ++ message⟩ := by
  refine ⟨fun line d => parse?_eq_some, ?_⟩
  rintro file n message ⟨name, some, ends⟩ colon newline fits
  have line : file ++ ":" ++ numeral n ++ ": error" ++ message = String.ofList (name ++
      ".java".toList ++ ':' :: Nat.toDigits 10 n ++ ": error".toList ++ message.toList) := by
    rw [← String.toList_inj, ← ends]
    simp [numeral]
  have path : file = String.ofList (name ++ ".java".toList) := by
    rw [← ends, String.ofList_toList]
  rw [ends, List.mem_append, not_or] at colon newline
  rw [line, parse?_located ⟨colon.1, newline.1⟩ some fits, ← path]

theorem parse?_shortest_spaced :
    parse? "a b/F.java:18446744073709551615: error in G.java:7: error" =
      some ⟨⟨"a b/F.java"⟩, 18446744073709551615,
        "a b/F.java:18446744073709551615: error in G.java:7: error"⟩ :=
  parse?_shortest.2 "a b/F.java" 18446744073709551615 " in G.java:7: error"
    ⟨"a b/F".toList, by decide, by decide⟩ (by decide) (by decide) (by decide)

-- the shortest file has digits without a value, or of a number that is too large; no longer
-- file takes its place
example :
    parse? "F.java:٣: error in G.java:7: error" = none ∧
      parse? "F.java:18446744073709551616: error in G.java:7: error" = none := by
  decide +kernel

end ScriptJar.Diagnostic

import ScriptJar.Json.Reader
import ScriptJar.Proofs.TextFacts

/-! # The grammar of JSON

`Json.Spells` says which texts are a JSON value, without reference to the reader: any
blanks between the signs, any escapes in a string, values nested to any depth.  Whatever
a text spells is what the reader finds in it.

* `Json.readString_of_spells`, `Json.takeNumber?_of_spells` — the parts of a value;
* `Json.Spells.reads` — a value with something after it;
* `Json.read_of_spells` — a whole text.
-/

namespace ScriptJar.Json

/-! ## Strings -/

/-- The pieces that stand between the quotes of a string. -/
inductive SpellsPieces : List Char → List Piece → Prop where
  | nil : SpellsPieces [] []
  | plain {c : Char} {s : List Char} {ps : List Piece} : 0x20 ≤ c.toNat → c ≠ '"' → c ≠ '\\' →
      SpellsPieces s ps → SpellsPieces (c :: s) (.char c :: ps)
  | escape {e c : Char} {s : List Char} {ps : List Piece} : escaped? e = some c →
      SpellsPieces s ps → SpellsPieces ('\\' :: e :: s) (.char c :: ps)
  | unit {a b c d : Char} {n : Nat} {s : List Char} {ps : List Piece} :
      hexUnit? a b c d = some n →
      SpellsPieces s ps → SpellsPieces ('\\' :: 'u' :: a :: b :: c :: d :: s) (.unit n :: ps)

theorem readString_of_spells {s : List Char} {ps : List Piece} (h : SpellsPieces s ps)
    (rest : List Char) : readString (s ++ '"' :: rest) = some (ps, rest) := by
  induction h with
  | nil => rfl
  | @plain c s ps visible noQuote noBackslash _ ih =>
    have low : ¬ c.toNat < 0x20 := by omega
    simp [readString, noBackslash, low, ih]
  | @escape e c s ps named _ ih =>
    -- `\u` names no character, so this is not the beginning of a unit
    have other : e ≠ 'u' := by
      rintro rfl
      simp [escaped?] at named
    simp [readString, other, named, ih]
  | unit value _ ih => simp [readString, value, ih]

/-! ## Numbers -/

def IsDigits (ds : List Char) : Prop :=
  ds ≠ [] ∧ ∀ c ∈ ds, c.isDigit = true

def IsWhole (ds : List Char) : Prop :=
  IsDigits ds ∧ (ds.head? = some '0' → ds = ['0'])

def IsFraction (s : List Char) : Prop :=
  s = [] ∨ ∃ ds, IsDigits ds ∧ s = '.' :: ds

def IsExponent (s : List Char) : Prop :=
  s = [] ∨ ∃ c sign ds, (c = 'e' ∨ c = 'E') ∧ (sign = [] ∨ sign = ['+'] ∨ sign = ['-']) ∧
    IsDigits ds ∧ s = c :: (sign ++ ds)

/-- A number as it is written. -/
inductive SpellsNumber : List Char → Prop where
  | positive {whole fraction exponent : List Char} : IsWhole whole → IsFraction fraction →
      IsExponent exponent → SpellsNumber (whole ++ (fraction ++ exponent))
  | negative {whole fraction exponent : List Char} : IsWhole whole → IsFraction fraction →
      IsExponent exponent → SpellsNumber ('-' :: (whole ++ (fraction ++ exponent)))

theorem SpellsNumber.head {s : List Char} (h : SpellsNumber s) :
    ∃ c s', s = c :: s' ∧ (c.isDigit = true ∨ c = '-') := by
  cases h with
  | @positive whole _ _ w =>
    cases whole with
    | nil => exact absurd rfl w.1.1
    | cons d whole => exact ⟨d, _, rfl, .inl (w.1.2 d (by simp))⟩
  | negative => exact ⟨_, _, rfl, .inr rfl⟩

/-- No digit comes first. -/
def NoDigit (s : List Char) : Prop :=
  ∀ c, s.head? = some c → c.isDigit = false

/-- Nothing comes first that a number could go on with. -/
def Stops (s : List Char) : Prop :=
  ∀ c, s.head? = some c → c.isDigit = false ∧ c ≠ '.' ∧ c ≠ 'e' ∧ c ≠ 'E'

theorem takeDigits?_append {ds rest : List Char} (h : IsDigits ds) (ends : NoDigit rest) :
    takeDigits? (ds ++ rest) = some (ds, rest) := by
  have front : rest.takeWhile Char.isDigit = [] ∧ rest.dropWhile Char.isDigit = rest := by
    cases rest with
    | nil => exact ⟨rfl, rfl⟩
    | cons c rest => simp [ends c rfl]
  have some : ds.isEmpty = false := by simpa using h.1
  simp [takeDigits?, List.takeWhile_append_of_pos h.2, List.dropWhile_append_of_pos h.2, front,
    some]

theorem takeInteger?_append {ds rest : List Char} (h : IsWhole ds) (ends : NoDigit rest) :
    takeInteger? (ds ++ rest) = some (ds, rest) := by
  rw [takeInteger?, takeDigits?_append h.1 ends]
  split
  · next zeros =>
    cases zeros
    exact absurd (h.2 rfl) (by simp)
  · rfl

theorem takeFraction?_append {s rest : List Char} (h : IsFraction s) (ends : NoDigit rest)
    (point : rest.head? ≠ some '.') : takeFraction? (s ++ rest) = some (s, rest) := by
  rcases h with rfl | ⟨ds, digits, rfl⟩
  · cases rest with
    | nil => rfl
    | cons c rest =>
      have other : c ≠ '.' := by simpa using point
      simp [takeFraction?, other]
  · simp [takeFraction?, takeDigits?_append digits ends]

theorem takeSign_append {sign ds : List Char} (h : sign = [] ∨ sign = ['+'] ∨ sign = ['-'])
    (digits : IsDigits ds) (rest : List Char) :
    takeSign (sign ++ (ds ++ rest)) = (sign, ds ++ rest) := by
  rcases h with rfl | rfl | rfl
  · cases ds with
    | nil => exact absurd rfl digits.1
    | cons d ds =>
      have digit : d.isDigit = true := digits.2 d (by simp)
      have other : d ≠ '+' ∧ d ≠ '-' := by
        constructor <;> (rintro rfl; exact absurd digit (by decide))
      simp [takeSign, other]
  · rfl
  · rfl

theorem takeExponent?_append {s rest : List Char} (h : IsExponent s) (ends : Stops rest) :
    takeExponent? (s ++ rest) = some (s, rest) := by
  rcases h with rfl | ⟨c, sign, ds, mark, signed, digits, rfl⟩
  · cases rest with
    | nil => rfl
    | cons c rest =>
      obtain ⟨-, -, lower, upper⟩ := ends c rfl
      simp [takeExponent?, lower, upper]
  · have taken := takeDigits?_append digits fun c first => (ends c first).1
    simp [takeExponent?, mark, takeSign_append signed digits, taken]

theorem IsExponent.noDigit {s rest : List Char} (h : IsExponent s) (ends : Stops rest) :
    NoDigit (s ++ rest) ∧ (s ++ rest).head? ≠ some '.' := by
  rcases h with rfl | ⟨c, sign, ds, mark, -, -, rfl⟩
  · exact ⟨fun c first => (ends c first).1, fun point => (ends _ point).2.1 rfl⟩
  · rcases mark with rfl | rfl <;> simp [NoDigit]

theorem IsFraction.noDigit {s rest : List Char} (h : IsFraction s) (ends : NoDigit rest) :
    NoDigit (s ++ rest) := by
  rcases h with rfl | ⟨ds, -, rfl⟩
  · exact ends
  · simp [NoDigit]

theorem takeUnsigned?_append {whole fraction exponent rest : List Char} (w : IsWhole whole)
    (f : IsFraction fraction) (e : IsExponent exponent) (ends : Stops rest) :
    takeUnsigned? (whole ++ (fraction ++ exponent) ++ rest) =
      some (whole ++ (fraction ++ exponent), rest) := by
  obtain ⟨noDigit, noPoint⟩ := e.noDigit ends
  have first := takeInteger?_append w (f.noDigit noDigit)
  have second := takeFraction?_append f noDigit noPoint
  have third := takeExponent?_append e ends
  rw [List.append_assoc, List.append_assoc, takeUnsigned?, first]
  simp [second, third]

theorem takeNumber?_of_spells {s rest : List Char} (h : SpellsNumber s) (ends : Stops rest) :
    takeNumber? (s ++ rest) = some (s, rest) := by
  cases h with
  | @positive whole fraction exponent w f e =>
    have taken := takeUnsigned?_append w f e ends
    cases whole with
    | nil => exact absurd rfl w.1.1
    | cons d whole =>
      have other : d ≠ '-' := by
        rintro rfl
        exact absurd (w.1.2 '-' (by simp)) (by decide)
      simpa [takeNumber?, other] using taken
  | negative w f e => simpa [takeNumber?] using takeUnsigned?_append w f e ends

/-! ## Values -/

def Blanks (s : List Char) : Prop :=
  ∀ c ∈ s, isSpace c = true

instance (s : List Char) : Decidable (Blanks s) :=
  decidable_of_iff (s.all isSpace = true) List.all_eq_true

mutual

/-- The texts of a value, without blanks around them. -/
inductive Spells : List Char → Json → Prop where
  | word {word : String} {value : Json} : (word, value) ∈ words → Spells word.toList value
  | number {s : List Char} : SpellsNumber s → Spells s (.number s)
  | string {s : List Char} {ps : List Piece} : SpellsPieces s ps →
      Spells ('"' :: (s ++ ['"'])) (.string ((textOf? ps).map String.ofList))
  | emptyArray {b : List Char} : Blanks b → Spells ('[' :: (b ++ [']'])) (.array [])
  | array {s : List Char} {items : List Json} : SpellsItems s items →
      Spells ('[' :: (s ++ [']'])) (.array items)
  | emptyObject {b : List Char} : Blanks b → Spells ('{' :: (b ++ ['}'])) (.object [])
  | object {s : List Char} {members : List (Option String × Json)} : SpellsMembers s members →
      Spells ('{' :: (s ++ ['}'])) (.object members)

/-- What stands between the brackets of an array that is not empty. -/
inductive SpellsItems : List Char → List Json → Prop where
  | last {b s b' : List Char} {v : Json} : Blanks b → Spells s v → Blanks b' →
      SpellsItems (b ++ (s ++ b')) [v]
  | more {b s b' s' : List Char} {v : Json} {vs : List Json} : Blanks b → Spells s v →
      Blanks b' → SpellsItems s' vs → SpellsItems (b ++ (s ++ (b' ++ ',' :: s'))) (v :: vs)

/-- A member of an object: a name, a colon and a value. -/
inductive SpellsMember : List Char → Option String × Json → Prop where
  | intro {name b b' s : List Char} {ps : List Piece} {v : Json} : SpellsPieces name ps →
      Blanks b → Blanks b' → Spells s v →
      SpellsMember ('"' :: (name ++ '"' :: (b ++ ':' :: (b' ++ s))))
        ((textOf? ps).map String.ofList, v)

/-- What stands between the braces of an object that is not empty. -/
inductive SpellsMembers : List Char → List (Option String × Json) → Prop where
  | last {b s b' : List Char} {m : Option String × Json} : Blanks b → SpellsMember s m →
      Blanks b' → SpellsMembers (b ++ (s ++ b')) [m]
  | more {b s b' s' : List Char} {m : Option String × Json} {ms : List (Option String × Json)} :
      Blanks b → SpellsMember s m → Blanks b' → SpellsMembers s' ms →
      SpellsMembers (b ++ (s ++ (b' ++ ',' :: s'))) (m :: ms)

end

theorem skipSpace_append {b s : List Char} (blanks : Blanks b)
    (solid : ∀ c, s.head? = some c → isSpace c = false) : skipSpace (b ++ s) = s := by
  rw [skipSpace, List.dropWhile_append_of_pos blanks]
  cases s with
  | nil => rfl
  | cons c s => simp [solid c rfl]

theorem skipSpace_cons {b : List Char} {c : Char} (blanks : Blanks b) (solid : isSpace c = false)
    (rest : List Char) : skipSpace (b ++ c :: rest) = c :: rest :=
  skipSpace_append blanks (by simpa using solid)

/-- A value starts with a sign that is neither a blank nor the end of anything. -/
theorem Spells.head {s : List Char} {v : Json} (h : Spells s v) :
    ∃ c s', s = c :: s' ∧ isSpace c = false ∧ c ≠ ']' ∧ c ≠ '}' := by
  cases h with
  | word listed =>
    simp only [words, List.mem_cons, Prod.mk.injEq, List.not_mem_nil, or_false] at listed
    rcases listed with ⟨rfl, -⟩ | ⟨rfl, -⟩ | ⟨rfl, -⟩ <;>
      exact ⟨_, _, rfl, by decide, by decide, by decide⟩
  | number spelled =>
    obtain ⟨c, s', rfl, first⟩ := spelled.head
    refine ⟨c, s', rfl, ?_, ?_, ?_⟩
    · -- a digit or a minus is none of the four blanks
      cases blank : isSpace c with
      | false => rfl
      | true =>
        simp only [isSpace, Bool.or_eq_true, beq_iff_eq] at blank
        rcases blank with ((rfl | rfl) | rfl) | rfl <;> exact absurd first (by decide)
    · rintro rfl
      exact absurd first (by decide)
    · rintro rfl
      exact absurd first (by decide)
  | string | emptyArray | array | emptyObject | object =>
    exact ⟨_, _, rfl, by decide, by decide, by decide⟩

/-! ## Reading -/

theorem readText?_of_spells {s : List Char} {ps : List Piece} (h : SpellsPieces s ps)
    (rest : List Char) :
    readText? (s ++ '"' :: rest) = some ((textOf? ps).map String.ofList, rest) := by
  rw [readText?, readString_of_spells h]
  rfl

theorem readPlain_word {word : String} {value : Json} (listed : (word, value) ∈ words)
    (rest : List Char) : readPlain (word.toList ++ rest) = some (value, rest) := by
  simp only [words, List.mem_cons, Prod.mk.injEq, List.not_mem_nil, or_false] at listed
  rcases listed with ⟨rfl, rfl⟩ | ⟨rfl, rfl⟩ | ⟨rfl, rfl⟩ <;> rfl

theorem readPlain_number {s rest : List Char} (h : SpellsNumber s) (ends : Stops rest) :
    readPlain (s ++ rest) = some (.number s, rest) := by
  obtain ⟨c, s', whole, first⟩ := h.head
  have other (d : Char) (letter : d.isDigit = false ∧ d ≠ '-') : c ≠ d := by
    rintro rfl
    rcases first with digit | minus
    · rw [letter.1] at digit
      cases digit
    · exact letter.2 minus
  have absent (word : String) {d : Char} (head : word.toList.head? = some d)
      (letter : d.isDigit = false ∧ d ≠ '-') : Text.after? word.toList (s ++ rest) = none := by
    rw [whole]
    exact Text.after?_of_head word head (other d letter) (s' ++ rest)
  simp only [readPlain, words, List.findSome?_cons, List.findSome?_nil,
    absent "null" rfl (by decide), absent "true" rfl (by decide), absent "false" rfl (by decide),
    Option.map_none, takeNumber?_of_spells h ends, Option.map_some]

theorem readValue_plain {b s : List Char} {c : Char} (blanks : Blanks b)
    (solid : isSpace c = false) (plain : c ≠ '"' ∧ c ≠ '[' ∧ c ≠ '\x7b') (bound : Nat) :
    readValue (bound + 1) (b ++ c :: s) = readPlain (c :: s) := by
  rw [readValue, skipSpace_append blanks (by simpa using solid)]
  split
  · next same => exact absurd (List.cons.inj same).1 plain.1
  · next same => exact absurd (List.cons.inj same).1 plain.2.1
  · next same => exact absurd (List.cons.inj same).1 plain.2.2
  · rfl

theorem stops_sign {c : Char} (sign : c = ',' ∨ c = ']' ∨ c = '\x7d') (rest : List Char) :
    Stops (c :: rest) := by
  intro d first
  obtain rfl : c = d := by simpa using first
  rcases sign with rfl | rfl | rfl <;> decide

theorem Blanks.stops_append {b rest : List Char} (h : Blanks b) (ends : Stops rest) :
    Stops (b ++ rest) := by
  cases b with
  | nil => exact ends
  | cons e b =>
    intro d first
    obtain rfl : e = d := by simpa using first
    have blank : isSpace e = true := h e (by simp)
    simp only [isSpace, Bool.or_eq_true, beq_iff_eq] at blank
    rcases blank with ((rfl | rfl) | rfl) | rfl <;> decide

theorem SpellsItems.head {s : List Char} {vs : List Json} (h : SpellsItems s vs) :
    ∃ b c s', s = b ++ c :: s' ∧ Blanks b ∧ isSpace c = false ∧ c ≠ ']' := by
  cases h with
  | last blanks spelled | more blanks spelled =>
    obtain ⟨c, s', rfl, solid, open', -⟩ := spelled.head
    exact ⟨_, c, _, rfl, blanks, solid, open'⟩

theorem SpellsMembers.head {s : List Char} {ms : List (Option String × Json)}
    (h : SpellsMembers s ms) : ∃ b s', s = b ++ '"' :: s' ∧ Blanks b := by
  cases h with
  | last blanks spelled | more blanks spelled =>
    cases spelled
    exact ⟨_, _, rfl, blanks⟩

-- Every call inside another takes one off the bound, and there are at most three of them
-- for each sign of the text: the members call for a member, and that for its value.
mutual

theorem Spells.reads {s b : List Char} {v : Json} (h : Spells s v) (blanks : Blanks b)
    (rest : List Char) (ends : Stops rest) (bound : Nat) (enough : 3 * s.length ≤ bound + 2) :
    readValue bound (b ++ (s ++ rest)) = some (v, rest) := by
  obtain ⟨c, s', first, solid, -⟩ := h.head
  cases bound with
  | zero =>
    rw [first, List.length_cons] at enough
    omega
  | succ bound =>
    cases h with
    | word listed =>
      have plain : c ≠ '"' ∧ c ≠ '[' ∧ c ≠ '\x7b' := by
        simp only [words, List.mem_cons, Prod.mk.injEq, List.not_mem_nil, or_false] at listed
        rcases listed with ⟨rfl, -⟩ | ⟨rfl, -⟩ | ⟨rfl, -⟩ <;> cases first <;> decide
      rw [first, List.cons_append, readValue_plain blanks solid plain, ← List.cons_append, ← first]
      exact readPlain_word listed rest
    | number spelled =>
      have plain : c ≠ '"' ∧ c ≠ '[' ∧ c ≠ '\x7b' := by
        obtain ⟨d, _, same, digit⟩ := spelled.head
        obtain ⟨rfl, -⟩ := List.cons.inj (first.symm.trans same)
        refine ⟨?_, ?_, ?_⟩ <;> (rintro rfl; exact absurd digit (by decide))
      rw [first, List.cons_append, readValue_plain blanks solid plain, ← List.cons_append, ← first]
      exact readPlain_number spelled ends
    | string spelled =>
      rw [readValue, List.cons_append, skipSpace_cons blanks rfl]
      simp [readText?_of_spells spelled]
    | emptyArray inside =>
      rw [readValue, List.cons_append, skipSpace_cons blanks rfl]
      simp [skipSpace_cons (c := ']') inside rfl]
    | array spelled =>
      simp only [List.length_cons, List.length_append, List.length_nil] at enough
      have read := spelled.reads rest bound (by omega)
      -- a first item, not the end of the array
      obtain ⟨b', d, s', rfl, blanks', solid', goesOn⟩ := spelled.head
      rw [readValue, List.cons_append, skipSpace_cons blanks rfl]
      simp only [List.append_assoc, List.cons_append, List.nil_append] at read ⊢
      simp [skipSpace_cons blanks' solid', goesOn, read]
    | emptyObject inside =>
      rw [readValue, List.cons_append, skipSpace_cons blanks rfl]
      simp [skipSpace_cons (c := '\x7d') inside rfl]
    | object spelled =>
      simp only [List.length_cons, List.length_append, List.length_nil] at enough
      have read := spelled.reads rest bound (by omega)
      obtain ⟨b', s', rfl, blanks'⟩ := spelled.head
      rw [readValue, List.cons_append, skipSpace_cons blanks rfl]
      simp only [List.append_assoc, List.cons_append, List.nil_append] at read ⊢
      simp [skipSpace_cons (c := '"') blanks' rfl, read]

theorem SpellsItems.reads {s : List Char} {vs : List Json} (h : SpellsItems s vs)
    (rest : List Char) (bound : Nat) (enough : 3 * s.length ≤ bound + 1) :
    readItems bound (s ++ ']' :: rest) = some (vs, rest) := by
  obtain ⟨_, _, _, first, -⟩ := h.head
  cases bound with
  | zero =>
    rw [first, List.length_append, List.length_cons] at enough
    omega
  | succ bound =>
    cases h with
    | @last b s b' v before spelled after =>
      simp only [List.length_append] at enough
      have item := spelled.reads before (b' ++ ']' :: rest)
        (after.stops_append (stops_sign (by simp) _)) bound (by omega)
      simp [readItems, item, skipSpace_cons (c := ']') after rfl]
    | @more b s b' s' v vs before spelled after others =>
      simp only [List.length_append, List.length_cons] at enough
      have item := spelled.reads before (b' ++ ',' :: (s' ++ ']' :: rest))
        (after.stops_append (stops_sign (by simp) _)) bound (by omega)
      have items := others.reads rest bound (by omega)
      simp [readItems, item, skipSpace_cons (c := ',') after rfl, items]

theorem SpellsMember.reads {s b : List Char} {m : Option String × Json} (h : SpellsMember s m)
    (blanks : Blanks b) (rest : List Char) (ends : Stops rest) (bound : Nat)
    (enough : 3 * s.length ≤ bound + 1) :
    readMember bound (b ++ (s ++ rest)) = some (m, rest) := by
  cases h with
  | intro spelled before after value =>
    simp only [List.length_cons, List.length_append] at enough
    cases bound with
    | zero => omega
    | succ bound =>
      have read := value.reads after rest ends bound (by omega)
      rw [readMember, List.cons_append, skipSpace_cons blanks rfl]
      simp [readText?_of_spells spelled, skipSpace_cons (c := ':') before rfl, read]

theorem SpellsMembers.reads {s : List Char} {ms : List (Option String × Json)}
    (h : SpellsMembers s ms) (rest : List Char) (bound : Nat) (enough : 3 * s.length ≤ bound) :
    readMembers bound (s ++ '\x7d' :: rest) = some (ms, rest) := by
  obtain ⟨_, _, first, -⟩ := h.head
  cases bound with
  | zero =>
    rw [first, List.length_append, List.length_cons] at enough
    omega
  | succ bound =>
    cases h with
    | @last b s b' m before spelled after =>
      simp only [List.length_append] at enough
      have member := spelled.reads before (b' ++ '\x7d' :: rest)
        (after.stops_append (stops_sign (by simp) _)) bound (by omega)
      simp [readMembers, member, skipSpace_cons (c := '\x7d') after rfl]
    | @more b s b' s' m ms before spelled after others =>
      simp only [List.length_append, List.length_cons] at enough
      have member := spelled.reads before (b' ++ ',' :: (s' ++ '\x7d' :: rest))
        (after.stops_append (stops_sign (by simp) _)) bound (by omega)
      have members := others.reads rest bound (by omega)
      simp [readMembers, member, skipSpace_cons (c := ',') after rfl, members]

end

/-- What a text spells, between blanks, is what is read. -/
theorem read_of_spells {b s b' : List Char} {v : Json} (before : Blanks b) (h : Spells s v)
    (after : Blanks b') : read (b ++ (s ++ b')) = some v := by
  have ends : Stops (b' ++ []) := after.stops_append (by simp [Stops])
  rw [List.append_nil] at ends
  have value := h.reads before b' ends (3 * (b ++ (s ++ b')).length + 1)
    (by simp only [List.length_append]; omega)
  have blank : skipSpace b' = [] := by simpa using skipSpace_append (s := []) after (by simp)
  rw [read, value]
  simp [blank]

end ScriptJar.Json

import ScriptJar.Substitution
import ScriptJar.Proofs.Lexemes
import ScriptJar.Proofs.WrittenDirectives

/-! # Substitutions as they are written

A key and a value stand between quotes.  A quote inside them is written `\"` and a
backslash `\\`, and two functions have to see where the quotes end.  The one that cuts
a text into statements takes a backslash together with the character after it
(`lexLine_escape`).  The one that reads the directive only asks whether the character
before a quote is a backslash (`quotedPair_escape`), so it misses the end of a key or a
value whose last character is one: `classify_substitutionText`.
-/

namespace ScriptJar

open Text

namespace Substitutions

/-- A key or a value as it is written. -/
def escape : List Char → List Char
  | [] => []
  | c :: s => if c = '\\' ∨ c = '"' then '\\' :: c :: escape s else c :: escape s

theorem mem_of_mem_escape {s : List Char} {c : Char} (member : c ∈ escape s) :
    c = '\\' ∨ c ∈ s := by
  induction s with
  | nil => cases member
  | cons d s ih =>
    rw [escape] at member
    split at member <;> grind

end Substitutions

open Substitutions (escape)

/-! ## The quotes of a directive -/

namespace Directive

variable {position quotes : Nat} {last c : Char} {key value rest : List Char}

/-- What a text of which no quote counts adds to what is found after it. -/
def gathered (quotes : Nat) (s : List Char) (found : Nat × List Char × List Char) :
    Nat × List Char × List Char :=
  if quotes = 1 then (found.1, s ++ found.2.1, found.2.2)
  else if quotes = 3 then (found.1, found.2.1, s ++ found.2.2)
  else found

theorem gathered_nil (quotes : Nat) (found : Nat × List Char × List Char) :
    gathered quotes [] found = found := by
  simp [gathered]

theorem gathered_append (quotes : Nat) (s t : List Char) (found : Nat × List Char × List Char) :
    gathered quotes (s ++ t) found = gathered quotes s (gathered quotes t found) := by
  unfold gathered
  split
  · simp
  · split <;> simp

theorem quotedPair_other (inside : ¬ (c = '"' ∧ last ≠ '\\')) :
    quotedPair quotes last (c :: rest) = gathered quotes [c] (quotedPair quotes c rest) := by
  rw [quotedPair, if_neg inside]
  rfl

/-- None of its own quotes ends an escaped text, and what is asked of the next one is
    whether the text itself ends in a backslash. -/
theorem quotedPair_escape (quotes : Nat) (last : Char) (s rest : List Char) :
    quotedPair quotes last (escape s ++ rest) =
      gathered quotes (escape s) (quotedPair quotes (s.getLast?.getD last) rest) := by
  induction s generalizing last with
  | nil => simp [escape, gathered_nil]
  | cons c s ih =>
    have next := ih c
    rw [List.getLast?_cons, Option.getD_some, escape]
    split
    · -- a quote is not counted here, since there is a backslash before it
      have pair : ¬ (c = '"' ∧ '\\' ≠ '\\') := by simp
      rw [List.cons_append, List.cons_append, quotedPair_other (by simp), quotedPair_other pair,
        next, ← gathered_append, ← gathered_append]
      rfl
    · next plain =>
      rw [not_or] at plain
      rw [List.cons_append, quotedPair_other fun quote => plain.2 quote.1, next, ← gathered_append]
      rfl

/-- The directive of a key and a value. -/
def substitutionText (key value : List Char) : List Char :=
  "!macro \"".toList ++ (escape key ++ ("\" \"".toList ++ (escape value ++ ['"'])))

/-- What is read of a key and a value: neither ends at a quote that follows a backslash. -/
def readPair (key value : List Char) : List Char × List Char :=
  if key.getLast? = some '\\' then (escape key ++ "\" ".toList, [])
  else if value.getLast? = some '\\' then (escape key, escape value ++ ['"'])
  else (escape key, escape value)

theorem getD_eq_backslash {s : List Char} :
    s.getLast?.getD '"' = '\\' ↔ s.getLast? = some '\\' := by
  cases s.getLast? <;> simp

theorem quotedPair_text (key value : List Char) :
    ∃ quotes, 2 ≤ quotes ∧ quotedPair 0 '\x00' (" \"".toList ++ (escape key
      ++ ("\" \"".toList ++ (escape value ++ ['"'])))) = (quotes, readPair key value) := by
  have opening : ∀ rest, quotedPair 0 '\x00' (" \"".toList ++ rest) = quotedPair 1 '"' rest := by
    intro rest
    simp [quotedPair]
  rw [opening, quotedPair_escape, readPair]
  by_cases hidden : key.getLast? = some '\\'
  · -- the key goes on to the quote that opens the value
    have between : ∀ rest, quotedPair 1 '\\' ("\" \"".toList ++ rest) =
        gathered 1 "\" ".toList (quotedPair 2 '"' rest) := by
      intro rest
      simp [quotedPair, gathered]
    rw [getD_eq_backslash.2 hidden, between, quotedPair_escape, if_pos hidden]
    by_cases ends : value.getLast?.getD '"' = '\\'
    · exact ⟨2, by omega, by simp [ends, quotedPair, gathered]⟩
    · exact ⟨3, by omega, by simp [ends, quotedPair, gathered]⟩
  · have between : ∀ rest, quotedPair 1 (key.getLast?.getD '"') ("\" \"".toList ++ rest) =
        quotedPair 3 '"' rest := by
      intro rest
      have bare := mt getD_eq_backslash.1 hidden
      simp [quotedPair, bare]
    rw [between, quotedPair_escape, if_neg hidden]
    by_cases ends : value.getLast? = some '\\'
    · exact ⟨3, by omega, by simp [ends, quotedPair, gathered]⟩
    · have bare := mt getD_eq_backslash.1 ends
      exact ⟨4, by omega, by simp [ends, bare, quotedPair, gathered]⟩

theorem escape_ne_nil (nonempty : key ≠ []) : escape key ≠ [] := by
  cases key with
  | nil => exact absurd rfl nonempty
  | cons c key =>
    rw [escape]
    split <;> exact List.cons_ne_nil _ _

theorem readPair_ne_nil (nonempty : key ≠ []) (value : List Char) :
    (readPair key value).1 ≠ [] := by
  have written := escape_ne_nil nonempty
  unfold readPair
  split
  · simp
  · split <;> exact written

theorem readPair_eq_iff : readPair key value = (escape key, escape value) ↔
    key.getLast? ≠ some '\\' ∧ value.getLast? ≠ some '\\' := by
  unfold readPair
  split
  · next hidden => simp [hidden]
  · next shown =>
    split
    · next hidden => simp [hidden]
    · next shown' => simp [shown, shown']

theorem classify_substitutionText (nonempty : key ≠ []) (value : List Char) (position : Nat) :
    classify (String.ofList (substitutionText key value)) position =
      .substitution (String.ofList (readPair key value).1)
        (String.ofList (readPair key value).2) := by
  obtain ⟨quotes, two, pair⟩ := quotedPair_text key value
  have after : after? "!macro".toList (substitutionText key value) =
      some (" \"".toList ++ (escape key ++ ("\" \"".toList ++ (escape value ++ ['"'])))) :=
    after?_eq_some.2 rfl
  have some : ¬ (quotes < 2 ∨ (readPair key value).1.isEmpty = true) := by
    rw [List.isEmpty_iff, not_or]
    exact ⟨by omega, readPair_ne_nil nonempty value⟩
  refine classify_of_form '!' ?_ rfl
  simp only [formFor, substitution?, after, pair, if_neg some]

end Directive

/-! ## The quotes of a statement -/

namespace Statement

theorem plain_append (cs ds : List Char) (after : List Lexeme × Bool) :
    plain (cs ++ ds) after = plain cs (plain ds after) := by
  simp [plain]

theorem lexLine_escape (s rest : List Char) :
    lexLine .string (escape s ++ '"' :: rest) = plain (escape s ++ ['"']) (lexLine .code rest) := by
  induction s with
  | nil => simp [escape, lexLine]
  | cons c s ih =>
    rw [escape]
    split
    · rw [List.cons_append, List.cons_append, lexLine, ih, ← plain_append]
      rfl
    · next bare =>
      rw [not_or] at bare
      rw [List.cons_append, lexLine.eq_6, ih, ← plain_append]
      · rfl
      · exact fun _ _ backslash => absurd backslash bare.1
      · exact bare.2

theorem lexLine_substitutionText (key value : List Char) :
    lexLine .code (Directive.substitutionText key value) =
      plain (Directive.substitutionText key value) ([], false) := by
  have front : ∀ rest, lexLine .code ("!macro \"".toList ++ rest) =
      plain "!macro \"".toList (lexLine .string rest) := by
    intro rest
    simp [lexLine, tagged, plain, Lexeme.ofCode]
  have between : ∀ rest, lexLine .code (" \"".toList ++ rest) =
      plain " \"".toList (lexLine .string rest) := by
    intro rest
    simp [lexLine, tagged, plain, Lexeme.ofCode]
  have second : lexLine .string (escape value ++ ['"']) = plain (escape value ++ ['"']) ([], false) :=
    lexLine_escape value []
  have first := lexLine_escape key (" \"".toList ++ (escape value ++ ['"']))
  rw [between, second] at first
  unfold Directive.substitutionText
  rw [front]
  refine (congrArg (plain "!macro \"".toList) first).trans ?_
  simp [plain]

theorem cut_other (pending cs : List Char) :
    cut 0 pending ((cs.map .other).map .lexeme) = [pending ++ cs] := by
  induction cs generalizing pending with
  | nil => simp [cut]
  | cons c cs ih =>
    rw [List.map_cons, List.map_cons, cut, if_neg (by simp)]
    exact (ih _).trans (by simp [Lexeme.char])

theorem split_of_lexLine {s : List Char} (single : '\n' ∉ s) (some : s ≠ [])
    (inert : lexLine .code s = plain s ([], false)) : split (String.ofList s) = [String.ofList s] := by
  have line : lex (String.ofList s) = [⟨false, s.map .other⟩] := by
    rw [lex, String.toList_ofList, lines_of_notMem single some]
    simp [lexLines, inert, plain]
  have token : tokens [⟨false, s.map .other⟩] =
      .lineStart false :: (s.map .other).map .lexeme := by
    rw [tokens, List.flatMap_singleton]
  rw [split_eq_cut, line, token, cut, if_pos ⟨rfl, rfl⟩, cut_other]
  rfl

theorem newline_notMem_substitutionText {key value : List Char} (keyLine : '\n' ∉ key)
    (valueLine : '\n' ∉ value) : '\n' ∉ Directive.substitutionText key value := by
  have inner : ∀ s : List Char, '\n' ∉ s → '\n' ∉ escape s := by
    intro s single member
    rcases Substitutions.mem_of_mem_escape member with backslash | inside
    · exact absurd backslash (by decide)
    · exact single inside
  unfold Directive.substitutionText
  rw [List.mem_append, List.mem_append, List.mem_append, List.mem_append]
  rintro (front | inKey | between | inValue | ending)
  · exact absurd front (by decide)
  · exact inner key keyLine inKey
  · exact absurd between (by decide)
  · exact inner value valueLine inValue
  · exact absurd ending (by decide)

end Statement

/-- A key and a value that are escaped are read as they are written if neither ends in a
    backslash, and only then.  Either way their directive is one statement. -/
theorem Directive.classify_escaped (key value : String) (nonempty : key ≠ "")
    (keyLine : '\n' ∉ key.toList) (valueLine : '\n' ∉ value.toList) (position : Nat) :
    let text := String.ofList (substitutionText key.toList value.toList)
    (classify text position =
        .substitution (String.ofList (escape key.toList)) (String.ofList (escape value.toList)) ↔
      key.toList.getLast? ≠ some '\\' ∧ value.toList.getLast? ≠ some '\\') ∧
      Statement.split text = [text] := by
  intro text
  constructor
  · rw [classify_substitutionText (by simpa using nonempty), ← readPair_eq_iff, Prod.ext_iff]
    simp [String.ofList_inj]
  · exact Statement.split_of_lexLine
      (Statement.newline_notMem_substitutionText keyLine valueLine) (List.cons_ne_nil _ _)
      (Statement.lexLine_substitutionText _ _)

theorem Directive.classify_escaped_quotes :
    classify "!macro \"a\\\"\\\\b\" \"\\\\\\\"\"" 3 =
        .substitution "a\\\"\\\\b" "\\\\\\\"" ∧
      Statement.split "!macro \"a\\\"\\\\b\" \"\\\\\\\"\"" =
        ["!macro \"a\\\"\\\\b\" \"\\\\\\\"\""] := by
  have read := classify_escaped "a\"\\b" "\\\"" (by decide) (by decide) (by decide) 3
  exact ⟨read.1.2 (by decide), read.2⟩

/-- After a backslash the quote that ends a key is taken for a part of it. -/
theorem Directive.classify_escaped_backslash :
    classify "!macro \"\\\\\" \"v\"" 3 = .substitution "\\\\\" " "" ∧
      Statement.split "!macro \"\\\\\" \"v\"" = ["!macro \"\\\\\" \"v\""] ∧
      "!macro \"\\\\\" \"v\"" = String.ofList (substitutionText ['\\'] ['v']) := by
  decide

end ScriptJar

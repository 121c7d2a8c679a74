import ScriptJar.Statement
import ScriptJar.Proofs.TextFacts

/-! # Statements in two stages

`Statement.split` looks for comments, literals, braces and statement ends all at once.
Here the text is read twice.  The first stage takes the lines one by one and knows of
those before only whether a block comment is open; it drops the comments and tells
braces and semicolons that are code from all other characters.  The second stage sees
these lexemes and the line starts, counts braces and cuts.

* `lexLine`, `lex` — the first stage;
* `cut` — the second stage;
* `scan_lexLine` — what is read from a line does not depend on the draft it goes to;
* `Draft.finished_foldl_take` — nor do the cuts on anything but the tokens;
* `split_two_stages` — the two stages give the statements.
-/

namespace ScriptJar.Statement

/-! ## Lexemes -/

/-- What a character of a line stands in. -/
inductive Region where
  | code
  /-- Between two `\"` marks. -/
  | marked
  | string
  /-- A character literal that is closed on the line. -/
  | literal
  | comment
  deriving DecidableEq, Repr

/-- A character outside comments.  The first three are code. -/
inductive Lexeme where
  | opening
  | closing
  | semicolon
  | other (c : Char)
  deriving DecidableEq, Repr

namespace Lexeme

def ofCode (c : Char) : Lexeme :=
  if c = '{' then .opening
  else if c = '}' then .closing
  else if c = ';' then .semicolon
  else .other c

def char : Lexeme → Char
  | .opening => '{'
  | .closing => '}'
  | .semicolon => ';'
  | .other c => c

/-- The number of open braces after a lexeme. -/
def depth : Lexeme → Nat → Nat
  | .opening, n => n + 1
  | .closing, n => n - 1
  | _, n => n

@[simp] theorem char_ofCode (c : Char) : (ofCode c).char = c := by
  unfold ofCode
  split
  · next same => exact same.symm
  · split
    · next same => exact same.symm
    · split
      · next same => exact same.symm
      · rfl

end Lexeme

/-- Whether a `'` follows that closes a character literal. -/
def closes : List Char → Bool
  | [] => false
  | '\'' :: _ => true
  | '\\' :: _ :: rest => closes rest
  | _ :: rest => closes rest

def plain (cs : List Char) (after : List Lexeme × Bool) : List Lexeme × Bool :=
  (cs.map .other ++ after.1, after.2)

def tagged (c : Char) (after : List Lexeme × Bool) : List Lexeme × Bool :=
  (.ofCode c :: after.1, after.2)

/-- The lexemes of a line from a region on, and whether the line ends inside a block
    comment. -/
def lexLine : Region → List Char → List Lexeme × Bool
  | region, [] => ([], region == .comment)
  | .comment, '*' :: '/' :: rest => lexLine .code rest
  | .comment, _ :: rest => lexLine .comment rest
  | .string, '\\' :: c :: rest => plain ['\\', c] (lexLine .string rest)
  | .string, '"' :: rest => plain ['"'] (lexLine .code rest)
  | .string, c :: rest => plain [c] (lexLine .string rest)
  | .literal, '\\' :: c :: rest => plain ['\\', c] (lexLine .literal rest)
  | .literal, '\'' :: rest => plain ['\''] (lexLine .code rest)
  | .literal, c :: rest => plain [c] (lexLine .literal rest)
  | .marked, '\\' :: '"' :: rest => plain ['\\', '"'] (lexLine .code rest)
  | .marked, c :: rest => plain [c] (lexLine .marked rest)
  | .code, '\\' :: '"' :: rest => plain ['\\', '"'] (lexLine .marked rest)
  | .code, '/' :: '/' :: _ => ([], false)
  | .code, '/' :: '*' :: rest => lexLine .comment rest
  | .code, '"' :: rest => plain ['"'] (lexLine .string rest)
  | .code, '\'' :: rest =>
    plain ['\''] (lexLine (if closes rest then .literal else .code) rest)
  | .code, c :: rest => tagged c (lexLine .code rest)

/-- A line without its comments. -/
structure Line where
  /-- Whether it begins inside a block comment. -/
  inComment : Bool
  lexemes : List Lexeme
  deriving DecidableEq, Repr

def Line.chars (line : Line) : List Char :=
  line.lexemes.map Lexeme.char

def lexLines : Bool → List (List Char) → List Line
  | _, [] => []
  | inComment, line :: rest =>
    let (lexemes, open_) := lexLine (if inComment then .comment else .code) line
    ⟨inComment, lexemes⟩ :: lexLines open_ rest

def lex (text : String) : List Line :=
  lexLines false (Text.lines text.toList)

/-- The text without its comments and line ends. -/
def stripped (text : String) : List Char :=
  (lex text).flatMap Line.chars

example : lex "a \x7b/* ;\n; */'\x7b' \"\x7d\";" =
    [⟨false, [.other 'a', .other ' ', .opening]⟩,
      ⟨true, [.other '\'', .other '{', .other '\'', .other ' ', .other '"', .other '}',
        .other '"', .semicolon]⟩] := by
  decide

/-! ## Tokens and cuts -/

inductive Token where
  | lineStart (inComment : Bool)
  | lexeme (x : Lexeme)
  deriving DecidableEq, Repr

namespace Token

def chars : Token → List Char
  | .lineStart _ => []
  | .lexeme x => [x.char]

def depth (n : Nat) : Token → Nat
  | .lineStart _ => n
  | .lexeme x => x.depth n

end Token

def tokens (lines : List Line) : List Token :=
  lines.flatMap fun line => .lineStart line.inComment :: line.lexemes.map .lexeme

/-- The statements that tokens make up, from a number of open braces and the beginning
    of a statement on. -/
def cut : Nat → List Char → List Token → List (List Char)
  | _, pending, [] => [pending]
  | depth, pending, .lineStart inComment :: rest =>
    if depth = 0 ∧ pending = [] then cut depth pending rest
    else if depth = 0 ∧ inComment = false then pending :: cut 0 [] rest
    else cut depth (pending ++ ['\n']) rest
  | depth, pending, .lexeme x :: rest =>
    if depth = 0 ∧ x = .semicolon then (pending ++ [x.char]) :: cut 0 [] rest
    else cut (x.depth depth) (pending ++ [x.char]) rest

/-- A place between tokens where a statement may end: all braces are closed, and there is
    a `;` of the code before it or the start of a line outside comments after it. -/
structure Boundary (depth : Nat) (before after : List Token) : Prop where
  closed : before.foldl Token.depth depth = 0
  ended : before.getLast? = some (.lexeme .semicolon) ∨ after.head? = some (.lineStart false)

theorem Boundary.cons (token : Token) {depth : Nat} {before after : List Token}
    (h : Boundary (token.depth depth) before after) : Boundary depth (token :: before) after := by
  refine ⟨h.closed, ?_⟩
  rcases h.ended with last | next
  · left
    rw [List.getLast?_cons, last]
    rfl
  · exact .inr next

/-! ## The lexemes of a line -/

@[simp] theorem map_char_plain (cs : List Char) (after : List Lexeme × Bool) :
    (plain cs after).1.map Lexeme.char = cs ++ after.1.map Lexeme.char := by
  simp [plain, Function.comp_def, Lexeme.char]

theorem lexLine_sublist (region : Region) (line : List Char) :
    ((lexLine region line).1.map Lexeme.char).Sublist line := by
  fun_induction lexLine region line with
  | case1 => exact .slnil
  | case2 rest ih => exact (ih.cons _).cons _
  | case3 c rest _ ih => exact ih.cons _
  | case13 => exact List.nil_sublist _
  | case14 rest ih => exact (ih.cons _).cons _
  | case17 c rest _ _ _ _ _ ih => simpa [tagged] using ih
  | _ => simp_all

theorem closes_eq (s : List Char) : closes s = (literalSpan? s).isSome := by
  fun_induction literalSpan? s with
  | case1 => rfl
  | case2 => rfl
  | case3 c rest ih => simp [closes, ih]
  | case4 c rest quote escape ih => simp [closes.eq_4 c rest quote escape, ih]

namespace Draft

def add (d : Draft) : Lexeme → Draft
  | .other c => d.push c
  | x => d.pushCode x.char

theorem pushCode_eq (d : Draft) (c : Char) : d.pushCode c = d.add (.ofCode c) := by
  unfold Lexeme.ofCode
  by_cases opening : c = '{'
  · simp [opening, add, Lexeme.char]
  · by_cases closing : c = '}'
    · simp [closing, add, Lexeme.char]
    · by_cases semicolon : c = ';'
      · simp [semicolon, add, Lexeme.char]
      · simp [opening, closing, semicolon, add, pushCode]

theorem add_eq (d : Draft) (x : Lexeme) :
    d.add x = if d.depth = 0 ∧ x = .semicolon then (d.push x.char).finish
      else { d.push x.char with depth := x.depth d.depth } := by
  cases x with
  | semicolon =>
    by_cases outside : d.depth = 0 <;>
      simp [add, pushCode, Lexeme.char, Lexeme.depth, push, finish, outside]
  | opening | closing | other => simp [add, pushCode, Lexeme.char, Lexeme.depth, push]

end Draft

/-- The mode of a scan that is in a region.  In a literal the scan already knows how many
    characters are left. -/
inductive Agrees (line : List Char) : Region → Mode → Prop where
  | code : Agrees line .code .code
  | marked : Agrees line .marked .marked
  | string : Agrees line .string .string
  | comment : Agrees line .comment .comment
  | literal {n : Nat} : literalSpan? line = some n → Agrees line .literal (.copy n .code)

theorem scan_remark (d : Draft) (line : List Char) : scan .remark d line = (.remark, d) := by
  induction line with
  | nil => rfl
  | cons c rest ih => exact ih

/-- A scan adds given lexemes to a draft, and ends inside a block comment or not. -/
def Reads (mode : Mode) (d : Draft) (line : List Char) (found : List Lexeme × Bool) : Prop :=
  (scan mode d line).2 = found.1.foldl Draft.add d ∧
    ((scan mode d line).1 == .comment) = found.2

namespace Reads

variable {mode next : Mode} {d : Draft} {a b c : Char} {rest : List Char}
  {after : List Lexeme × Bool}

theorem remark (d : Draft) (line : List Char) : Reads .remark d line ([], false) := by
  rw [Reads, scan_remark]
  exact ⟨rfl, rfl⟩

theorem drop (here : step mode d c rest = (next, d)) (h : Reads next d rest after) :
    Reads mode d (c :: rest) after := by
  unfold Reads at h ⊢
  rw [scan, here]
  exact h

theorem push (here : step mode d c rest = (next, d.push c))
    (h : Reads next (d.push c) rest after) : Reads mode d (c :: rest) (plain [c] after) := by
  unfold Reads at h ⊢
  rw [scan, here]
  exact h

theorem pushCode (here : step mode d c rest = (next, d.pushCode c))
    (h : Reads next (d.pushCode c) rest after) : Reads mode d (c :: rest) (tagged c after) := by
  unfold Reads at h ⊢
  rw [Draft.pushCode_eq] at here h
  rw [scan, here]
  exact h

theorem dropPair (here : step mode d a (b :: rest) = (.skip next, d))
    (h : Reads next d rest after) : Reads mode d (a :: b :: rest) after :=
  .drop here (.drop rfl h)

theorem pushPair (here : step mode d a (b :: rest) = (.copy 0 next, d.push a))
    (h : Reads next ((d.push a).push b) rest after) :
    Reads mode d (a :: b :: rest) (plain [a, b] after) :=
  .push here (.push rfl h)

end Reads

theorem not_pair {a b c : Char} {rest : List Char}
    (h : ∀ tail, c = a → rest = b :: tail → False) : ¬ (c = a ∧ rest.head? = some b) := by
  rintro ⟨first, second⟩
  obtain ⟨tail, whole⟩ := List.head?_eq_some_iff.1 second
  exact h tail first whole

theorem scan_lexLine {region : Region} {line : List Char} {mode : Mode}
    (h : Agrees line region mode) (d : Draft) : Reads mode d line (lexLine region line) := by
  -- along the patterns of `lexLine`; in the last one of a region the others are excluded
  fun_induction lexLine region line generalizing mode d with
  | case1 region =>
    cases h with
    | literal span => simp [literalSpan?] at span
    | code | marked | string | comment => exact ⟨rfl, rfl⟩
  | case2 rest ih =>
    cases h
    exact .dropPair (by simp [step]) (ih .code d)
  | case3 c rest close ih =>
    cases h
    exact .drop (by simp [step, not_pair close]) (ih .comment d)
  | case4 c rest ih =>
    cases h
    exact .pushPair (by simp [step]) (ih .string _)
  | case5 rest ih =>
    cases h
    exact .push (by simp [step]) (ih .code _)
  | case6 c rest escape quote ih =>
    cases h
    have single : ¬ (c = '\\' ∧ rest ≠ []) := by
      rintro ⟨first, more⟩
      obtain ⟨b, tail, whole⟩ := List.exists_cons_of_ne_nil more
      exact escape b tail first whole
    exact .push (by simp only [step, if_neg single, if_neg quote]) (ih .string _)
  | case7 c rest ih =>
    cases h with
    | literal span =>
      rw [literalSpan?, Option.map_eq_some_iff] at span
      obtain ⟨n, span, rfl⟩ := span
      exact .push rfl (.push rfl (ih (.literal span) _))
  | case8 rest ih =>
    cases h with
    | literal span =>
      cases span
      exact .push rfl (ih .code _)
  | case9 c rest escape quote ih =>
    cases h with
    | literal span =>
      rw [literalSpan?.eq_4 c rest quote escape, Option.map_eq_some_iff] at span
      obtain ⟨n, span, rfl⟩ := span
      exact .push rfl (ih (.literal span) _)
  | case10 rest ih =>
    cases h
    exact .pushPair (by simp [step]) (ih .code _)
  | case11 c rest mark ih =>
    cases h
    exact .push (by simp only [step, if_neg (not_pair mark)]) (ih .marked _)
  | case12 rest ih =>
    cases h
    exact .pushPair (by simp [step]) (ih .marked _)
  | case13 rest =>
    cases h
    exact .drop (by simp [step]) (.remark d _)
  | case14 rest ih =>
    cases h
    exact .dropPair (by simp [step]) (ih .comment d)
  | case15 rest ih =>
    cases h
    exact .push (by simp [step]) (ih .string _)
  | case16 rest ih =>
    cases h
    cases span : literalSpan? rest with
    | none =>
      have lone : closes rest = false := by simp [closes_eq, span]
      simp only [lone] at ih ⊢
      exact .push (by simp [step, span]) (ih .code _)
    | some n =>
      have closed : closes rest = true := by simp [closes_eq, span]
      simp only [closed] at ih ⊢
      exact .push (by simp [step, span]) (ih (.literal span) _)
  | case17 c rest mark remark comment quote literal ih =>
    cases h
    exact .pushCode (by simp only [step, if_neg (not_pair mark), if_neg (not_pair remark),
      if_neg (not_pair comment), if_neg quote, if_neg literal]) (ih .code _)

/-! ## The cuts of a draft -/

namespace Draft

/-- Where braces are open, there is a statement that opened them. -/
def Sound (d : Draft) : Prop :=
  d.depth ≠ 0 → d.pending ≠ []

def take (d : Draft) : Token → Draft
  | .lineStart inComment => d.startLine inComment
  | .lexeme x => d.add x

theorem Sound.take {d : Draft} (h : d.Sound) (token : Token) : (d.take token).Sound := by
  cases token with
  | lineStart inComment =>
    simp only [Draft.take, startLine]
    split
    · exact h
    · split
      · next ends =>
        simp only [Bool.and_eq_true, beq_iff_eq] at ends
        exact fun deep => absurd ends.2 deep
      · exact fun _ => List.cons_ne_nil _ _
  | lexeme x =>
    rw [Draft.take, add_eq]
    split
    · next ends => exact fun deep => absurd ends.1 deep
    · exact fun _ => List.cons_ne_nil _ _

theorem finished_foldl_take (tokens : List Token) {d : Draft} (sound : d.Sound) :
    (tokens.foldl take d).finish.finished.reverse =
      d.finished.reverse ++ (cut d.depth d.pending.reverse tokens).map String.ofList := by
  induction tokens generalizing d with
  | nil => simp [finish, cut]
  | cons token rest ih =>
    rw [List.foldl_cons, ih (sound.take token)]
    cases token with
    | lineStart inComment =>
      by_cases none : d.pending = []
      · -- `cut` does not ask whether anything is pending where braces are open
        have outside : d.depth = 0 := by
          by_contra deep
          exact sound deep none
        simp [take, startLine, cut, none, outside]
      · by_cases ends : d.depth = 0 ∧ inComment = false
        · simp [take, startLine, cut, none, ends, finish]
        · have goesOn : d.startLine inComment = d.push '\n' := by
            simp only [startLine, List.isEmpty_iff, none, if_false]
            rw [if_neg]
            simpa [and_comm] using ends
          simp only [take, goesOn, cut, List.reverse_eq_nil_iff, none, and_false, if_false,
            if_neg ends]
          simp [push]
    | lexeme x =>
      rw [take, add_eq, cut]
      split
      · next ends => simp [push, finish, ends.1]
      · simp [push]

end Draft

theorem foldl_scanLine (lines : List (List Char)) (inComment : Bool) (d : Draft) :
    (lines.foldl scanLine (inComment, d)).2 =
      (tokens (lexLines inComment lines)).foldl Draft.take d := by
  induction lines generalizing inComment d with
  | nil => rfl
  | cons line rest ih =>
    have agrees : Agrees line (if inComment then .comment else .code)
        (if inComment then .comment else .code) := by
      cases inComment
      · exact .code
      · exact .comment
    obtain ⟨draft, open_⟩ := scan_lexLine agrees (d.startLine inComment)
    rw [List.foldl_cons, scanLine]
    simp only
    rw [ih, open_, draft]
    simp only [lexLines, tokens, List.flatMap_cons, List.foldl_append, List.foldl_cons,
      List.foldl_map]
    rfl

theorem split_eq_cut (text : String) :
    split text = (cut 0 [] (tokens (lex text))).map String.ofList := by
  have sound : Draft.Sound {} := fun deep => absurd rfl deep
  rw [split, foldl_scanLine, Draft.finished_foldl_take _ sound]
  rfl

/-! ## What the statements hold -/

def unbroken (s : List Char) : List Char :=
  s.filter (· != '\n')

@[simp] theorem unbroken_append (s t : List Char) :
    unbroken (s ++ t) = unbroken s ++ unbroken t :=
  List.filter_append s t

theorem unbroken_eq_self {s : List Char} (h : '\n' ∉ s) : unbroken s = s := by
  rw [unbroken, List.filter_eq_self]
  intro c member
  simp only [bne_iff_ne]
  rintro rfl
  exact h member

theorem chars_tokens (lines : List Line) :
    (tokens lines).flatMap Token.chars = lines.flatMap Line.chars := by
  have each (line : Line) : (Token.lineStart line.inComment :: line.lexemes.map .lexeme).flatMap
      Token.chars = line.chars := by
    rw [List.flatMap_cons, List.flatMap_map, Line.chars, List.map_eq_flatMap]
    rfl
  simp only [tokens, List.flatMap_assoc, each]

theorem newline_notMem_lexLines (inComment : Bool) {lines : List (List Char)}
    (single : ∀ line ∈ lines, '\n' ∉ line) :
    '\n' ∉ (lexLines inComment lines).flatMap Line.chars := by
  induction lines generalizing inComment with
  | nil => exact List.not_mem_nil
  | cons line rest ih =>
    rw [List.forall_mem_cons] at single
    simp only [lexLines, List.flatMap_cons, List.mem_append, not_or]
    exact ⟨fun member => single.1 ((lexLine_sublist _ line).subset member), ih _ single.2⟩

theorem unbroken_cut (depth : Nat) (pending : List Char) (ts : List Token) :
    unbroken (cut depth pending ts).flatten = unbroken (pending ++ ts.flatMap Token.chars) := by
  fun_induction cut depth pending ts with
  | case1 => simp
  | case2 depth pending inComment rest nothing ih =>
    rw [ih, List.flatMap_cons, Token.chars, List.nil_append]
  | case3 depth pending inComment rest _ ends ih =>
    rw [List.flatten_cons, unbroken_append, ih, List.flatMap_cons, Token.chars]
    simp
  | case4 depth pending inComment rest _ _ ih =>
    rw [ih, List.flatMap_cons, Token.chars]
    simp [unbroken]
  | case5 depth pending x rest ends ih =>
    rw [List.flatten_cons, unbroken_append, ih, List.flatMap_cons, Token.chars, List.nil_append,
      ← unbroken_append, List.append_assoc]
  | case6 depth pending x rest _ ih =>
    rw [ih, List.flatMap_cons, Token.chars]
    simp

/-- Where one statement ends and another one follows, the tokens have a boundary, and from
    there on the statements are as if nothing had been before. -/
theorem cut_append {depth : Nat} {pending : List Char} {ts : List Token}
    {first others : List (List Char)} (whole : cut depth pending ts = first ++ others)
    (some : first ≠ []) (more : others ≠ []) :
    ∃ before after, ts = before ++ after ∧ Boundary depth before after ∧
      cut 0 [] after = others := by
  fun_induction cut depth pending ts generalizing first with
  | case1 depth pending =>
    cases first with
    | nil => exact absurd rfl some
    | cons s first => simp_all
  | case2 depth pending inComment rest nothing ih =>
    obtain ⟨before, after, rfl, boundary, later⟩ := ih whole some
    exact ⟨_, after, rfl, .cons (.lineStart inComment) boundary, later⟩
  | case3 depth pending inComment rest _ ends ih =>
    obtain ⟨rfl, rfl⟩ := ends
    cases first with
    | nil => exact absurd rfl some
    | cons s first =>
      have tail : cut 0 [] rest = first ++ others := (List.cons.inj whole).2
      by_cases last : first = []
      · subst last
        exact ⟨[], _, rfl, ⟨rfl, .inr rfl⟩, by simpa [cut] using tail⟩
      · obtain ⟨before, after, rfl, boundary, later⟩ := ih tail last
        exact ⟨_, after, rfl, .cons (.lineStart false) boundary, later⟩
  | case4 depth pending inComment rest _ _ ih =>
    obtain ⟨before, after, rfl, boundary, later⟩ := ih whole some
    exact ⟨_, after, rfl, .cons (.lineStart inComment) boundary, later⟩
  | case5 depth pending x rest ends ih =>
    obtain ⟨rfl, rfl⟩ := ends
    cases first with
    | nil => exact absurd rfl some
    | cons s first =>
      have tail : cut 0 [] rest = first ++ others := (List.cons.inj whole).2
      by_cases last : first = []
      · subst last
        exact ⟨[.lexeme .semicolon], rest, rfl, ⟨rfl, .inl rfl⟩, tail⟩
      · obtain ⟨before, after, rfl, boundary, later⟩ := ih tail last
        exact ⟨_, after, rfl, .cons (.lexeme .semicolon) boundary, later⟩
  | case6 depth pending x rest _ ih =>
    obtain ⟨before, after, rfl, boundary, later⟩ := ih whole some
    exact ⟨_, after, rfl, .cons (.lexeme x) boundary, later⟩

theorem flatMap_toList_ofList (texts : List (List Char)) :
    (texts.map String.ofList).flatMap String.toList = texts.flatten := by
  simp [List.flatMap_map, List.flatMap_id']

/-- The statements of a text are those that the two stages give.  Up to line ends, they
    hold the text without its comments.  Every statement but the last ends at a
    boundary. -/
theorem split_two_stages (text : String) :
    split text = (cut 0 [] (tokens (lex text))).map String.ofList ∧
      unbroken ((split text).flatMap String.toList) = stripped text ∧
      ∀ first others, split text = first ++ others → first ≠ [] → others ≠ [] →
        ∃ before after, tokens (lex text) = before ++ after ∧ Boundary 0 before after ∧
          unbroken (first.flatMap String.toList) = before.flatMap Token.chars ∧
          others = (cut 0 [] after).map String.ofList := by
  have single : '\n' ∉ (tokens (lex text)).flatMap Token.chars := by
    rw [chars_tokens]
    exact newline_notMem_lexLines false fun _ => Text.newline_notMem_of_mem_lines
  have whole : unbroken ((split text).flatMap String.toList) =
      (tokens (lex text)).flatMap Token.chars := by
    rw [split_eq_cut, flatMap_toList_ofList, unbroken_cut, List.nil_append,
      unbroken_eq_self single]
  refine ⟨split_eq_cut text, by rw [whole, chars_tokens, stripped], ?_⟩
  intro first others parts some more
  rw [parts] at whole
  rw [split_eq_cut, List.map_eq_append_iff] at parts
  obtain ⟨first, others, parts, rfl, rfl⟩ := parts
  obtain ⟨before, after, same, boundary, later⟩ :=
    cut_append parts (by simpa using some) (by simpa using more)
  refine ⟨before, after, same, boundary, ?_, by rw [later]⟩
  -- what the later statements hold comes after the boundary, so the rest comes before it
  rw [same] at single whole
  simp only [List.flatMap_append, List.mem_append, not_or, unbroken_append,
    flatMap_toList_ofList] at single whole ⊢
  rw [← later, unbroken_cut, List.nil_append, unbroken_eq_self single.2] at whole
  exact List.append_cancel_right whole

end ScriptJar.Statement

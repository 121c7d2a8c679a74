import ScriptJar.Proofs.Lexemes

/-! # Statements on lines of their own

The statements of a text, written one after the other with a line end after each, are split
into the same statements again, provided that no comment starts in the text.  A statement
that ended in the middle of a line now ends with its line, and what followed it there starts
a line.  Neither part is read in another way than before: a literal that closes does so
before the cut, and a quote without a partner finds none in fewer characters.

* `lexLine_cuttable` — a line can be cut after a `;` of the code;
* `Line.Legible` — a line that is read back from its characters;
* `Gathered` — what one statement has been read from;
* `Gathered.exists_layout` — lines of their own for all statements;
* `split_written` — the statements that are written out are split again.
-/

namespace ScriptJar.Statement

/-- A text in which each statement is followed by a line end. -/
def written (statements : List String) : String :=
  String.join (statements.map (· ++ "\n"))

/-! ## A line cut after a semicolon -/

theorem closes_append {s : List Char} (h : closes s = true) (rest : List Char) :
    closes (s ++ rest) = true := by
  fun_induction closes s with
  | case1 => cases h
  | case2 => rfl
  | case3 c s ih => exact ih h
  | case4 c s quote escape ih =>
    cases s with
    | nil => cases h
    | cons b s =>
      have pair : ∀ b' tail, c = '\\' → b :: s ++ rest = b' :: tail → False := by
        intro _ _ first _
        exact escape b s first rfl
      rw [List.cons_append, closes.eq_4 c _ quote pair]
      exact ih h

theorem plain_eq_cut {cs : List Char} {after : List Lexeme × Bool} {xs ys : List Lexeme}
    {open_ : Bool} (h : plain cs after = (xs ++ .semicolon :: ys, open_)) :
    ∃ xs', xs = cs.map .other ++ xs' ∧ after = (xs' ++ .semicolon :: ys, open_) := by
  obtain ⟨found, after_open⟩ := after
  obtain ⟨found_eq, rfl⟩ := Prod.mk.inj h
  simp only at found_eq
  rcases List.append_eq_append_iff.1 found_eq with ⟨more, rfl, same⟩ | ⟨more, others, same⟩
  · exact ⟨more, rfl, by rw [same]⟩
  · cases more with
    | nil => exact ⟨[], by simpa using others.symm, by simpa using same.symm⟩
    | cons x more =>
      -- the semicolon would be one of the characters of `cs`
      obtain ⟨rfl, -⟩ := List.cons.inj same
      have member : Lexeme.semicolon ∈ cs.map Lexeme.other := by simp [others]
      simp at member

/-- Inside a character literal there is no code before its end. -/
theorem closes_of_semicolon {line : List Char} {xs ys : List Lexeme} {open_ : Bool}
    (h : lexLine .literal line = (xs ++ .semicolon :: ys, open_)) : closes line = true := by
  fun_induction closes line generalizing xs with
  | case1 => simp [lexLine] at h
  | case2 => rfl
  | case3 c rest ih =>
    rw [lexLine] at h
    obtain ⟨_, -, after⟩ := plain_eq_cut h
    exact ih after
  | case4 c rest quote escape ih =>
    rw [lexLine.eq_9 c rest escape quote] at h
    obtain ⟨_, -, after⟩ := plain_eq_cut h
    exact ih after

/-- Where a `;` of the code is found in a line, the line can be cut after it: the two parts
    are read as before. -/
def Cuttable (region : Region) (line : List Char) (found : List Lexeme × Bool) : Prop :=
  ∀ xs ys open_, found = (xs ++ .semicolon :: ys, open_) →
    ∃ front back, line = front ++ back ∧ lexLine region front = (xs ++ [.semicolon], false) ∧
      lexLine .code back = (ys, open_)

namespace Cuttable

variable {region next : Region} {rest : List Char} {c : Char} {after : List Lexeme × Bool}

/-- Characters `cs` that are not code, `kept` being those outside comments. -/
theorem plain (cs kept : List Char) (h : Cuttable next rest after)
    (here : ∀ front back xs, rest = front ++ back →
      lexLine next front = (xs ++ [.semicolon], false) →
      lexLine region (cs ++ front) = plain kept (lexLine next front)) :
    Cuttable region (cs ++ rest) (plain kept after) := by
  intro xs ys open_ found
  obtain ⟨xs, rfl, later⟩ := plain_eq_cut found
  obtain ⟨front, back, rfl, first, second⟩ := h xs ys open_ later
  refine ⟨cs ++ front, back, by simp, ?_, second⟩
  rw [here front back xs rfl first, first]
  simp [Statement.plain]

theorem tagged (h : Cuttable .code rest (lexLine .code rest))
    (here : ∀ front back, rest = front ++ back →
      lexLine .code (c :: front) = tagged c (lexLine .code front)) :
    Cuttable .code (c :: rest) (tagged c (lexLine .code rest)) := by
  intro xs ys open_ found
  obtain ⟨first, rfl⟩ := Prod.mk.inj found
  cases xs with
  | nil =>
    obtain ⟨semicolon, rfl⟩ := List.cons.inj first
    refine ⟨[c], rest, rfl, ?_, rfl⟩
    rw [here [] rest rfl, Statement.tagged, semicolon]
    rfl
  | cons x xs =>
    obtain ⟨rfl, later⟩ := List.cons.inj first
    obtain ⟨front, back, rfl, first, second⟩ := h xs ys _ (Prod.ext later rfl)
    refine ⟨c :: front, back, rfl, ?_, second⟩
    rw [here front back rfl, first]
    rfl

end Cuttable

theorem not_pair_front {a b c : Char} {rest front back : List Char}
    (h : ∀ tail, c = a → rest = b :: tail → False) (whole : rest = front ++ back) :
    ∀ tail, c = a → front = b :: tail → False := by
  rintro tail first rfl
  exact h _ first whole

theorem lexLine_cuttable (region : Region) (line : List Char) :
    Cuttable region line (lexLine region line) := by
  -- along the patterns of `lexLine`; a pattern that does not fit the line does not fit its
  -- front either
  fun_induction lexLine region line with
  | case1 | case13 => simp [Cuttable]
  | case2 rest ih => exact ih.plain ['*', '/'] [] fun front _ _ _ _ => lexLine.eq_2 front
  | case3 c rest close ih =>
    exact ih.plain [c] [] fun front _ _ whole _ =>
      lexLine.eq_3 c front (not_pair_front close whole)
  | case4 c rest ih =>
    exact ih.plain ['\\', c] ['\\', c] fun front _ _ _ _ => lexLine.eq_4 c front
  | case5 rest ih => exact ih.plain ['"'] ['"'] fun front _ _ _ _ => lexLine.eq_5 front
  | case6 c rest escape quote ih =>
    exact ih.plain [c] [c] fun front _ _ whole _ =>
      lexLine.eq_6 c front (fun b => not_pair_front (escape b) whole) quote
  | case7 c rest ih =>
    exact ih.plain ['\\', c] ['\\', c] fun front _ _ _ _ => lexLine.eq_7 c front
  | case8 rest ih => exact ih.plain ['\''] ['\''] fun front _ _ _ _ => lexLine.eq_8 front
  | case9 c rest escape quote ih =>
    exact ih.plain [c] [c] fun front _ _ whole _ =>
      lexLine.eq_9 c front (fun b => not_pair_front (escape b) whole) quote
  | case10 rest ih =>
    exact ih.plain ['\\', '"'] ['\\', '"'] fun front _ _ _ _ => lexLine.eq_10 front
  | case11 c rest mark ih =>
    exact ih.plain [c] [c] fun front _ _ whole _ =>
      lexLine.eq_11 c front (not_pair_front mark whole)
  | case12 rest ih =>
    exact ih.plain ['\\', '"'] ['\\', '"'] fun front _ _ _ _ => lexLine.eq_12 front
  | case14 rest ih => exact ih.plain ['/', '*'] [] fun front _ _ _ _ => lexLine.eq_14 front
  | case15 rest ih => exact ih.plain ['"'] ['"'] fun front _ _ _ _ => lexLine.eq_15 front
  | case16 rest ih =>
    refine ih.plain ['\''] ['\''] fun front back xs whole first => ?_
    have same : closes front = closes rest := by
      cases closed : closes rest with
      | true =>
        simp only [closed] at first
        exact closes_of_semicolon first
      | false =>
        by_contra longer
        have := closes_append (by simpa using longer) back
        rw [← whole, closed] at this
        cases this
    rw [← same]
    exact lexLine.eq_16 front
  | case17 c rest mark remark comment quote literal ih =>
    exact ih.tagged fun front _ whole =>
      lexLine.eq_17 c front (not_pair_front mark whole) (not_pair_front remark whole)
        (not_pair_front comment whole) quote literal

/-! ## Lines without comments -/

/-- A text in which no comment starts. -/
structure Uncommented (s : List Char) : Prop where
  remark : ¬ ['/', '/'] <:+: s
  comment : ¬ ['/', '*'] <:+: s

theorem Uncommented.of_isInfix {s part : List Char} (h : Uncommented s) (inside : part <:+: s) :
    Uncommented part :=
  ⟨fun found => h.remark (found.trans inside), fun found => h.comment (found.trans inside)⟩

theorem Uncommented.tail {c : Char} {s : List Char} (h : Uncommented (c :: s)) : Uncommented s :=
  h.of_isInfix (List.suffix_cons c s).isInfix

/-- Nothing of a line is dropped, and it ends outside block comments. -/
def Kept (line : List Char) (found : List Lexeme × Bool) : Prop :=
  found.1.map Lexeme.char = line ∧ found.2 = false

theorem Kept.plain {rest : List Char} {after : List Lexeme × Bool} (h : Kept rest after)
    (cs : List Char) : Kept (cs ++ rest) (plain cs after) :=
  ⟨by rw [map_char_plain, h.1], h.2⟩

theorem Kept.tagged {rest : List Char} {after : List Lexeme × Bool} (h : Kept rest after)
    (c : Char) : Kept (c :: rest) (tagged c after) :=
  ⟨by rw [Statement.tagged, List.map_cons, Lexeme.char_ofCode, h.1], h.2⟩

theorem kept_lexLine {region : Region} {line : List Char} (h : Uncommented line)
    (outside : region ≠ .comment) : Kept line (lexLine region line) := by
  fun_induction lexLine region line with
  | case1 region => simp [Kept, outside]
  | case2 | case3 => exact absurd rfl outside
  -- the two patterns that start a comment
  | case13 rest => exact absurd ⟨[], rest, rfl⟩ h.remark
  | case14 rest => exact absurd ⟨[], rest, rfl⟩ h.comment
  | case4 c rest ih | case7 c rest ih => exact (ih h.tail.tail (by simp)).plain ['\\', c]
  | case10 rest ih | case12 rest ih => exact (ih h.tail.tail (by simp)).plain ['\\', '"']
  | case5 rest ih | case15 rest ih => exact (ih h.tail (by simp)).plain ['"']
  | case8 rest ih => exact (ih h.tail (by simp)).plain ['\'']
  | case6 c rest _ _ ih | case9 c rest _ _ ih | case11 c rest _ ih =>
    exact (ih h.tail (by simp)).plain [c]
  | case16 rest ih => exact (ih h.tail (by split <;> simp)).plain ['\'']
  | case17 c rest _ _ _ _ _ ih => exact (ih h.tail (by simp)).tagged c

/-- A line without comments that is read back from its characters. -/
structure Line.Legible (line : Line) : Prop where
  outside : line.inComment = false
  single : '\n' ∉ line.chars ∧ '\r' ∉ line.chars
  reread : lexLine .code line.chars = (line.lexemes, false)

namespace Line.Legible

theorem nil : Line.Legible ⟨false, []⟩ :=
  ⟨rfl, by simp [chars], rfl⟩

/-- Cut after a `;` of the code, the two parts are read back as well. -/
theorem cut {xs ys : List Lexeme} (h : Line.Legible ⟨false, xs ++ .semicolon :: ys⟩) :
    Line.Legible ⟨false, xs ++ [.semicolon]⟩ ∧ Line.Legible ⟨false, ys⟩ := by
  obtain ⟨front, back, whole, first, second⟩ := lexLine_cuttable .code _ xs ys false h.reread
  have chars : Line.chars ⟨false, xs ++ .semicolon :: ys⟩ =
      Line.chars ⟨false, xs ++ [.semicolon]⟩ ++ Line.chars ⟨false, ys⟩ := by
    simp [Line.chars]
  -- nothing is dropped from either part, since nothing is from the whole line
  have front_sub : (Line.chars ⟨false, xs ++ [.semicolon]⟩).Sublist front := by
    have := lexLine_sublist .code front
    rwa [first] at this
  have back_sub : (Line.chars ⟨false, ys⟩).Sublist back := by
    have := lexLine_sublist .code back
    rwa [second] at this
  have lengths := congrArg List.length (chars.symm.trans whole)
  rw [List.length_append, List.length_append] at lengths
  have front_le := front_sub.length_le
  have back_le := back_sub.length_le
  obtain rfl := front_sub.eq_of_length (by omega)
  obtain rfl := back_sub.eq_of_length (by omega)
  have single := h.single
  simp only [chars, List.mem_append, not_or] at single
  exact ⟨⟨rfl, ⟨single.1.1, single.2.1⟩, first⟩, ⟨rfl, ⟨single.1.2, single.2.2⟩, second⟩⟩

end Line.Legible

theorem legible_of_mem_lex {text : String} (noReturn : '\r' ∉ text.toList)
    (uncommented : Uncommented text.toList) : ∀ line ∈ lex text, line.Legible := by
  have each {line : List Char} (member : line ∈ Text.lines text.toList) :
      (lexLine .code line).2 = false ∧ Line.Legible ⟨false, (lexLine .code line).1⟩ := by
    have inside := Text.isInfix_of_mem_lines member
    have outside : Region.code ≠ .comment := by simp
    obtain ⟨chars, ends⟩ := kept_lexLine (uncommented.of_isInfix inside) outside
    refine ⟨ends, rfl, ?_, ?_⟩
    · rw [Line.chars, chars]
      exact ⟨Text.newline_notMem_of_mem_lines member, fun found => noReturn (inside.subset found)⟩
    · rw [Line.chars, chars]
      exact Prod.ext rfl ends
  unfold lex
  generalize Text.lines text.toList = lines at each
  induction lines with
  | nil => simp [lexLines]
  | cons line rest ih =>
    obtain ⟨ends, legible⟩ := each List.mem_cons_self
    simp only [lexLines, Bool.false_eq_true, if_false, ends, List.forall_mem_cons]
    exact ⟨legible, ih fun member => each (List.mem_cons_of_mem _ member)⟩

/-! ## From lines back to lines -/

def spelled (lines : List Line) : List Char :=
  (lines.map Line.chars).flatMap (· ++ ['\n'])

theorem lexLines_spelled {lines : List Line} (legible : ∀ line ∈ lines, line.Legible) :
    lexLines false (Text.lines (spelled lines)) = lines := by
  have same : Text.lines (spelled lines) = lines.map Line.chars := by
    rw [spelled, Text.lines_flatMap, List.flatMap_map, List.map_eq_flatMap]
    refine List.flatMap_congr fun line member => ?_
    exact Text.lines_single (legible line member).single
  rw [same]
  clear same
  induction lines with
  | nil => rfl
  | cons line rest ih =>
    rw [List.forall_mem_cons] at legible
    simp only [List.map_cons, lexLines, Bool.false_eq_true, if_false, legible.1.reread,
      ih legible.2]
    rw [← legible.1.outside]

@[simp] theorem spelled_append (a b : List Line) : spelled (a ++ b) = spelled a ++ spelled b := by
  simp [spelled]

@[simp] theorem spelled_singleton (line : Line) : spelled [line] = line.chars ++ ['\n'] := by
  simp [spelled]

@[simp] theorem tokens_append (a b : List Line) : tokens (a ++ b) = tokens a ++ tokens b := by
  simp [tokens]

@[simp] theorem tokens_singleton (line : Line) :
    tokens [line] = .lineStart line.inComment :: line.lexemes.map .lexeme := by
  simp [tokens]

/-- Lines of which each is read back, that spell out statements and make them up. -/
structure Layout (statements : List (List Char)) (lines : List Line) : Prop where
  legible : ∀ line ∈ lines, line.Legible
  text : spelled lines = statements.flatMap (· ++ ['\n'])
  cuts : cut 0 [] (tokens lines) = statements

theorem Layout.append {s : List Char} {statements : List (List Char)} {piece lines : List Line}
    (others : Layout statements lines) (legible : ∀ line ∈ piece, line.Legible)
    (text : spelled piece = s ++ ['\n'])
    (cuts : cut 0 [] (tokens piece ++ tokens lines) = s :: cut 0 [] (tokens lines)) :
    Layout (s :: statements) (piece ++ lines) where
  legible := List.forall_mem_append.2 ⟨legible, others.legible⟩
  text := by rw [spelled_append, text, others.text, List.flatMap_cons]
  cuts := by rw [tokens_append, cuts, others.cuts]

theorem Layout.exists_lineStart {statements : List (List Char)} {lines : List Line}
    (h : Layout statements lines) : ∃ rest, tokens lines = .lineStart false :: rest := by
  cases lines with
  | nil =>
    obtain rfl : [[]] = statements := h.cuts
    cases h.text
  | cons line lines =>
    refine ⟨line.lexemes.map .lexeme ++ tokens lines, ?_⟩
    rw [← (h.legible line List.mem_cons_self).outside]
    simp [tokens]

/-- What is gathered of a statement: its whole lines and the lexemes of the last one.  Read
    from the start, they lead to the braces that are open and to the pending text. -/
structure Gathered (depth : Nat) (pending : List Char) (whole : List Line) (last : List Lexeme) :
    Prop where
  legible : ∀ line ∈ whole, line.Legible
  text : pending = spelled whole ++ last.map Lexeme.char
  cuts : ∀ more, cut 0 [] (tokens whole ++ .lineStart false :: (last.map .lexeme ++ more)) =
    cut depth pending more

namespace Gathered

variable {depth : Nat} {pending : List Char} {whole lines : List Line} {last : List Lexeme}
  {statements : List (List Char)}

theorem nil : Gathered 0 [] [] [] :=
  ⟨by simp, rfl, fun more => by simp [tokens, cut]⟩

theorem legible_concat (h : Gathered depth pending whole last) {xs : List Lexeme}
    (legible : Line.Legible ⟨false, xs⟩) : ∀ line ∈ whole ++ [⟨false, xs⟩], line.Legible :=
  List.forall_mem_append.2 ⟨h.legible, by simpa using legible⟩

theorem add (h : Gathered depth pending whole last) {x : Lexeme}
    (goesOn : ¬ (depth = 0 ∧ x = .semicolon)) :
    Gathered (x.depth depth) (pending ++ [x.char]) whole (last ++ [x]) where
  legible := h.legible
  text := by rw [h.text, List.map_append, List.append_assoc]; rfl
  cuts more := by
    have here := h.cuts (.lexeme x :: more)
    rw [cut, if_neg goesOn] at here
    rw [← here]
    simp

theorem startLine (h : Gathered depth pending whole last) (deep : depth ≠ 0)
    (legible : Line.Legible ⟨false, last⟩) :
    Gathered depth (pending ++ ['\n']) (whole ++ [⟨false, last⟩]) [] where
  legible := h.legible_concat legible
  text := by simp [h.text, Line.chars]
  cuts more := by
    -- between braces the start of a line only adds a line end
    have here := h.cuts (.lineStart false :: more)
    simp only [cut, deep, false_and, if_false] at here
    rw [← here]
    simp

theorem layout_last (h : Gathered depth pending whole last)
    (legible : Line.Legible ⟨false, last⟩) : Layout [pending] (whole ++ [⟨false, last⟩]) where
  legible := h.legible_concat legible
  text := by simp [h.text, Line.chars]
  cuts := by
    have here := h.cuts []
    rw [cut] at here
    simpa using here

/-- A statement that ends with its line. -/
theorem layout_line (h : Gathered 0 pending whole last) (some : pending ≠ [])
    (legible : Line.Legible ⟨false, last⟩) (others : Layout statements lines) :
    Layout (pending :: statements) (whole ++ [⟨false, last⟩] ++ lines) := by
  refine others.append (h.legible_concat legible) (by simp [h.text, Line.chars]) ?_
  obtain ⟨rest, start⟩ := others.exists_lineStart
  have here := h.cuts (.lineStart false :: rest)
  simp only [cut, some, and_false, and_self, if_true, if_false] at here
  simpa [start, cut] using here

/-- A statement that ends with a `;`. -/
theorem layout_semicolon (h : Gathered 0 pending whole last)
    (legible : Line.Legible ⟨false, last ++ [.semicolon]⟩) (others : Layout statements lines) :
    Layout ((pending ++ [';']) :: statements)
      (whole ++ [⟨false, last ++ [.semicolon]⟩] ++ lines) := by
  refine others.append (h.legible_concat legible)
    (by simp [h.text, Line.chars, Lexeme.char]) ?_
  have here := h.cuts (.lexeme .semicolon :: tokens lines)
  rw [cut, if_pos ⟨rfl, rfl⟩] at here
  simpa [Lexeme.char] using here

/-- The rest `xs` of the line being read. -/
theorem exists_layout_line (h : Gathered depth pending whole last) {xs : List Lexeme}
    (legible : Line.Legible ⟨false, last ++ xs⟩) {rest : List Token}
    (next : ∀ {depth pending whole last}, Gathered depth pending whole last →
      Line.Legible ⟨false, last⟩ → ∃ lines, Layout (cut depth pending rest) lines) :
    ∃ lines, Layout (cut depth pending (xs.map .lexeme ++ rest)) lines := by
  induction xs generalizing depth pending whole last with
  | nil => exact next h (by simpa using legible)
  | cons x xs ih =>
    rw [List.map_cons, List.cons_append, cut]
    by_cases ends : depth = 0 ∧ x = .semicolon
    · rw [if_pos ends]
      obtain ⟨rfl, rfl⟩ := ends
      -- the rest of the line is read like a line of its own
      obtain ⟨front, back⟩ := legible.cut
      obtain ⟨lines, others⟩ := ih nil back
      exact ⟨_, h.layout_semicolon front others⟩
    · rw [if_neg ends]
      exact ih (h.add ends) (by simpa using legible)

theorem exists_layout (h : Gathered depth pending whole last)
    (legible : Line.Legible ⟨false, last⟩) (further : ∀ line ∈ lines, line.Legible) :
    ∃ laid, Layout (cut depth pending (tokens lines)) laid := by
  induction lines generalizing depth pending whole last with
  | nil => exact ⟨_, h.layout_last legible⟩
  | cons line lines ih =>
    rw [List.forall_mem_cons] at further
    -- the rest of the text, once what is gathered is dealt with
    have goesOn {depth pending whole} (h : Gathered depth pending whole []) :
        ∃ laid, Layout (cut depth pending (line.lexemes.map .lexeme ++ tokens lines)) laid := by
      refine h.exists_layout_line ?_ fun h legible => ih h legible further.2
      rw [List.nil_append, ← further.1.outside]
      exact further.1
    have start : tokens (line :: lines) =
        .lineStart false :: (line.lexemes.map .lexeme ++ tokens lines) := by
      simp [tokens, further.1.outside]
    rw [start, cut]
    by_cases deep : depth = 0
    · subst deep
      by_cases none : pending = []
      · subst none
        simpa using goesOn nil
      · obtain ⟨laid, others⟩ := goesOn nil
        simp only [none, and_false, and_self, if_true, if_false]
        exact ⟨_, h.layout_line none legible others⟩
    · simp only [deep, false_and, if_false]
      exact goesOn (h.startLine deep legible)

end Gathered

/-- Written one after the other, each with a line end, the statements of a text without
    comments are split into the same statements again. -/
theorem split_written {text : String} (noReturn : '\r' ∉ text.toList)
    (uncommented : Uncommented text.toList) : split (written (split text)) = split text := by
  obtain ⟨lines, layout⟩ : ∃ lines, Layout (cut 0 [] (tokens (lex text))) lines :=
    Gathered.nil.exists_layout .nil (legible_of_mem_lex noReturn uncommented)
  have spells : (written (split text)).toList = spelled lines := by
    rw [layout.text, split_eq_cut, written, String.toList_join]
    simp [List.flatMap_map]
  have again : lex (written (split text)) = lines := by
    rw [lex, spells, lexLines_spelled layout.legible]
  rw [split_eq_cut, again, layout.cuts, split_eq_cut]

/-- Statements that end in the middle of a line, after a literal, a quote without a partner
    and marks; braces over lines, one of them empty; and a last block that is left open. -/
def crowded : String :=
  "a = ';'; b = '; \\\"x; \x7b\\\"; void f() \x7b\n  g();\n\n\x7d \x7d;\n\n\x7b \"open;\n\n"

theorem split_written_crowded :
    '\r' ∉ crowded.toList ∧ Uncommented crowded.toList ∧
      split crowded = ["a = ';';", " b = ';", " \\\"x; \x7b\\\";",
        " void f() \x7b\n  g();\n\n\x7d \x7d;", "\x7b \"open;\n"] ∧
      split (written (split crowded)) = split crowded := by
  have noReturn : '\r' ∉ crowded.toList := by decide +kernel
  have uncommented : Uncommented crowded.toList := ⟨by decide +kernel, by decide +kernel⟩
  exact ⟨noReturn, uncommented, by decide +kernel, split_written noReturn uncommented⟩

end ScriptJar.Statement

import ScriptJar.Proofs.Lexemes

/-! # What comments hold

What stands in a comment never matters for the statements.  The scan looks one character
ahead, so up to the comment a line is read as if it ended there, provided that the line is
in code by then and its last character is no `/`.  Only a `'` looks further, for its partner
on the same line; there is none before the comment.

* `midway` — the state in the middle of a line;
* `scan_append` — up to a comment nothing is seen of it;
* `scan_comment` — a block comment ends with its first `*/`;
* `foldl_scanLine_block`, `foldl_scanLine_remark` — the state after a comment;
* `split_comment_contents` — the statements are the same for other contents.
-/

namespace ScriptJar

namespace Text

/-- A text up to its last line end. -/
def endedLines (s : List Char) : List Char :=
  (s.reverse.dropWhile (· ≠ '\n')).reverse

theorem endedLines_append_afterLast (s : List Char) :
    endedLines s ++ afterLast '\n' s = s := by
  rw [endedLines, afterLast, ← List.reverse_append, List.takeWhile_append_dropWhile,
    List.reverse_reverse]

theorem notMem_afterLast (sep : Char) (s : List Char) : sep ∉ afterLast sep s := by
  intro member
  simpa using List.all_eq_true.1 List.all_takeWhile sep (List.mem_reverse.1 member)

theorem lines_endedLines_append (s more : List Char) :
    lines (endedLines s ++ more) = lines (endedLines s) ++ lines more := by
  rcases List.eq_nil_or_concat (endedLines s) with none | ⟨front, c, ends⟩
  · simp [none, lines]
  · obtain rfl : c = '\n' := by
      have first := List.head?_dropWhile_not (· ≠ '\n') s.reverse
      rw [← List.reverse_reverse (List.dropWhile _ _), ← endedLines, ends] at first
      simpa using first
    simp only [List.concat_eq_append] at ends
    rw [ends, List.append_assoc, List.singleton_append, lines_append_newline]

theorem lines_append_of_notMem (w s : List Char) (single : '\n' ∉ w)
    (nonempty : w ≠ []) (noReturn : w.getLast? ≠ some '\r') :
    lines (w ++ s) = (w ++ (lines s).head?.getD []) :: (lines s).tail := by
  induction w with
  | nil => exact absurd rfl nonempty
  | cons c w ih =>
    rw [List.mem_cons, not_or] at single
    cases w with
    | nil =>
      refine lines_cons (Ne.symm single.1) ?_
      rintro rfl
      exact absurd rfl noReturn
    | cons b w =>
      have next : c = '\r' → (b :: w ++ s).head? ≠ some '\n' := by
        intro _ first
        exact single.2 (by simpa using Or.inl (Option.some.inj first).symm)
      rw [List.cons_append, lines_cons (Ne.symm single.1) next,
        ih single.2 (List.cons_ne_nil b w) (by simpa using noReturn)]
      rfl

theorem lines_concat_newline_of_notMem {s : List Char} (single : '\n' ∉ s) :
    ∃ line, lines (s ++ ['\n']) = [line] := by
  induction s with
  | nil => exact ⟨[], rfl⟩
  | cons c s ih =>
    rw [List.mem_cons, not_or] at single
    obtain ⟨line, rest⟩ := ih single.2
    by_cases pair : c = '\r' ∧ s = []
    · obtain ⟨rfl, rfl⟩ := pair
      exact ⟨[], rfl⟩
    · have next : c = '\r' → (s ++ ['\n']).head? ≠ some '\n' := by
        intro cr first
        cases s with
        | nil => exact pair ⟨cr, rfl⟩
        | cons b s => exact single.2 (by simpa using Or.inl (Option.some.inj first).symm)
      exact ⟨c :: line, by rw [List.cons_append, lines_cons (Ne.symm single.1) next, rest]; rfl⟩

end Text

namespace Statement

/-! ## The middle of a line -/

/-- The last line of a text, which is not ended. -/
def lastLine (text : String) : List Char :=
  Text.afterLast '\n' text.toList

/-- The mode and the draft after a text, in the middle of its last line. -/
def midway (text : String) : Mode × Draft :=
  let before := (Text.lines (Text.endedLines text.toList)).foldl scanLine (false, {})
  scan (if before.1 then .comment else .code) (before.2.startLine before.1) (lastLine text)

theorem newline_notMem_lastLine (text : String) : '\n' ∉ lastLine text :=
  Text.notMem_afterLast '\n' text.toList

theorem endedLines_append_lastLine (text : String) :
    Text.endedLines text.toList ++ lastLine text = text.toList :=
  Text.endedLines_append_afterLast text.toList

/-- A step looks no further than at the next character, but for character literals. -/
theorem step_append {mode : Mode} {d : Draft} {c : Char} {rest : List Char} (quote : c ≠ '\'')
    (some : rest ≠ []) (more : List Char) : step mode d c (rest ++ more) = step mode d c rest := by
  have first : (rest ++ more).head? = rest.head? := List.head?_append_of_ne_nil _ some
  cases mode with
  | copy n next => cases n <;> rfl
  | remark | skip => rfl
  | comment | string | marked => simp [step, first, some]
  | code => simp only [step, first, if_neg quote]

/-- A `/` as the next character does not matter for a step that ends in code. -/
theorem step_last {mode : Mode} {d : Draft} {c : Char} (quote : c ≠ '\'') (slash : c ≠ '/')
    (code : (step mode d c []).1 = .code) (more : List Char) :
    step mode d c ('/' :: more) = step mode d c [] := by
  cases mode with
  | copy n next => cases n <;> rfl
  | skip => rfl
  -- the next three do not lead into code at the end of a line
  | remark => cases code
  | comment => simp [step] at code
  | marked => simp [step] at code
  | string =>
    by_cases ends : c = '"'
    · simp [step, ends]
    · simp [step, ends] at code
  | code => simp [step, quote, slash]

/-- Up to a comment, a line of code is read as if it ended there. -/
theorem scan_append {mode : Mode} {d : Draft} {line more : List Char} (quote : '\'' ∉ line)
    (slash : line.getLast? ≠ some '/') (code : (scan mode d line).1 = .code)
    (comment : more.head? = some '/') :
    scan mode d (line ++ more) = scan .code (scan mode d line).2 more := by
  induction line generalizing mode d with
  | nil =>
    obtain rfl : mode = .code := code
    rfl
  | cons c rest ih =>
    rw [List.mem_cons, not_or] at quote
    rw [List.cons_append, scan, scan]
    have here : step mode d c (rest ++ more) = step mode d c rest := by
      cases rest with
      | nil =>
        obtain ⟨more, rfl⟩ := List.head?_eq_some_iff.1 comment
        exact step_last (Ne.symm quote.1) (by simpa using slash) code more
      | cons b rest => exact step_append (Ne.symm quote.1) (List.cons_ne_nil b rest) more
    simp only [here]
    refine ih quote.2 ?_ code
    cases rest with
    | nil => simp
    | cons b rest => simpa using slash

theorem scan_comment (d : Draft) {contents : List Char} (open_ : ¬ ['*', '/'] <:+: contents)
    (rest : List Char) :
    scan .comment d (contents ++ '*' :: '/' :: rest) = scan .code d rest := by
  induction contents with
  | nil => simp [scan, step]
  | cons c contents ih =>
    rw [List.infix_cons_iff, not_or] at open_
    have inside : ¬ (c = '*' ∧ (contents ++ '*' :: '/' :: rest).head? = some '/') := by
      rintro ⟨rfl, next⟩
      cases contents with
      | nil => simp at next -- the next character is the `*` of the end
      | cons b contents =>
        obtain rfl : b = '/' := by simpa using next
        exact open_.1 ⟨contents, rfl⟩
    rw [List.cons_append, scan, step, if_neg inside]
    exact ih open_.2

/-! ## Comments in a text -/

/-- A text that ends in the middle of a line of code: a comment may be put there, and no
    character literal can reach into it. -/
structure PlainEnd (text : String) : Prop where
  code : (midway text).1 = .code
  slash : text.toList.getLast? ≠ some '/'
  quote : '\'' ∉ lastLine text

/-- What a line leaves for the next one: whether a block comment is open, and the draft. -/
def atLineEnd (state : Mode × Draft) : Bool × Draft :=
  (state.1 == .comment, state.2)

section

variable {p : String} {contents : List Char}

/-- The lines of a text that goes on with a comment. -/
theorem foldl_scanLine_append (plain : PlainEnd p) {more line : List Char}
    {others : List (List Char)} (comment : line.head? = some '/')
    (lines : Text.lines (lastLine p ++ more) = (lastLine p ++ line) :: others) :
    (Text.lines (p.toList ++ more)).foldl scanLine (false, {}) =
      others.foldl scanLine (atLineEnd (scan .code (midway p).2 line)) := by
  have slash : (lastLine p).getLast? ≠ some '/' := by
    intro last
    apply plain.slash
    rw [← endedLines_append_lastLine, List.getLast?_append, last]
    rfl
  have first := scan_append plain.quote slash plain.code comment
  -- the lines before the last one are the same; the last one goes on with the comment
  rw [← endedLines_append_lastLine, List.append_assoc, Text.lines_endedLines_append, lines,
    List.foldl_append, List.foldl_cons, scanLine, first]
  rfl

theorem foldl_scanLine_block (plain : PlainEnd p) (single : '\n' ∉ contents)
    (open_ : ¬ ['*', '/'] <:+: contents) (s : List Char) :
    (Text.lines (p.toList ++ ("/*".toList ++ contents ++ "*/".toList ++ s))).foldl scanLine
        (false, {}) =
      (Text.lines s).tail.foldl scanLine
        (atLineEnd (scan .code (midway p).2 ((Text.lines s).head?.getD []))) := by
  let comment := "/*".toList ++ contents ++ "*/".toList
  have last : (lastLine p ++ comment).getLast? = some '/' := by
    rw [List.getLast?_append_of_ne_nil _ (by simp [comment]),
      List.getLast?_append_of_ne_nil _ (by simp)]
    rfl
  have lines : Text.lines (lastLine p ++ (comment ++ s)) =
      (lastLine p ++ (comment ++ (Text.lines s).head?.getD [])) :: (Text.lines s).tail := by
    have joined := Text.lines_append_of_notMem (lastLine p ++ comment) s
      (by simp [comment, newline_notMem_lastLine, single]) (by simp [comment]) (by simp [last])
    simpa only [List.append_assoc (lastLine p)] using joined
  have here (rest : List Char) : scan .code (midway p).2 (comment ++ rest) =
      scan .comment (midway p).2 (contents ++ '*' :: '/' :: rest) := by
    simp [comment, scan, step]
  rw [foldl_scanLine_append plain rfl lines, here, scan_comment _ open_]

theorem foldl_scanLine_remark (plain : PlainEnd p) (single : '\n' ∉ contents) (s : List Char) :
    (Text.lines (p.toList ++ ("//".toList ++ (contents ++ '\n' :: s)))).foldl scanLine
        (false, {}) =
      (Text.lines s).foldl scanLine (false, (midway p).2) := by
  obtain ⟨line, ended⟩ := Text.lines_concat_newline_of_notMem single
  have lines : Text.lines (lastLine p ++ ("//".toList ++ (contents ++ '\n' :: s))) =
      (lastLine p ++ ("//".toList ++ line)) :: Text.lines s := by
    have joined := Text.lines_append_of_notMem (lastLine p ++ "//".toList) (contents ++ '\n' :: s)
      (by simp [newline_notMem_lastLine]) (by simp) (by simp)
    rw [Text.lines_append_newline, ended, List.append_assoc, List.append_assoc] at joined
    exact joined
  have here : scan .code (midway p).2 ("//".toList ++ line) =
      scan .remark (midway p).2 ('/' :: line) := by
    simp [scan, step]
  rw [foldl_scanLine_append plain rfl lines, here, scan_remark]
  rfl

end

/-- What a comment holds does not matter: any other one may stand in its place, in a block
    comment within a line and in a comment to the end of the line. -/
theorem split_comment_contents {p : String} (plain : PlainEnd p) (s : String) :
    (∀ c c' : String, '\n' ∉ c.toList → '\n' ∉ c'.toList →
      ¬ ['*', '/'] <:+: c.toList → ¬ ['*', '/'] <:+: c'.toList →
      split (p ++ "/*" ++ c ++ "*/" ++ s) = split (p ++ "/*" ++ c' ++ "*/" ++ s)) ∧
    (∀ c c' : String, '\n' ∉ c.toList → '\n' ∉ c'.toList →
      split (p ++ "//" ++ c ++ "\n" ++ s) = split (p ++ "//" ++ c' ++ "\n" ++ s)) := by
  constructor
  · intro c c' single single' open_ open_'
    have block (c : String) : (p ++ "/*" ++ c ++ "*/" ++ s).toList =
        p.toList ++ ("/*".toList ++ c.toList ++ "*/".toList ++ s.toList) := by
      simp only [String.toList_append, List.append_assoc]
    rw [split, split, block, block, foldl_scanLine_block plain single open_,
      foldl_scanLine_block plain single' open_']
  · intro c c' single single'
    have remark (c : String) : (p ++ "//" ++ c ++ "\n" ++ s).toList =
        p.toList ++ ("//".toList ++ (c.toList ++ '\n' :: s.toList)) := by
      simp only [String.toList_append, List.append_assoc]
      rfl
    rw [split, split, remark, remark, foldl_scanLine_remark plain single,
      foldl_scanLine_remark plain single']

/-- A quote without a partner on an earlier line, a block comment that ends on the last line,
    a string with comment marks, and an open brace. -/
def midBlock : String :=
  "c = '\n/* ;\n*/ s = \"/*\"; t \x7b"

theorem split_comment_contents_hostile :
    PlainEnd midBlock ∧
      split (midBlock ++ "/*" ++ "'\"; \x7b // /* \\*" ++ "*/" ++ " \x7d // '\n' u;") =
        ["c = '", " s = \"/*\";", " t \x7b \x7d ", "' u;", ""] ∧
      split (midBlock ++ "/*" ++ "'\"; \x7b // /* \\*" ++ "*/" ++ " \x7d // '\n' u;") =
        split (midBlock ++ "/*" ++ "" ++ "*/" ++ " \x7d // '\n' u;") ∧
      split (midBlock ++ "//" ++ "'\"; \x7d /*\r" ++ "\n" ++ " \x7d // '\n' u;") =
        split (midBlock ++ "//" ++ "" ++ "\n" ++ " \x7d // '\n' u;") := by
  have plain : PlainEnd midBlock :=
    ⟨by decide +kernel, by decide +kernel, by decide +kernel⟩
  obtain ⟨block, remark⟩ := split_comment_contents plain " \x7d // '\n' u;"
  exact ⟨plain, by decide +kernel,
    block _ _ (by decide +kernel) (by decide) (by decide +kernel) (by decide),
    remark _ _ (by decide +kernel) (by decide)⟩

end Statement

end ScriptJar

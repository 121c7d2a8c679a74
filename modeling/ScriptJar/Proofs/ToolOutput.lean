import Mathlib.Data.List.TakeWhile
import ScriptJar.Jdk
import ScriptJar.Proofs.BuildLog

/-! # What is read of the tools' output

Bytes that a tool writes are cut into lines before they are decoded, or after.  Both give
the same lines, because no character but the line feed has its byte in UTF-8.  The
compiler's lines are only taken up to the first one that is not UTF-8, so that an error it
points at may be lost, and the build goes on as if there were none.  From that line on
the compiler has no time limit either.

* `Text.Utf8.decodeLossy_append_cons` — decoding starts afresh at every ASCII byte;
* `lossyTextLines_eq` — cutting and decoding can be exchanged;
* `Jdk.compile_reads_leading` — what a build learns from the compiler's output;
* `Jdk.compile_timedOut_iff` — when the compiler is stopped;
* `Job.build_of_overflow` — a time limit that is too long for the clock.
-/

namespace ScriptJar

/-! ## Decoding around ASCII bytes -/

namespace Text.Utf8

/-- The states of a decoder: a byte that goes on with a character is not ASCII, and neither
    is the character. -/
def State.Proper : State → Prop
  | .start => True
  | .within more value low _ =>
    0x80 ≤ low ∧ (2 ≤ value ∨ (0 < more ∧ 2 ≤ 64 * value + (low - 0x80)))

/-- What becomes of a character that is cut off. -/
def State.cutOff : State → List (Option Char)
  | .start => []
  | .within .. => [none]

theorem piecesFrom_nil (state : State) : piecesFrom state [] = state.cutOff := by
  cases state <;> rfl

theorem piecesFrom_cons (state : State) (b : UInt8) (rest : List UInt8) :
    piecesFrom state (b :: rest) =
      (step state b.toNat).1 ++ piecesFrom (step state b.toNat).2 rest := by
  cases state <;> rfl

/-- A byte between characters is a character, begins one, or is no part of any. -/
theorem first_cases (b : Nat) :
    (b < 0x80 ∧ first b = ([some (Char.ofNat b)], .start)) ∨
      (∃ more value low high, (State.within more value low high).Proper ∧
        first b = ([], .within more value low high)) ∨
      first b = ([none], .start) := by
  by_cases ascii : b < 0x80
  · exact .inl ⟨ascii, if_pos ascii⟩
  · right
    rw [first, if_neg ascii]
    iterate 7
      split
      · refine .inl ⟨_, _, _, _, ⟨?_, ?_⟩, rfl⟩ <;> omega
    exact .inr rfl

theorem proper_first (b : Nat) : (first b).2.Proper := by
  rcases first_cases b with ⟨-, eq⟩ | ⟨_, _, _, _, proper, eq⟩ | eq
  · rw [eq]
    trivial
  · rw [eq]
    exact proper
  · rw [eq]
    trivial

theorem proper_step {state : State} (proper : state.Proper) (b : Nat) :
    (step state b).2.Proper := by
  cases state with
  | start => exact proper_first b
  | within more value low high =>
    obtain ⟨above, long⟩ := proper
    simp only [step]
    split
    · cases more with
      | zero => trivial
      | succ more =>
        simp only [State.Proper]
        omega
    · exact proper_first b

theorem step_ascii {state : State} (proper : state.Proper) {b : Nat} (ascii : b < 0x80) :
    step state b = (state.cutOff ++ [some (Char.ofNat b)], .start) := by
  have fresh : first b = ([some (Char.ofNat b)], .start) := by rw [first, if_pos ascii]
  cases state with
  | start => exact fresh
  | within more value low high =>
    have outside : ¬ (low ≤ b ∧ b ≤ high) := by
      have above : 0x80 ≤ low := proper.1
      omega
    simp only [step, outside, if_false, fresh]
    rfl

/-- An ASCII byte is a character of its own, whatever stands before it. -/
theorem piecesFrom_append_cons {state : State} (proper : state.Proper) (front : List UInt8)
    {b : UInt8} (ascii : b.toNat < 0x80) (rest : List UInt8) :
    piecesFrom state (front ++ b :: rest) =
      piecesFrom state front ++ some (Char.ofNat b.toNat) :: pieces rest := by
  induction front generalizing state with
  | nil =>
    rw [List.nil_append, piecesFrom_cons, step_ascii proper ascii, piecesFrom_nil]
    simp [pieces]
  | cons c front ih =>
    rw [List.cons_append, piecesFrom_cons, piecesFrom_cons, ih (proper_step proper _),
      List.append_assoc]

theorem decodeLossy_append_cons (front : List UInt8) {b : UInt8} (ascii : b.toNat < 0x80)
    (rest : List UInt8) :
    decodeLossy (front ++ b :: rest) =
      decodeLossy front ++ Char.ofNat b.toNat :: decodeLossy rest := by
  have proper : State.start.Proper := trivial
  rw [decodeLossy, pieces, piecesFrom_append_cons proper front ascii]
  simp [decodeLossy, pieces]

theorem toNat_ofNat (n : Nat) : (Char.ofNat n).toNat = n ∨ (Char.ofNat n).toNat = 0 := by
  by_cases valid : n.isValidChar
  · rw [Char.ofNat, dif_pos valid]
    exact .inl rfl
  · rw [Char.ofNat, dif_neg valid]
    exact .inr rfl

theorem toNat_of_mem_first {c : Char} {b : Nat} (h : some c ∈ (first b).1) (named : 0 < c.toNat) :
    c.toNat = b := by
  rcases first_cases b with ⟨-, eq⟩ | ⟨_, _, _, _, -, eq⟩ | eq
  · rw [eq] at h
    have made : c = Char.ofNat b := Option.some.inj (List.mem_singleton.1 h)
    rw [made] at named ⊢
    rcases toNat_ofNat b with code | zero <;> omega
  · rw [eq] at h
    cases h
  · rw [eq] at h
    cases List.mem_singleton.1 h

/-- An ASCII character is not made by any byte but its own. -/
theorem toNat_of_mem_step {state : State} (proper : state.Proper) {c : Char} {b : Nat}
    (h : some c ∈ (step state b).1) (named : 0 < c.toNat) (ascii : c.toNat < 0x80) :
    c.toNat = b := by
  cases state with
  | start => exact toNat_of_mem_first h named
  | within more value low high =>
    obtain ⟨above, long⟩ := proper
    simp only [step] at h
    split at h
    · cases more with
      | zero =>
        -- no character of two bytes or more is so small
        have made : c = Char.ofNat (64 * value + (b - 0x80)) :=
          Option.some.inj (List.mem_singleton.1 h)
        rw [made] at named ascii
        rcases toNat_ofNat (64 * value + (b - 0x80)) with code | zero <;> omega
      | succ more => cases h
    · rcases List.mem_cons.1 h with same | fresh
      · cases same
      · exact toNat_of_mem_first fresh named

theorem mem_of_mem_piecesFrom {state : State} (proper : state.Proper) {bytes : List UInt8}
    {c : Char} (h : some c ∈ piecesFrom state bytes) (named : 0 < c.toNat)
    (ascii : c.toNat < 0x80) : ∃ b ∈ bytes, b.toNat = c.toNat := by
  induction bytes generalizing state with
  | nil =>
    rw [piecesFrom_nil] at h
    cases state <;> simp [State.cutOff] at h
  | cons b bytes ih =>
    rw [piecesFrom_cons, List.mem_append] at h
    rcases h with here | later
    · exact ⟨b, List.mem_cons_self, (toNat_of_mem_step proper here named ascii).symm⟩
    · obtain ⟨b', member, same⟩ := ih (proper_step proper _) later
      exact ⟨b', List.mem_cons_of_mem _ member, same⟩

theorem mem_of_mem_decodeLossy {bytes : List UInt8} {b : UInt8}
    (h : Char.ofNat b.toNat ∈ decodeLossy bytes) (named : 0 < b.toNat) (ascii : b.toNat < 0x80) :
    b ∈ bytes := by
  have code : (Char.ofNat b.toNat).toNat = b.toNat := by
    rw [Char.ofNat, dif_pos (.inl (by omega))]
    rfl
  obtain ⟨piece, member, same⟩ := List.mem_map.1 h
  cases piece with
  | none =>
    rw [← same] at code
    have large : ('\uFFFD').toNat = 0xFFFD := rfl
    simp only [Option.getD_none, large] at code
    omega
  | some c =>
    obtain rfl : c = Char.ofNat b.toNat := same
    have proper : State.start.Proper := trivial
    obtain ⟨b', member, same⟩ :=
      mem_of_mem_piecesFrom proper member (by omega) (by omega)
    rwa [← UInt8.toNat_inj.1 (same.trans code)]

/-- Every byte shows in the text. -/
theorem piecesFrom_within_ne_nil (more value low high : Nat) (bytes : List UInt8) :
    piecesFrom (.within more value low high) bytes ≠ [] := by
  induction bytes generalizing more value low high with
  | nil => simp [piecesFrom_nil, State.cutOff]
  | cons b bytes ih =>
    rw [piecesFrom_cons]
    simp only [step]
    split
    · cases more with
      | zero => simp
      | succ more => exact ih more _ _ _
    · simp

theorem decodeLossy_ne_nil {bytes : List UInt8} (some : bytes ≠ []) : decodeLossy bytes ≠ [] := by
  cases bytes with
  | nil => exact absurd rfl some
  | cons b rest =>
    rw [decodeLossy, pieces, piecesFrom_cons, Ne, List.map_eq_nil_iff, List.append_eq_nil_iff]
    rintro ⟨nothing, empty⟩
    rw [step] at nothing empty
    rcases first_cases b.toNat with ⟨-, eq⟩ | ⟨_, _, _, _, -, eq⟩ | eq
    · simp [eq] at nothing
    · rw [eq] at empty
      exact piecesFrom_within_ne_nil _ _ _ _ _ empty
    · simp [eq] at nothing

end Text.Utf8

/-! ## Cutting into lines -/

section Cutting

variable {α : Type} [DecidableEq α] {feed ret : α}

/-- A list without its last element, if it is a given one. -/
def dropEnd (a : α) (s : List α) : List α :=
  if s.getLast? = some a then s.dropLast else s

/-- The lines of a list over any alphabet: a line ends at a line feed, and a return before
    it belongs to the end. -/
def linesBy (feed ret : α) : List α → List (List α)
  | [] => []
  | a :: rest =>
    if a = feed then [] :: linesBy feed ret rest
    else if a = ret ∧ rest.head? = some feed then linesBy feed ret rest
    else
      match linesBy feed ret rest with
      | [] => [[a]]
      | line :: more => (a :: line) :: more

theorem dropEnd_cons_cons (a b c : α) (s : List α) :
    dropEnd a (b :: c :: s) = b :: dropEnd a (c :: s) := by
  unfold dropEnd
  rw [List.getLast?_cons_cons]
  split <;> rfl

theorem linesBy_append_cons {s : List α} (whole : feed ∉ s) (rest : List α) :
    linesBy feed ret (s ++ feed :: rest) = dropEnd ret s :: linesBy feed ret rest := by
  induction s with
  | nil => simp [linesBy, dropEnd]
  | cons a s ih =>
    rw [List.mem_cons, not_or] at whole
    have inside : a ≠ feed := Ne.symm whole.1
    rw [List.cons_append, linesBy, if_neg inside, ih whole.2]
    cases s with
    | nil =>
      -- the line feed follows, and a return before it is dropped
      by_cases last : a = ret <;> simp [dropEnd, last]
    | cons b s =>
      have next : b ≠ feed := fun same => whole.2 (same ▸ List.mem_cons_self)
      rw [if_neg (by simp [next]), dropEnd_cons_cons]

theorem linesBy_of_notMem {s : List α} (whole : feed ∉ s) (some : s ≠ []) :
    linesBy feed ret s = [s] := by
  induction s with
  | nil => exact absurd rfl some
  | cons a s ih =>
    rw [List.mem_cons, not_or] at whole
    have next : s.head? ≠ Option.some feed := fun first => whole.2 (List.mem_of_head? first)
    rw [linesBy, if_neg (Ne.symm whole.1), if_neg (by simp [next])]
    cases s with
    | nil => rfl
    | cons b s => rw [ih whole.2 (List.cons_ne_nil b s)]

end Cutting

theorem byteLines_eq (bytes : List UInt8) : byteLines bytes = linesBy 10 13 bytes := by
  induction bytes with
  | nil => rfl
  | cons b bytes ih =>
    rw [byteLines, linesBy, ih]
    cases linesBy 10 13 bytes <;> rfl

theorem lines_eq (s : List Char) : Text.lines s = linesBy '\n' '\r' s := by
  induction s with
  | nil => rfl
  | cons c rest ih =>
    rw [linesBy, ← ih]
    by_cases ends : c = '\n'
    · simp [ends, Text.lines]
    · by_cases pair : c = '\r' ∧ rest.head? = some '\n'
      · obtain ⟨rfl, next⟩ := pair
        obtain ⟨tail, rfl⟩ := List.head?_eq_some_iff.1 next
        simp [Text.lines]
      · rw [Text.lines_cons ends fun cr next => pair ⟨cr, next⟩, if_neg ends, if_neg pair]
        cases Text.lines rest <;> rfl

/-! ## Cutting and decoding -/

open Text Utf8

theorem decodeLossy_concat_return (front : List UInt8) :
    decodeLossy (front ++ [13]) = decodeLossy front ++ ['\r'] :=
  decodeLossy_append_cons front (by decide) []

theorem getLast?_decodeLossy (bytes : List UInt8) :
    (decodeLossy bytes).getLast? = some '\r' ↔ bytes.getLast? = some 13 := by
  constructor
  · intro ends
    have member : (13 : UInt8) ∈ bytes.reverse := List.mem_reverse.2
      (mem_of_mem_decodeLossy (b := 13) (List.mem_of_getLast? ends) (by decide) (by decide))
    -- after the last return there is nothing, or the text would end in something else
    obtain ⟨after, before, cut, last⟩ := List.eq_append_cons_of_mem member
    have whole : bytes = before.reverse ++ 13 :: after.reverse := by
      rw [← List.reverse_reverse bytes, cut]
      simp
    by_cases none : after = []
    · simp [whole, none]
    · have some : decodeLossy after.reverse ≠ [] := decodeLossy_ne_nil (by simpa using none)
      rw [whole, decodeLossy_append_cons _ (by decide), List.getLast?_append_cons,
        List.getLast?_cons_of_ne_nil some] at ends
      have inside := mem_of_mem_decodeLossy (b := 13) (List.mem_of_getLast? ends) (by decide)
        (by decide)
      exact absurd (List.mem_reverse.1 inside) last
  · intro ends
    obtain ⟨front, rfl⟩ := List.getLast?_eq_some_iff.1 ends
    simp [decodeLossy_concat_return]

theorem dropEnd_decodeLossy (bytes : List UInt8) :
    dropEnd '\r' (decodeLossy bytes) = decodeLossy (dropEnd 13 bytes) := by
  simp only [dropEnd, getLast?_decodeLossy]
  split
  · next ends =>
    obtain ⟨front, rfl⟩ := List.getLast?_eq_some_iff.1 ends
    rw [decodeLossy_concat_return, List.dropLast_concat, List.dropLast_concat]
  · rfl

theorem lines_decodeLossy (bytes : List UInt8) :
    lines (decodeLossy bytes) = (byteLines bytes).map decodeLossy := by
  rw [lines_eq, byteLines_eq]
  -- line by line: the decoder is between characters at every line feed
  by_cases ends : 10 ∈ bytes
  · obtain ⟨front, rest, rfl, whole⟩ := List.eq_append_cons_of_mem ends
    have single : '\n' ∉ decodeLossy front := fun member =>
      whole (mem_of_mem_decodeLossy (b := 10) member (by decide) (by decide))
    have ih := lines_decodeLossy rest
    rw [lines_eq, byteLines_eq] at ih
    rw [decodeLossy_append_cons front (by decide), linesBy_append_cons whole, List.map_cons, ← ih,
      ← dropEnd_decodeLossy]
    exact linesBy_append_cons single _
  · have single : '\n' ∉ decodeLossy bytes := fun member =>
      ends (mem_of_mem_decodeLossy (b := 10) member (by decide) (by decide))
    by_cases none : bytes = []
    · rw [none]
      rfl
    · rw [linesBy_of_notMem ends none, linesBy_of_notMem single (decodeLossy_ne_nil none)]
      rfl
termination_by bytes.length
decreasing_by simp_all; omega

/-- A line with replacement characters where it is not UTF-8. -/
def lossyLine (line : List UInt8) : String :=
  String.ofList (decodeLossy line)

/-- The lines of the whole text are the decoded lines. -/
theorem lossyTextLines_eq (bytes : List UInt8) :
    lossyTextLines bytes = (byteLines bytes).map lossyLine := by
  rw [lossyTextLines, lines_decodeLossy, List.map_map]
  rfl

/-! ## The leading lines -/

def isUtf8 (bytes : List UInt8) : Bool :=
  (decode? bytes).isSome

theorem decode?_of_isUtf8 {bytes : List UInt8} (valid : isUtf8 bytes = true) :
    decode? bytes = some (decodeLossy bytes) := by
  have all (ps : List (Option Char)) (valid : (ps.mapM id).isSome = true) :
      ps.mapM id = some (ps.map (·.getD '\uFFFD')) := by
    induction ps with
    | nil => rfl
    | cons p ps ih =>
      cases p with
      | none => simp at valid
      | some c =>
        cases rest : ps.mapM id with
        | none => simp [rest] at valid
        | some s =>
          have same := (ih (by simp [rest])).symm.trans rest
          simp [rest, Option.some.inj same]
  exact all _ valid

theorem leadingTextLines_eq (bytes : List UInt8) :
    leadingTextLines bytes = ((byteLines bytes).takeWhile isUtf8).map lossyLine := by
  unfold leadingTextLines
  induction byteLines bytes with
  | nil => rfl
  | cons line lines ih =>
    cases valid : isUtf8 line with
    | false =>
      have none : decode? line = none := by simpa [isUtf8] using valid
      simp [valid, none]
    | true => simp [valid, decode?_of_isUtf8 valid, ih, lossyLine]

theorem leadingTextLines_take (bytes : List UInt8) :
    leadingTextLines bytes =
      (lossyTextLines bytes).take ((byteLines bytes).takeWhile isUtf8).length := by
  rw [leadingTextLines_eq, lossyTextLines_eq, ← List.map_take,
    ← List.prefix_iff_eq_take.1 (List.takeWhile_prefix isUtf8)]

theorem leadingTextLines_eq_iff (bytes : List UInt8) :
    leadingTextLines bytes = lossyTextLines bytes ↔
      ∀ line ∈ byteLines bytes, isUtf8 line = true := by
  rw [leadingTextLines_eq, lossyTextLines_eq]
  constructor
  · intro same line member
    have lengths := congrArg List.length same
    rw [List.length_map, List.length_map] at lengths
    rw [← (List.takeWhile_prefix isUtf8).eq_of_length lengths] at member
    exact List.mem_takeWhile_imp member
  · intro valid
    rw [List.takeWhile_eq_self_iff.2 valid]

/-- A line that points at an error is UTF-8, and so are all lines before it. -/
def Heard (bytes : List UInt8) : Prop :=
  ∃ before line after, byteLines bytes = before ++ line :: after ∧
    (∀ l ∈ before ++ [line], isUtf8 l = true) ∧
    (Diagnostic.parse? (lossyLine line)).isSome = true

theorem isSome_first?_leadingTextLines (bytes : List UInt8) :
    (Diagnostic.first? (leadingTextLines bytes)).isSome = true ↔ Heard bytes := by
  rw [Diagnostic.first?, leadingTextLines_eq, List.findSome?_isSome_iff]
  simp only [List.mem_map, exists_exists_and_eq_and]
  constructor
  · rintro ⟨line, member, located⟩
    obtain ⟨before, after, cut⟩ := List.append_of_mem member
    refine ⟨before, line, after ++ (byteLines bytes).dropWhile isUtf8, ?_, fun l inside => ?_,
      located⟩
    · rw [← List.cons_append, ← List.append_assoc, ← cut, List.takeWhile_append_dropWhile]
    · apply List.mem_takeWhile_imp (l := byteLines bytes)
      rw [cut]
      simp only [List.mem_append, List.mem_cons] at inside ⊢
      tauto
  · rintro ⟨before, line, after, whole, valid, located⟩
    refine ⟨line, ?_, located⟩
    rw [whole, List.append_cons, List.takeWhile_append_of_pos valid]
    simp

/-! ## What a build learns -/

variable {σ : Type}

/-- The pass that ends with a report goes on to the archive exactly if the report points at
    no error. -/
theorem Job.archives_iff {job : Job} {t : Toolchain σ} {s : Progress σ} {sources : List Path}
    {report : CompileReport} (compiling : s.phase = .compile sources)
    (answer : (t.compile (job.compileRequest s.graph sources) s.world.files s.world.tools).result =
      .ok report) :
    (∃ errors, (job.step t (job.step t s)).phase = .archive errors) ↔
      Diagnostic.first? report.stderr = none := by
  obtain ⟨phase, n, g, w⟩ := s
  obtain rfl : phase = .compile sources := compiling
  have compiled : job.step t ⟨.compile sources, n, g, w⟩ =
      ⟨.diagnose report, n, g, (w.compile t (job.compileRequest g sources)).2⟩ := by
    simp only [step, World.compile, show (t.compile (job.compileRequest g sources) w.files
      w.tools).result = .ok report from answer]
  rw [compiled]
  cases first : Diagnostic.first? report.stderr with
  | none => simp [step, first]
  | some d =>
    rcases corrected : g.correct (w.compile t (job.compileRequest g sources)).2.files d with
      ⟨_ | _, g', warnings⟩ <;> simp [step, first, corrected]

/-- Watching a program changes at most how it ends: it is not stopped if nothing more is
    read from it. -/
theorem Launcher.watch_of_start {l : Launcher σ} {c : Command} {timeout : Nat}
    {files files' : FileTree} {tools tools' : σ} {e : Execution}
    (ran : l.start c (some timeout) files tools = (.ok e, files', tools')) :
    ∃ ending, (l.watch c timeout files tools).1 = .ok { e with ending } ∧
      (ending = .unfinished ↔ e.ending = .unfinished ∧ e.isCutOff = false) ∧
      (ending = .exited 0 ↔ e.ending = .exited 0 ∨ e.ending = .unfinished ∧ e.isCutOff = true ∧
        ∃ e', (l.start c none files tools).1 = .ok e' ∧ e'.ending = .exited 0) := by
  unfold watch
  rw [ran]
  dsimp only
  by_cases void : e.ending = .unfinished ∧ e.isCutOff = true
  · rw [if_pos void]
    obtain ⟨late, cut⟩ := void
    rcases l.start c none files tools with ⟨_ | e', files'', tools''⟩
    · exact ⟨_, rfl, by simp [late, cut, Except.toOption]⟩
    · refine ⟨_, rfl, ?_⟩
      cases ended : e'.ending with
      | exited code => simp [late, cut, ended, Except.toOption, Ending.code?]
      | killed | unfinished => simp [late, cut, ended, Except.toOption, Ending.code?]
  · rw [if_neg void]
    refine ⟨e.ending, rfl, ?_, ?_⟩
    · rw [not_and, Bool.not_eq_true] at void
      exact ⟨fun late => ⟨late, void late⟩, And.left⟩
    · exact ⟨.inl, fun h => h.elim id fun waited => absurd ⟨waited.1, waited.2.1⟩ void⟩

theorem Jdk.result_compile {jdk : Jdk} {l : Launcher σ} {request : CompileRequest}
    {files : FileTree} {tools : σ} {e : Execution}
    (watched : (l.watch ⟨jdk.tool "javac", request.arguments⟩ jdk.timeout files tools).1 =
      .ok e) :
    (jdk.compile l request files tools).result = .ok (reportOf e) ∧
      (jdk.compile l request files tools).warnings =
        if e.ending = .unfinished then
          [.timedOut (jdk.tool "javac") (durationWords jdk.timeout)]
        else [] := by
  unfold compile
  dsimp only
  rcases run : l.watch ⟨jdk.tool "javac", request.arguments⟩ jdk.timeout files tools with
    ⟨result, files', tools'⟩
  rw [run] at watched
  obtain rfl : result = .ok e := watched
  exact ⟨rfl, rfl⟩

/-- One line is reported for each line that the compiler wrote, in order, up to the first
    that is not UTF-8, and no more.  So the report points at an error, and the build does
    not go on to the archive, exactly if some line that points at an error is UTF-8
    together with all lines before it. -/
theorem Jdk.compile_reads_leading (jdk : Jdk) (l : Launcher σ) (request : CompileRequest)
    (files files' : FileTree) (tools tools' : σ) (e : Execution)
    (ran : l.start ⟨jdk.tool "javac", request.arguments⟩ (some jdk.timeout) files tools =
      (.ok e, files', tools')) :
    lossyTextLines e.stderr = (byteLines e.stderr).map lossyLine ∧
    ∃ report, (jdk.compile l request files tools).result = .ok report ∧
      report.stderr =
        (lossyTextLines e.stderr).take ((byteLines e.stderr).takeWhile isUtf8).length ∧
      (report.stderr = lossyTextLines e.stderr ↔
        ∀ line ∈ byteLines e.stderr, isUtf8 line = true) ∧
      ((Diagnostic.first? report.stderr).isSome = true ↔ Heard e.stderr) ∧
      ∀ (job : Job) (s : Job.Progress σ) sources, s.phase = .compile sources →
        request = job.compileRequest s.graph sources → s.world.files = files →
        s.world.tools = tools →
        ((∀ errors, (job.step (jdk.toolchain l) (job.step (jdk.toolchain l) s)).phase ≠
          .archive errors) ↔ Heard e.stderr) := by
  obtain ⟨ending, watched, -⟩ := Launcher.watch_of_start ran
  have answer := (result_compile watched).1
  refine ⟨lossyTextLines_eq _, reportOf { e with ending }, answer, leadingTextLines_take _,
    leadingTextLines_eq_iff _, isSome_first?_leadingTextLines _, ?_⟩
  rintro job s sources compiling rfl rfl rfl
  have passes := Job.archives_iff (t := jdk.toolchain l) compiling answer
  rw [← isSome_first?_leadingTextLines, ← Option.ne_none_iff_isSome, Ne,
    show leadingTextLines e.stderr = (reportOf { e with ending }).stderr from rfl, ← passes,
    not_exists]

/-! ## The time limit -/

theorem isCutOff_eq_false {e : Execution} : e.isCutOff = false ↔
    e.closed = false ∧ ∀ line ∈ endedLines e.stderr, isUtf8 line = true := by
  simp [Execution.isCutOff, isUtf8, Option.isSome_iff_ne_none]

/-- The compiler is reported to have run out of time, with a warning, exactly if it had not
    ended when its time was up and was still being read.  After a line that is not UTF-8
    there is no limit, and a compiler that takes longer may succeed. -/
theorem Jdk.compile_timedOut_iff (jdk : Jdk) (l : Launcher σ) (request : CompileRequest)
    (files files' : FileTree) (tools tools' : σ) (e : Execution)
    (ran : l.start ⟨jdk.tool "javac", request.arguments⟩ (some jdk.timeout) files tools =
      (.ok e, files', tools')) :
    ∃ report, (jdk.compile l request files tools).result = .ok report ∧
      (report.timedOut = true ↔ e.ending = .unfinished ∧ e.closed = false ∧
        ∀ line ∈ endedLines e.stderr, isUtf8 line = true) ∧
      (report.timedOut = true ↔ (jdk.compile l request files tools).warnings ≠ []) ∧
      (report.success = true ↔ e.ending = .exited 0 ∨
        e.ending = .unfinished ∧ e.isCutOff = true ∧
          ∃ e', (l.start ⟨jdk.tool "javac", request.arguments⟩ none files tools).1 = .ok e' ∧
            e'.ending = .exited 0) := by
  obtain ⟨ending, watched, stopped, succeeded⟩ := Launcher.watch_of_start ran
  obtain ⟨answer, warnings⟩ := result_compile watched
  refine ⟨_, answer, ?_, ?_, ?_⟩
  · rw [← isCutOff_eq_false, ← stopped]
    exact beq_iff_eq
  · rw [warnings]
    by_cases late : ending = .unfinished <;> simp [reportOf, late]
  · rw [← succeeded]
    exact beq_iff_eq

example : ((Jdk.mk ⟨"jdk"⟩ 1000).compile ⟨fun _ limit files tools =>
      (.ok { stderr := [0xFF, 0x0A]
             ending := if limit.isSome then .unfinished else .exited 0 }, files, tools)⟩
    ⟨[], ⟨"bin"⟩, [⟨"A.java"⟩]⟩ {} ()).result.toOption = some { success := true } := by
  decide +kernel

theorem Launcher.start_of_overflow {l : Launcher σ} {c : Command} {timeout : Nat}
    (far : 1000 * clockRange ≤ timeout) (files : FileTree) (tools : σ) :
    ∃ e, (l.start c (some timeout) files tools).1 = .error e := by
  unfold start
  dsimp only
  split
  · exact ⟨_, rfl⟩
  · split
    · exact ⟨_, rfl⟩
    · rcases l.launch c (some timeout) files tools with ⟨_ | e, _, _⟩
      · exact ⟨_, rfl⟩
      · have past : clockRange ≤ (e.started + timeout) / 1000 :=
          (Nat.le_div_iff_mul_le (by decide)).2
            (Nat.mul_comm 1000 clockRange ▸ Nat.le_add_left_of_le far)
        exact ⟨.clockOverflow, by simp [Execution.overflows, past]⟩

theorem Jdk.compile_of_overflow {jdk : Jdk} (far : 1000 * clockRange ≤ jdk.timeout)
    (l : Launcher σ) (request : CompileRequest) (files : FileTree) (tools : σ) :
    ∃ e, (jdk.compile l request files tools).result = .error e := by
  obtain ⟨e, failed⟩ := Launcher.start_of_overflow (l := l)
    (c := ⟨jdk.tool "javac", request.arguments⟩) far files tools
  rcases run : l.start ⟨jdk.tool "javac", request.arguments⟩ (some jdk.timeout) files tools with
    ⟨result, files', tools'⟩
  rw [run] at failed
  obtain rfl : result = .error e := failed
  unfold compile Launcher.watch
  dsimp only
  rw [run]
  exact ⟨e, rfl⟩

/-- No build has an outcome if the clock cannot tell when the compiler's time is up. -/
theorem Job.build_of_overflow {jdk : Jdk} (far : 1000 * clockRange ≤ jdk.timeout)
    (l : Launcher σ) (job : Job) (g : Graph) (w : World σ) :
    ∃ e, (job.build (jdk.toolchain l) g w).1 = .error e := by
  have unanswered {g : Graph} {events : List Event} {last : Compilation} {report : CompileReport}
      (answered : job.Answered (jdk.toolchain l) g events last report) : False := by
    obtain ⟨tools, answer⟩ := answered.answer
    obtain ⟨e, failed⟩ := Jdk.compile_of_overflow far l last.request last.found tools
    cases failed.symm.trans answer
  rcases built : job.build (jdk.toolchain l) g w with ⟨result, g', w'⟩
  obtain ⟨events, -, -, accounts⟩ := build_accounts built
  cases result with
  | error e => exact ⟨e, rfl⟩
  | ok outcome =>
    -- an outcome rests on a report
    cases outcome with
    | packaged =>
      obtain ⟨last, report, -, answered, -⟩ := accounts
      exact (unanswered answered).elim
    | failed =>
      obtain ⟨-, _, last, report, answered, -⟩ := accounts
      exact (unanswered answered).elim

/-! ## A compiler that writes given bytes -/

/-- The compiler writes some bytes and fails; other programs do nothing. -/
def Launcher.saying (bytes : List UInt8) : Launcher Unit where
  launch c _ files tools :=
    (.ok (if c.program.fileName? = some "javac" then { stderr := bytes, ending := .exited 1 }
      else { ending := .exited 0 }), files, tools)

def asciiBytes (s : String) : List UInt8 :=
  s.toList.map fun c => UInt8.ofNat c.toNat

/-- A kit in the working directory. -/
def Jdk.here : Jdk := ⟨⟨"jdk"⟩, 1000⟩

/-- An error, and after it a line that is not UTF-8. -/
theorem Jdk.compile_reads_leading_before :
    ∃ report, (Jdk.here.compile (.saying (asciiBytes "A.java:1: error: x\r\n" ++ [0xFF, 0x0A]))
        (Job.scratch.compileRequest .ambiguous [⟨"A.java"⟩]) {} ()).result = .ok report ∧
      report.stderr = ["A.java:1: error: x"] ∧ (Diagnostic.first? report.stderr).isSome = true := by
  obtain ⟨-, report, answer, lines, -, heard, -⟩ := Jdk.here.compile_reads_leading
    (.saying (asciiBytes "A.java:1: error: x\r\n" ++ [0xFF, 0x0A]))
    (Job.scratch.compileRequest .ambiguous [⟨"A.java"⟩]) {} {} () ()
    { stderr := asciiBytes "A.java:1: error: x\r\n" ++ [0xFF, 0x0A], ending := .exited 1 } rfl
  have leading : report.stderr = ["A.java:1: error: x"] := lines.trans (by decide +kernel)
  exact ⟨report, answer, leading, by rw [leading]; decide +kernel⟩

/-- The line before the error is not UTF-8: nothing is reported, and an archive is made that
    can be run. -/
theorem Jdk.compile_misses_error :
    ∃ bytes, (∃ line ∈ lossyTextLines bytes, (Diagnostic.parse? line).isSome = true) ∧
      (∃ report, (Jdk.here.compile (.saying bytes)
        (Job.scratch.compileRequest .ambiguous [⟨"A.java"⟩]) {} ()).result = .ok report ∧
        report.stderr = [] ∧ report.success = false ∧ report.timedOut = false) ∧
      ∃ outcome g' w', Job.scratch.build (Jdk.here.toolchain (.saying bytes)) .ambiguous .scratch =
        (.ok outcome, g', w') ∧ outcome.isRunnable = true := by
  refine ⟨[0xFF, 0x0A] ++ asciiBytes "A.java:1: error: x\n", by decide +kernel,
    ⟨_, rfl, by decide +kernel⟩, ?_⟩
  obtain ⟨⟨result, g', w'⟩, built, packaged⟩ : ∃ b, Job.scratch.build (Jdk.here.toolchain
      (.saying ([0xFF, 0x0A] ++ asciiBytes "A.java:1: error: x\n"))) .ambiguous .scratch = b ∧
      b.1.toOption = some (.packaged ⟨"Main.jar"⟩ [] [] 0) := ⟨_, rfl, by decide +kernel⟩
  obtain rfl := toOption_eq_some.1 packaged
  exact ⟨_, g', w', built, rfl⟩

end ScriptJar

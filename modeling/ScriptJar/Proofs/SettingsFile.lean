import ScriptJar.Proofs.JsonGrammar
import ScriptJar.Proofs.Places
import ScriptJar.Settings.Environment

/-! # Settings in a file

The file of any settings is JSON that spells them field by field, whatever characters
stand in their texts, and reading it gives the same settings back.

* `Json.spells_quote`, `Json.spells_lines` — what the writer puts down is JSON;
* `Settings.parse?_fileText` — the text of the file;
* `Settings.loadOrInit_save` — the file.
-/

namespace ScriptJar

open Text

/-! ## Writing JSON -/

namespace Json

/-- The characters for which there is a short escape. -/
def shortEscapes : List Char :=
  ['"', '\\', '\x08', '\x0c', '\n', '\r', '\t']

/-- The piece that a character of a text is written as. -/
def pieceOf (c : Char) : Piece :=
  if c.toNat < 0x20 ∧ c ∉ shortEscapes then .unit c.toNat else .char c

theorem quoteChar_short {c : Char} (short : c ∈ shortEscapes) :
    ∃ e, quoteChar c = ['\\', e] ∧ escaped? e = some c := by
  simp only [shortEscapes, List.mem_cons, List.not_mem_nil, or_false] at short
  rcases short with rfl | rfl | rfl | rfl | rfl | rfl | rfl <;> exact ⟨_, rfl, rfl⟩

theorem quoteChar_long {c : Char} (long : c ∉ shortEscapes) :
    quoteChar c = if c.toNat < 0x20 then controlEscape c else [c] := by
  simp only [shortEscapes, List.mem_cons, List.not_mem_nil, or_false, not_or] at long
  simp [quoteChar, long]

theorem hexUnit?_control {n : Nat} (h : n < 0x20) :
    hexUnit? '0' '0' (Nat.digitChar (n / 16)) (Nat.digitChar (n % 16)) = some n := by
  have all : ∀ n < 0x20,
      hexUnit? '0' '0' (Nat.digitChar (n / 16)) (Nat.digitChar (n % 16)) = some n := by decide
  exact all n h

theorem spellsPieces_quoteChar (c : Char) {s : List Char} {ps : List Piece}
    (h : SpellsPieces s ps) : SpellsPieces (quoteChar c ++ s) (pieceOf c :: ps) := by
  by_cases short : c ∈ shortEscapes
  · obtain ⟨e, quoted, named⟩ := quoteChar_short short
    rw [quoted, pieceOf, if_neg fun both => both.2 short]
    exact .escape named h
  · rw [quoteChar_long short]
    by_cases low : c.toNat < 0x20
    · rw [if_pos low, pieceOf, if_pos ⟨low, short⟩]
      exact .unit (hexUnit?_control low) h
    · rw [if_neg low, pieceOf, if_neg fun both => low both.1]
      refine .plain (Nat.le_of_not_lt low) ?_ ?_ h <;>
        (rintro rfl; exact short (by decide))

theorem spellsPieces_quoted (s : List Char) :
    SpellsPieces (s.flatMap quoteChar) (s.map pieceOf) := by
  induction s with
  | nil => exact .nil
  | cons c s ih => exact spellsPieces_quoteChar c ih

theorem textOf?_unit {n : Nat} (lead : isLead n = false) (trail : isTrail n = false)
    (rest : List Piece) : textOf? (.unit n :: rest) = (textOf? rest).map (Char.ofNat n :: ·) := by
  cases rest with
  | nil => simp [textOf?, lead, trail]
  | cons p rest => cases p <;> simp [textOf?, lead, trail]

theorem textOf?_pieceOf (s : List Char) : textOf? (s.map pieceOf) = some s := by
  induction s with
  | nil => rfl
  | cons c s ih =>
    rw [List.map_cons, pieceOf]
    split
    · next control =>
      -- no control character is half of a pair
      have lead : isLead c.toNat = false := by
        simp [isLead]
        omega
      have trail : isTrail c.toNat = false := by
        simp [isTrail]
        omega
      rw [textOf?_unit lead trail, ih, Option.map_some, Char.ofNat_toNat]
    · rw [textOf?, ih]
      rfl

theorem spells_quote (s : String) : Spells (quote s).toList (.string (some s)) := by
  have spelled := Spells.string (spellsPieces_quoted s.toList)
  rw [textOf?_pieceOf, Option.map_some, String.ofList_toList] at spelled
  rw [quote, String.toList_ofList, List.cons_append]
  exact spelled

theorem head?_toDigits {n : Nat} (some : 0 < n) : (Nat.toDigits 10 n).head? ≠ Option.some '0' := by
  induction n using Nat.strongRecOn with
  | ind n ih =>
    rcases Nat.lt_or_ge n 10 with small | large
    · have all : ∀ n < 10, 0 < n → Nat.digitChar n ≠ '0' := by decide
      rw [Nat.toDigits_of_lt_base small]
      simpa using all n small some
    · -- the first digit is that of a tenth, which is more than nothing
      rw [Nat.toDigits_of_base_le (by decide) large,
        List.head?_append_of_ne_nil _ Nat.toDigits_ne_nil]
      exact ih (n / 10) (by omega) (by omega)

theorem isWhole_toDigits (n : Nat) : IsWhole (Nat.toDigits 10 n) := by
  refine ⟨⟨Nat.toDigits_ne_nil, isDigit_toDigits n⟩, fun zero => ?_⟩
  cases n with
  | zero => rfl
  | succ n => exact absurd zero (head?_toDigits n.succ_pos)

theorem spells_numeral (n : Nat) :
    Spells (numeral n).toList (.number (Nat.toDigits 10 n)) := by
  have spelled : SpellsNumber (Nat.toDigits 10 n ++ ([] ++ [])) :=
    .positive (isWhole_toDigits n) (.inl rfl) (.inl rfl)
  rw [numeral, String.toList_ofList]
  simpa using Spells.number spelled

/-- A member on a line of its own. -/
def memberLine (indent name text : String) : String :=
  indent ++ quote name ++ ": " ++ text

theorem spellsMember_line (indent name : String) {text : String} {v : Json}
    (h : Spells text.toList v) :
    ∃ s, (memberLine indent name text).toList = indent.toList ++ s ∧
      SpellsMember s (some name, v) := by
  have colon : Blanks [] := by decide
  have value : Blanks [' '] := by decide
  have member := SpellsMember.intro (spellsPieces_quoted name.toList) colon value h
  rw [textOf?_pieceOf, Option.map_some, String.ofList_toList] at member
  exact ⟨_, by simp [memberLine, quote], member⟩

/-- Members on lines of their own, between the braces of an object. -/
theorem spells_lines {indent : String} {tail : List Char} (margin : Blanks indent.toList)
    (closing : Blanks tail) {members : List (String × String × Json)} (some : members ≠ [])
    (spelled : ∀ m ∈ members, Spells m.2.1.toList m.2.2) :
    SpellsMembers
      ('\n' :: ([',', '\n'].intercalate (members.map fun m => (memberLine indent m.1 m.2.1).toList)
        ++ tail))
      (members.map fun m => (Option.some m.1, m.2.2)) := by
  have before : Blanks ('\n' :: indent.toList) := by
    simpa [Blanks, isSpace] using margin
  have none : Blanks [] := by decide
  induction members with
  | nil => exact absurd rfl some
  | cons m members ih =>
    obtain ⟨s, line, member⟩ := spellsMember_line indent m.1 (spelled m List.mem_cons_self)
    -- the last line is followed by the closing brace, any other by a comma
    cases members with
    | nil =>
      have last := SpellsMembers.last before member closing
      simpa [line] using last
    | cons m' members =>
      have rest := ih (by simp) fun x inside => spelled x (List.mem_cons_of_mem m inside)
      have more := SpellsMembers.more before member none rest
      simpa [line, List.intercalate_cons_cons] using more

theorem spells_object {indent closing : String} (margin : Blanks indent.toList)
    (blank : Blanks closing.toList) {members : List (String × String × Json)}
    (some : members ≠ []) (spelled : ∀ m ∈ members, Spells m.2.1.toList m.2.2) :
    Spells
      ("\x7b\n" ++ ",\n".intercalate (members.map fun m => memberLine indent m.1 m.2.1)
        ++ (closing ++ "\x7d")).toList
      (.object (members.map fun m => (Option.some m.1, m.2.2))) := by
  have object := Spells.object (spells_lines margin blank some spelled)
  simpa [String.toList_intercalate, Function.comp_def] using object

theorem table?_entries (entries : List (String × String)) :
    table? (.object (entries.map fun e => (some e.1, .string (some e.2)))) =
      some (Substitutions.ofList entries) := by
  have each : (entries.map fun e => (some e.1, Json.string (some e.2))).mapM entry? =
      some entries := by
    induction entries with
    | nil => rfl
    | cons e entries ih => simp [List.mapM_cons, ih, entry?, text?]
  rw [table?, each]
  rfl

end Json

/-! ## Tables -/

namespace Substitutions

theorem entries_foldl_insert (t : Substitutions) (entries : List (String × String))
    (nodup : ((t.entries ++ entries).map Prod.fst).Nodup) :
    (entries.foldl (fun t e => t.insert e.1 e.2) t).entries = t.entries ++ entries := by
  induction entries generalizing t with
  | nil => simp
  | cons e entries ih =>
    -- no key occurs twice, so every entry goes to the end
    have new : e.1 ∉ t.entries.map Prod.fst := by
      intro member
      rw [List.map_append, List.map_cons] at nodup
      exact (List.nodup_append.1 nodup).2.2 _ member _ List.mem_cons_self rfl
    have inserted : (t.insert e.1 e.2).entries = t.entries ++ [e] := setEntry_new e.2 new
    rw [List.foldl_cons, ih]
    · rw [inserted, List.append_assoc, List.singleton_append]
    · rwa [inserted, List.append_assoc, List.singleton_append]

/-- Setting the entries of a table one after another gives the table, in its order. -/
theorem ofList_entries (t : Substitutions) : ofList t.entries = t := by
  apply eq_of_entries
  exact entries_foldl_insert {} t.entries (by simpa using t.nodup)

end Substitutions

/-! ## Fields -/

namespace Settings

/-- The value of a field. -/
def fieldValue (s : Settings) : Field → Json
  | .toolchainRoot => .string (some s.toolchainRoot.text)
  | .libraryDirectory => .string (some s.libraryDirectory)
  | .substitutions =>
    .object (s.substitutions.entries.map fun e => (some e.1, .string (some e.2)))
  | .compileTimeout => .number (Nat.toDigits 10 s.compileTimeout.toNat)
  | .archiveName => .string (some s.archiveName)

theorem spells_renderTable (t : Substitutions) :
    Json.Spells (renderTable t).toList
      (.object (t.entries.map fun e => (some e.1, .string (some e.2)))) := by
  unfold renderTable
  by_cases none : t.entries = []
  · rw [if_pos (by simp [none]), none]
    exact .emptyObject (b := []) (by decide)
  · rw [if_neg (by simpa using none)]
    have object := Json.spells_object (show Json.Blanks "    ".toList by decide)
      (show Json.Blanks "\n  ".toList by decide)
      (show t.entries.map (fun e => (e.1, Json.quote e.2, Json.string (some e.2))) ≠ [] by
        simpa using none)
      (by
        intro m inside
        obtain ⟨e, -, rfl⟩ := List.mem_map.1 inside
        exact Json.spells_quote e.2)
    rw [List.map_map, List.map_map] at object
    exact object

theorem spells_renderField (s : Settings) (f : Field) :
    Json.Spells (s.renderField f).toList (s.fieldValue f) := by
  cases f with
  | toolchainRoot | libraryDirectory | archiveName => exact Json.spells_quote _
  | substitutions => exact spells_renderTable s.substitutions
  | compileTimeout => exact Json.spells_numeral _

theorem spells_render (s : Settings) :
    Json.Spells s.render.toList
      (.object (Field.all.map fun f => (some f.name, s.fieldValue f))) := by
  have object := Json.spells_object (show Json.Blanks "  ".toList by decide)
    (show Json.Blanks "\n".toList by decide)
    (show Field.all.map (fun f => (f.name, s.renderField f, s.fieldValue f)) ≠ [] by
      simp [Field.all])
    (by
      intro m inside
      obtain ⟨f, -, rfl⟩ := List.mem_map.1 inside
      exact s.spells_renderField f)
  rw [List.map_map, List.map_map] at object
  exact object

theorem ofName?_name (f : Field) : Field.ofName? f.name = some f := by
  cases f <;> rfl

/-- The values of all fields make up the settings. -/
theorem ofJson?_fieldValue (s : Settings) :
    ofJson? (.object (Field.all.map fun f => (some f.name, s.fieldValue f))) = some s := by
  have timeout : (Json.number (Nat.toDigits 10 s.compileTimeout.toNat)).word? =
      some s.compileTimeout := by
    have fits : s.compileTimeout.toNat < wordBound := s.compileTimeout.toNat_lt
    simp [Json.word?, numeralBelow?_toDigits fits]
  have table : (s.fieldValue .substitutions).table? = some s.substitutions := by
    rw [fieldValue, Json.table?_entries, Substitutions.ofList_entries]
  simp only [ofJson?, Field.all, List.map_cons, List.map_nil, ofMembers?, ofName?_name]
  simp [set?, table]
  simp [fieldValue, Json.text?, timeout]

theorem parse?_fileText (s : Settings) : parse? s.fileText = some s := by
  have text : s.fileText.toList = [] ++ (s.render.toList ++ ['\n']) := by
    simp [fileText]
  rw [parse?, text, Json.read_of_spells (by decide) s.spells_render (by decide)]
  exact s.ofJson?_fieldValue

/-! ## The file -/

/-- Whether a file can be written does not depend on what is to stand in it. -/
theorem write_succeeds_alike {files files' : FileTree} {p : Path} {content : Content}
    (h : files.write p content = .ok files') (other : Content) :
    ∃ files'', files.write p other = .ok files'' := by
  unfold FileTree.write at h ⊢
  cases aim : files.target p with
  | error e => simp [aim] at h
  | ok g =>
    simp only [aim] at h ⊢
    split at h
    · cases h
    · next named =>
      split at h
      · cases h
      · next short =>
        split at h
        · cases h
        · next free => simp [named, short, free]

theorem save_spec {s : Settings} {p : Path} {files files' : FileTree}
    (h : s.save p files = (.ok (), files')) :
    ∃ made, makeDirectoryOf p files = (.ok (), made) ∧
      made.writeText p s.fileText = .ok files' := by
  unfold save at h
  rcases made : makeDirectoryOf p files with ⟨_ | _, files₁⟩
  · simp [made] at h
  · cases written : files₁.writeText p s.fileText with
    | error e => simp [made, written] at h
    | ok files₂ =>
      simp only [made, written, Prod.mk.injEq, true_and] at h
      subst h
      exact ⟨files₁, rfl, written⟩

theorem contains_of_readText {files : FileTree} {p : Path} {x : String}
    (h : files.readText p = .ok x) : files.contains p = true := by
  unfold FileTree.readText at h
  unfold FileTree.contains
  cases there : files.node p with
  | error e => simp [there] at h
  | ok n => rfl

/-- If settings can be saved in a file, any other can be, and what is read from the file
    are the settings that were saved. -/
theorem loadOrInit_save (s : Settings) (p : Path) (files files' : FileTree)
    (saved : s.save p files = (.ok (), files')) :
    loadOrInit p files' = (.ok s, files') ∧
      ∀ other : Settings, ∃ files'', other.save p files = (.ok (), files'') := by
  obtain ⟨made, directory, written⟩ := save_spec saved
  constructor
  · have text := FileTree.readText_of_written written
    rw [loadOrInit, if_pos (contains_of_readText text), load, text]
    simp [parse?_fileText]
  · intro other
    obtain ⟨files'', written'⟩ := write_succeeds_alike written (.text other.fileText)
    refine ⟨files'', ?_⟩
    simp [save, directory, FileTree.writeText, written']

/-- Settings with all that has to be escaped, and substitutions that are not in the order
    of their keys. -/
def awkward : Settings where
  toolchainRoot := ⟨"C:\\jdk \"8\"/"⟩
  libraryDirectory := "\x00\x08\x0c\x1f\t\r\n\x7f/$home"
  substitutions := .ofList [("#z", "\\\""), ("", "\u2028😀\u0301"), ("#a", ""), ("\\u0041", "/")]
  compileTimeout := 18446744073709551615
  archiveName := "ΣΩ"

theorem loadOrInit_save_awkward :
    ∃ files', awkward.save ⟨"etc/jsc/settings.json"⟩ {} = (.ok (), files') ∧
      loadOrInit ⟨"etc/jsc/settings.json"⟩ files' = (.ok awkward, files') := by
  obtain ⟨⟨answer, files'⟩, saved, succeeds⟩ : ∃ b,
      awkward.save ⟨"etc/jsc/settings.json"⟩ {} = b ∧ b.1.toBool = true :=
    ⟨_, rfl, by decide +kernel⟩
  cases answer with
  | error e => cases succeeds
  | ok u => exact ⟨files', saved, (loadOrInit_save _ _ _ _ saved).1⟩

end Settings

end ScriptJar

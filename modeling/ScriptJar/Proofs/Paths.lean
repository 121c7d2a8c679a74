import ScriptJar.Build.Staging
import ScriptJar.Proofs.Places
import ScriptJar.Proofs.TextFacts

/-! # Facts about paths

How the text of a path is made up when paths are joined, what it ends in, and what that
means for the paths of generated sources.

* `Path.moves_join_relative`, `Path.components_join` — what a relative path adds to another;
* `Path.fileName?_join` — a joined path has the name of the second one;
* `FileTree.getLast?_placeOf` — a path leads to something of its name.
-/

namespace ScriptJar

namespace Path

/-- What stands before a path that is read from another one. -/
def lead (p q : Path) : List Char :=
  if q.isAbsolute then []
  else if p.text.isEmpty || p.text.toList.getLast? == some '/' then p.text.toList
  else p.text.toList ++ ['/']

theorem toList_join (p q : Path) : (p.join q).text.toList = p.lead q ++ q.text.toList := by
  unfold join lead
  split
  · rfl
  · split
    · exact String.toList_append
    · simp

theorem lead_ne_nil {p q : Path} (relative : q.isAbsolute = false) (some : p.text ≠ "") :
    p.lead q ≠ [] := by
  unfold lead
  rw [if_neg (by simp [relative])]
  split
  · simpa using some
  · simp

/-! ## The segments that lead somewhere -/

/-- The segments of a path that are not void. -/
def moves (p : Path) : List (List Char) :=
  (Text.splitOn '/' p.text.toList).filter (! isVoid ·)

/-- Cutting off the anchor costs no segment that leads anywhere. -/
theorem filter_segments (s : List Char) :
    (segments s).filter (! isVoid ·) = (Text.splitOn '/' s).filter (! isVoid ·) := by
  unfold segments anchor
  split
  · rfl
  · rfl
  · rfl
  · rfl

theorem components_eq (p : Path) :
    p.components = Component.ofAnchor (anchor p.text.toList) ++
      p.moves.map Component.ofSegment := by
  rw [components, moves, filter_segments]

theorem Component.getLast?_ofAnchor (a : List Char) (name : String) :
    (Component.ofAnchor a).getLast? ≠ some (.name name) := by
  unfold Component.ofAnchor
  split <;> simp

/-- The name of a path is its last segment that leads anywhere, unless that goes up. -/
theorem fileName?_eq (p : Path) : p.fileName? =
    p.moves.getLast?.bind fun segment =>
      if segment = ['.', '.'] then none else some (String.ofList segment) := by
  rw [fileName?, components_eq, List.getLast?_append, List.getLast?_map]
  cases p.moves.getLast? with
  | none =>
    simp only [Option.map_none, Option.none_or, Option.bind_none]
    split
    · next name last => exact absurd last (Component.getLast?_ofAnchor _ name)
    · rfl
  | some segment =>
    by_cases up : segment = ['.', '.'] <;> simp [Component.ofSegment, up]

theorem isAbsolute_join (p q : Path) :
    (p.join q).isAbsolute = (p.isAbsolute || q.isAbsolute) := by
  cases absolute : q.isAbsolute with
  | true => simp [join, absolute]
  | false =>
    rw [Bool.or_false]
    cases first : p.text.toList with
    | nil =>
      have empty : p.text = "" := by simpa using first
      have text : (p.join q).text = q.text := by simp [join, absolute, empty]
      simpa [isAbsolute, text, first] using absolute
    | cons c rest =>
      unfold join
      rw [absolute]
      simp only [Bool.false_eq_true, if_false]
      split <;> simp [isAbsolute, first]

theorem filter_splitOn_slash (front rest : List Char) :
    (Text.splitOn '/' (front ++ '/' :: rest)).filter (! isVoid ·) =
      (Text.splitOn '/' front).filter (! isVoid ·) ++
        (Text.splitOn '/' rest).filter (! isVoid ·) := by
  rw [Text.splitOn_append_cons, List.filter_append]

/-- Reading a relative path from another one appends its segments. -/
theorem moves_join_relative (p : Path) {q : Path} (relative : q.isAbsolute = false) :
    (p.join q).moves = p.moves ++ q.moves := by
  unfold moves
  rw [toList_join, lead, relative]
  simp only [Bool.false_eq_true, if_false]
  split
  · next ends =>
    simp only [Bool.or_eq_true, String.isEmpty_iff, beq_iff_eq] at ends
    rcases ends with empty | slash
    · simp [empty, Text.splitOn, isVoid]
    · obtain ⟨front, text⟩ := List.getLast?_eq_some_iff.1 slash
      rw [text, List.append_assoc, List.singleton_append, filter_splitOn_slash,
        filter_splitOn_slash]
      simp [Text.splitOn, isVoid]
  · rw [List.append_assoc, List.singleton_append, filter_splitOn_slash]

theorem moves_join (p q : Path) : ∃ front, (p.join q).moves = front ++ q.moves := by
  cases absolute : q.isAbsolute with
  | true => exact ⟨[], by simp [join, absolute]⟩
  | false => exact ⟨_, moves_join_relative p absolute⟩

/-- What follows a slash has no influence on what a path starts with. -/
theorem anchor_slash (front rest : List Char) :
    anchor (front ++ '/' :: rest) = if front = [] then ['/'] else anchor front := by
  match front with
  | [] => rfl
  | [c] =>
    by_cases root : c = '/'
    · simp [anchor, root]
    · by_cases dot : c = '.' <;> simp [anchor, root, dot]
  | c :: d :: more =>
    by_cases root : c = '/'
    · simp [anchor, root]
    · by_cases dot : c = '.'
      · by_cases slash : d = '/' <;> simp [anchor, dot, slash]
      · simp [anchor, root, dot]

theorem anchor_lead {p q : Path} (relative : q.isAbsolute = false) (named : p.text ≠ "") :
    anchor (p.lead q ++ q.text.toList) = anchor p.text.toList := by
  have some : p.text.toList ≠ [] := by simpa using named
  rw [lead, relative]
  simp only [Bool.false_eq_true, if_false]
  split
  · next ends =>
    simp only [Bool.or_eq_true, String.isEmpty_iff, named, false_or, beq_iff_eq] at ends
    obtain ⟨front, text⟩ := List.getLast?_eq_some_iff.1 ends
    rw [text, List.append_assoc, List.singleton_append, anchor_slash, anchor_slash]
  · rw [List.append_assoc, List.singleton_append, anchor_slash, if_neg some]

theorem components_join {p q : Path} (relative : q.isAbsolute = false) (named : p.text ≠ "") :
    (p.join q).components = p.components ++ q.moves.map Component.ofSegment := by
  rw [components_eq, components_eq, toList_join, anchor_lead relative named,
    moves_join_relative p relative, List.map_append, List.append_assoc]

theorem fileName?_join {p q : Path} {name : String} (h : q.fileName? = some name) :
    (p.join q).fileName? = some name := by
  obtain ⟨front, moves⟩ := moves_join p q
  rw [fileName?_eq] at h ⊢
  rw [moves, List.getLast?_append]
  cases last : q.moves.getLast? with
  | none => simp [last] at h
  | some segment => rwa [last] at h

theorem fileName?_of_plain {name : String} (plain : '/' ∉ name.toList)
    (named : isVoid name.toList = false) (down : name.toList ≠ ['.', '.']) :
    fileName? ⟨name⟩ = some name := by
  rw [fileName?_eq, moves, Text.splitOn_of_notMem plain]
  simp [named, down]

end Path

/-- An identifier is a part of a name, so there is no slash in it. -/
theorem Path.slash_notMem_identifier (p : Path) : '/' ∉ p.identifier.toList := by
  unfold identifier stem?
  cases name : p.fileName? with
  | none => simp
  | some name' =>
    have plain : '/' ∉ name'.toList := by
      rw [fileName?_eq, Option.bind_eq_some_iff] at name
      obtain ⟨segment, last, named⟩ := name
      split at named
      · cases named
      · rw [← Option.some.inj named, String.toList_ofList]
        have member := List.mem_of_getLast? last
        exact Text.notMem_of_mem_splitOn (List.mem_filter.1 member).1
    simp only [Option.map_some, Option.getD_some, splitName]
    split
    · exact plain
    · rw [String.toList_ofList]
      exact fun member => plain (List.mem_of_mem_take member)

theorem FileTree.placeOf_eq (t : FileTree) (p : Path) :
    t.placeOf p = p.moves.foldl goTo (t.origin p) := by
  rw [placeOf, Path.moves, List.foldl_filter]
  congr 1
  funext here segment
  cases void : Path.isVoid segment <;> simp [goTo, void]

/-- A path leads to something that has its name. -/
theorem FileTree.getLast?_placeOf (t : FileTree) {p : Path} {name : String}
    (h : p.fileName? = some name) : (t.placeOf p).getLast? = some name := by
  have place := t.placeOf_eq p
  rw [Path.fileName?_eq] at h
  rcases List.eq_nil_or_concat p.moves with none | ⟨front, segment, last⟩
  · simp [none] at h
  · have leads : Path.isVoid segment = false := by
      have member : segment ∈ p.moves := by simp [last]
      simpa using (List.mem_filter.1 member).2
    rw [last, List.concat_eq_append] at h place
    rw [place, List.foldl_append]
    by_cases up : segment = ['.', '.']
    · simp [up] at h
    · simp only [List.getLast?_concat, Option.bind_some, up, if_false, Option.some.injEq] at h
      simp [goTo, leads, up, h]

/-- The name of a Java file leads to a file in the same directory. -/
theorem Module.javaName_plain {m : Module} (plain : '/' ∉ m.identifier.toList) :
    '/' ∉ (m.identifier ++ ".java").toList ∧ Path.isVoid (m.identifier ++ ".java").toList = false ∧
      (m.identifier ++ ".java").toList ≠ ['.', '.'] := by
  have text : (m.identifier ++ ".java").toList = m.identifier.toList ++ ".java".toList :=
    String.toList_append
  have long : 5 ≤ (m.identifier ++ ".java").toList.length := by
    rw [text, List.length_append]
    exact Nat.le_add_left 5 _
  refine ⟨?_, ?_, ?_⟩
  · rw [text, List.mem_append, not_or]
    exact ⟨plain, by decide⟩
  · cases void : Path.isVoid (m.identifier ++ ".java").toList with
    | false => rfl
    | true =>
      simp only [Path.isVoid, Bool.or_eq_true, List.isEmpty_iff, beq_iff_eq] at void
      rcases void with void | void <;> simp [void] at long
  · intro up
    simp [up] at long

theorem Module.fileName?_sourcePath {m : Module} (plain : '/' ∉ m.identifier.toList) :
    m.sourcePath.fileName? = some (m.identifier ++ ".java") := by
  obtain ⟨slashless, named, down⟩ := m.javaName_plain plain
  exact Path.fileName?_join (Path.fileName?_of_plain slashless named down)

namespace Staging

theorem fileName?_sourceFile (st : Staging) {m : Module} (plain : '/' ∉ m.identifier.toList) :
    (st.sourceFile m).fileName? = some (m.identifier ++ ".java") := by
  show (st.sources.join m.sourcePath).fileName? = some (m.identifier ++ ".java")
  exact Path.fileName?_join (Module.fileName?_sourcePath plain)

theorem text_sources_ne (st : Staging) : st.sources.text ≠ "" := by
  intro none
  have text := Path.toList_join st.root ⟨"src"⟩
  rw [show (st.root.join ⟨"src"⟩).text = "" from none] at text
  simp at text

theorem toList_sourceFile (st : Staging) (m : Module) :
    ∃ name, name ≠ [] ∧ (st.sourceFile m).text.toList = name ++ ".java".toList := by
  have ending : m.sourcePath.text.toList =
      m.packageDirectory.lead ⟨m.identifier ++ ".java"⟩ ++ m.identifier.toList
        ++ ".java".toList := by
    rw [Module.sourcePath, List.append_assoc, ← String.toList_append]
    exact Path.toList_join _ _
  have text : (st.sourceFile m).text.toList = st.sources.lead m.sourcePath
      ++ m.sourcePath.text.toList := Path.toList_join _ _
  refine ⟨st.sources.lead m.sourcePath ++ (m.packageDirectory.lead ⟨m.identifier ++ ".java"⟩
    ++ m.identifier.toList), ?_, by rw [text, ending, ← List.append_assoc]⟩
  intro empty
  rw [List.append_eq_nil_iff] at empty
  cases absolute : m.sourcePath.isAbsolute with
  | true =>
    -- the text would be `.java`, which does not start at the root
    rw [Path.isAbsolute, ending, empty.2] at absolute
    exact absurd absolute (by decide)
  | false => exact Path.lead_ne_nil absolute st.text_sources_ne empty.1

end Staging

end ScriptJar

import ScriptJar.Directive
import ScriptJar.Proofs.HeaderText

/-! # Directives as they are written

Every form of a directive starts with a letter of its own, so a statement has at most
one of them and the order in which they are tried makes no difference: `classify_cons`.
`Directive.Written` lists the ways to write a directive other than a substitution, with
the positions where it may stand, and `Directive.classify_written` says that each is
read as that directive.
-/

namespace ScriptJar.Directive

open Text

variable {position : Nat} {lead : Char} {s rest : List Char} {d : Directive}

/-! ## Forms by their first letter -/

/-- The form that a statement with a given first letter can have. -/
def formFor (position : Nat) (lead : Char) (s : List Char) : Option Directive :=
  match lead with
  | 'p' => if position = 1 then package? s else none
  | '#' => if position ≤ 2 then header? s else none
  | 'i' => plainImport? s
  | 'f' => libraryImport? s
  | '!' => substitution? s
  | 'u' => companion? s
  | 'e' => donor? s
  | _ => none

theorem findSome?_id_cons {α : Type} (o : Option α) (os : List (Option α)) :
    (o :: os).findSome? id = o.or (os.findSome? id) := by
  cases o <;> rfl

theorem classify_cons (position : Nat) (lead : Char) (rest : List Char) :
    classify (String.ofList (lead :: rest)) position =
      ((formFor position lead (lead :: rest)).or (classScope? (lead :: rest))).getD
        (.entryScope (String.ofList (lead :: rest))) := by
  have package (h : lead ≠ 'p') : package? (lead :: rest) = none := by
    simp only [package?, after?_of_head "pkg " rfl h, Option.bind_none]
  have header (h : lead ≠ '#') : header? (lead :: rest) = none := by
    simp only [header?, after?_of_head "#!" rfl h, Option.map_none]
  have plainImport (h : lead ≠ 'i') : plainImport? (lead :: rest) = none := by
    simp only [plainImport?, after?_of_head "import " rfl h, Option.bind_none]
  have libraryImport (h : lead ≠ 'f') : libraryImport? (lead :: rest) = none := by
    simp only [libraryImport?, after?_of_head "from " rfl h]
  have substitution (h : lead ≠ '!') : substitution? (lead :: rest) = none := by
    simp only [substitution?, after?_of_head "!macro" rfl h]
  have companion (h : lead ≠ 'u') : companion? (lead :: rest) = none := by
    simp only [companion?, after?_of_head "using " rfl h, Option.bind_none, Option.map_none]
  have donor (h : lead ≠ 'e') : donor? (lead :: rest) = none := by
    simp only [donor?, after?_of_head "ext " rfl h, Option.bind_none, Option.map_none]
  rw [classify, String.toList_ofList]
  simp only [findSome?_id_cons, List.findSome?_nil, Option.or_none]
  fun_cases formFor position lead (lead :: rest) with
  | case4 late =>
    rw [if_neg late]
    simp_all
  | _ => simp_all

theorem classify_of_form (lead : Char) (form : formFor position lead s = some d)
    (whole : s = lead :: rest) : classify (String.ofList s) position = d := by
  subst whole
  rw [classify_cons, form]
  rfl

/-! ## Writing -/

/-- The statements that say a directive at a position.  A header may name the class. -/
inductive Written : Directive → Nat → List Char → Prop where
  | package {name : String} :
      trim name.toList = name.toList →
      Written (.package name) 1 ("pkg ".toList ++ (name.toList ++ [';']))
  | header {h : Header} {name : Option String} {position : Nat} :
      h.WellFormed → (∀ n ∈ name, Header.IsName n.toList) → position = 1 ∨ position = 2 →
      Written (.header h) position ("#!".toList ++ h.print name)
  | classImport {name : String} {position : Nat} :
      trim name.toList = name.toList → ¬ "static ".toList <+: name.toList →
      Written (.classImport name) position ("import ".toList ++ (name.toList ++ [';']))
  | staticImport {name : String} {position : Nat} :
      trim name.toList = name.toList →
      Written (.staticImport name) position ("import static ".toList ++ (name.toList ++ [';']))
  | libraryImport {library name : String} {position : Nat} :
      library ≠ "" → '"' ∉ library.toList → name ≠ "" → trim name.toList = name.toList →
      Written (.libraryImport library name) position
        ("from \"".toList ++ (library.toList ++ ("\" import ".toList ++ (name.toList ++ [';']))))
  | companion {file : String} {position : Nat} :
      file ≠ "" →
      Written (.companion file) position ("using \"".toList ++ (file.toList ++ "\";".toList))
  | donor {file : String} {position : Nat} :
      file ≠ "" →
      Written (.donor file) position ("ext \"".toList ++ (file.toList ++ "\";".toList))

/-! ## Reading -/

theorem package?_written {name : String} (trimmed : trim name.toList = name.toList) :
    package? ("pkg ".toList ++ (name.toList ++ [';'])) = some (.package name) := by
  rw [package?, after?_bind_before?]
  simp only [trimmed, String.ofList_toList]

theorem plainImport?_class {name : String} (trimmed : trim name.toList = name.toList)
    (other : ¬ "static ".toList <+: name.toList) :
    plainImport? ("import ".toList ++ (name.toList ++ [';'])) = some (.classImport name) := by
  have plain : after? "static ".toList name.toList = none := by
    cases after : after? "static ".toList name.toList with
    | none => rfl
    | some rest => exact absurd ⟨rest, (after?_eq_some.1 after).symm⟩ other
  rw [plainImport?, after?_bind_before?]
  simp only [trimStart_of_trimmed trimmed, plain, trimmed, String.ofList_toList]

theorem plainImport?_static {name : String} (trimmed : trim name.toList = name.toList) :
    plainImport? ("import static ".toList ++ (name.toList ++ [';'])) =
      some (.staticImport name) := by
  have whole : "import static ".toList ++ (name.toList ++ [';']) =
      "import ".toList ++ (("static ".toList ++ name.toList) ++ [';']) := by simp
  have start := trimStart_append (s := "static ".toList) (by decide) name.toList
  rw [whole, plainImport?, after?_bind_before?]
  simp only [start, after?_eq_some.2 rfl, trimmed, String.ofList_toList]

theorem takeLibrary?_quoted {library : List Char} (plain : '"' ∉ library) (rest : List Char) :
    takeLibrary? ('"' :: (library ++ '"' :: rest)) = some (library, rest) := by
  have inside : ∀ c ∈ library, decide (c ≠ '"') = true := by
    intro c member
    rw [decide_eq_true_eq]
    rintro rfl
    exact plain member
  simp only [takeLibrary?, List.dropWhile_append_of_pos inside, List.takeWhile_append_of_pos inside]
  simp

theorem libraryImport?_written {library name : String} (nonempty : library ≠ "")
    (plain : '"' ∉ library.toList) (named : name ≠ "") (trimmed : trim name.toList = name.toList) :
    libraryImport? ("from \"".toList ++ (library.toList ++ ("\" import ".toList
      ++ (name.toList ++ [';'])))) = some (.libraryImport library name) := by
  have occurs := occursIn_append ("from \"".toList ++ library.toList ++ ['"']) " import ".toList
    (name.toList ++ [';'])
  have whole : "from \"".toList ++ (library.toList ++ ("\" import ".toList
      ++ (name.toList ++ [';']))) = "from ".toList ++ ('"' :: (library.toList
      ++ '"' :: (' ' :: ("import ".toList ++ (name.toList ++ [';']))))) := by simp
  have same : "from \"".toList ++ library.toList ++ ['"'] ++ (" import ".toList
      ++ (name.toList ++ [';'])) = "from ".toList ++ ('"' :: (library.toList
      ++ '"' :: (' ' :: ("import ".toList ++ (name.toList ++ [';']))))) := by simp
  have start : trimStart (' ' :: ("import ".toList ++ (name.toList ++ [';']))) =
      "import ".toList ++ (name.toList ++ [';']) := by
    rw [trimStart_cons_blank (by decide), trimStart_append (by decide)]
  rw [same] at occurs
  rw [whole, libraryImport?, after?_eq_some.2 rfl]
  simp only [trimStart_of_head (c := '"') (by decide), takeLibrary?_quoted plain, start,
    after?_bind_before?, trimmed, occurs, String.ofList_toList]
  simp [nonempty, named]

theorem quotedFile?_written {file : String} (nonempty : file ≠ "") :
    quotedFile? ('"' :: (file.toList ++ "\";".toList)) = some file := by
  have body : '"' :: (file.toList ++ "\";".toList) = ('"' :: (file.toList ++ ['"'])) ++ [';'] := by
    simp
  have whole : trim ('"' :: (file.toList ++ ['"']) ++ [';']) =
      '"' :: (file.toList ++ ['"']) ++ [';'] := by
    apply trim_of_ends
    · rintro c ⟨⟩
      decide
    · intro c last
      rw [List.getLast?_concat] at last
      cases last
      decide
  have closed : trimEnd ('"' :: (file.toList ++ ['"'])) = '"' :: (file.toList ++ ['"']) := by
    apply dropEndWhile_of_last
    intro c last
    rw [← List.cons_append, List.getLast?_concat] at last
    cases last
    decide
  rw [body, quotedFile?, whole, before?_eq_some.2 rfl]
  simp [closed, nonempty]

theorem companion?_written {file : String} (nonempty : file ≠ "") :
    companion? ("using \"".toList ++ (file.toList ++ "\";".toList)) = some (.companion file) := by
  have whole : "using \"".toList ++ (file.toList ++ "\";".toList) =
      "using ".toList ++ '"' :: (file.toList ++ "\";".toList) := rfl
  rw [companion?, whole, after?_eq_some.2 rfl, Option.bind_some, quotedFile?_written nonempty,
    Option.map_some]

theorem donor?_written {file : String} (nonempty : file ≠ "") :
    donor? ("ext \"".toList ++ (file.toList ++ "\";".toList)) = some (.donor file) := by
  have whole : "ext \"".toList ++ (file.toList ++ "\";".toList) =
      "ext ".toList ++ '"' :: (file.toList ++ "\";".toList) := rfl
  rw [donor?, whole, after?_eq_some.2 rfl, Option.bind_some, quotedFile?_written nonempty,
    Option.map_some]

theorem header?_written {h : Header} {name : Option String}
    (named : ∀ n ∈ name, Header.IsName n.toList) (wellFormed : h.WellFormed) :
    header? ("#!".toList ++ h.print name) = some (.header h) := by
  rw [header?, after?_eq_some.2 rfl, Option.map_some, Header.parse_print named wellFormed]

/-- However a directive is written, it is read as that directive. -/
theorem classify_written (written : Written d position s) :
    classify (String.ofList s) position = d := by
  -- the first letter leaves one form to be read
  cases written with
  | package trimmed => exact classify_of_form 'p' (package?_written trimmed) rfl
  | header wellFormed named early =>
    refine classify_of_form '#' ?_ rfl
    rw [formFor, if_pos (by omega), header?_written named wellFormed]
  | classImport trimmed other => exact classify_of_form 'i' (plainImport?_class trimmed other) rfl
  | staticImport trimmed => exact classify_of_form 'i' (plainImport?_static trimmed) rfl
  | libraryImport nonempty plain named trimmed =>
    exact classify_of_form 'f' (libraryImport?_written nonempty plain named trimmed) rfl
  | companion nonempty => exact classify_of_form 'u' (companion?_written nonempty) rfl
  | donor nonempty => exact classify_of_form 'e' (donor?_written nonempty) rfl

/-- A header with commas, blanks and brackets inside its type arguments. -/
def nestedHeader : Header where
  kind := .abstractClass
  generics := ["K extends Comparable<Map<K, ?>>", "V"]
  superclass := some "Base<K, Map<V, List<K>>>"
  contracts := ["Sink<Pair<K, V>, int[]>", "Runnable"]

theorem classify_written_nested :
    Written (.header nestedHeader) 2 ("#!".toList ++ nestedHeader.print (some "Cache")) ∧
      classify ("#!abstract<K extends Comparable<Map<K, ?>>,V> Cache ext Base<K, Map<V, List<K>>>"
        ++ " impl Sink<Pair<K, V>, int[]>,Runnable") 2 = .header nestedHeader := by
  have wellFormed : nestedHeader.WellFormed :=
    ⟨by decide +kernel, by decide +kernel, by decide +kernel⟩
  have named : ∀ n ∈ some "Cache", Header.IsName n.toList := by
    rintro _ ⟨⟩
    exact ⟨by decide, List.all_eq_true.1 (by decide +kernel), by decide, by decide⟩
  have written : Written _ 2 _ := .header wellFormed named (.inr rfl)
  have text : String.ofList ("#!".toList ++ nestedHeader.print (some "Cache")) =
      "#!abstract<K extends Comparable<Map<K, ?>>,V> Cache ext Base<K, Map<V, List<K>>>"
        ++ " impl Sink<Pair<K, V>, int[]>,Runnable" := by
    decide +kernel
  exact ⟨written, text ▸ classify_written written⟩

end ScriptJar.Directive

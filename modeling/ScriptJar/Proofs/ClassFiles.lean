import Mathlib.Data.List.Nodup
import Mathlib.Data.List.Perm.Subperm
import Mathlib.Data.Set.List
import Mathlib.Data.String.Basic
import ScriptJar.Build.Session
import ScriptJar.Proofs.BuildLog
import ScriptJar.Proofs.Containment
import ScriptJar.Proofs.Membership

/-! # Class files of an archive

The archiver gets a list of class files.  Nothing bounds the numbers of anonymous classes but
the number of files there are, and the named ones are found by looking at all names in the
directory of the package.  The name of a file tells the entries apart: those of a module by
what follows its identifier, those of different modules by what stands before the first `$`.

* `FileTree.Orderly` — trees in which no place is listed twice;
* `Module.numbered_bounded` — numbers of files that are there end somewhere;
* `Module.exists_named` — the nested classes that are found in a directory;
* `Module.classEntries_listed` — the entries of a module and of a graph.
-/

namespace ScriptJar

/-! ## Directories -/

namespace FileTree

variable {t : FileTree} {p : Path} {place dir : Place} {name : String}

/-- No place is listed twice, and no name has a slash in it. -/
structure Orderly (t : FileTree) : Prop where
  distinct : (t.nodes.map Prod.fst).Nodup
  plain : ∀ place ∈ t.nodes.map Prod.fst, ∀ name ∈ place, '/' ∉ name.toList

instance (t : FileTree) : Decidable t.Orderly :=
  decidable_of_iff ((t.nodes.map Prod.fst).Nodup ∧
    ∀ place ∈ t.nodes.map Prod.fst, ∀ name ∈ place, '/' ∉ name.toList)
    ⟨fun h => ⟨h.1, h.2⟩, fun h => ⟨h.distinct, h.plain⟩⟩

/-- A path names a directory that has something of a name in it. -/
def Holds (t : FileTree) (p : Path) (name : String) : Prop :=
  ∃ dir, t.resolve p = .ok dir ∧ t.get? dir = some .directory ∧
    (t.get? (dir ++ [name])).isSome = true

theorem mem_places (named : place ≠ []) :
    place ∈ t.nodes.map Prod.fst ↔ (t.get? place).isSome = true := by
  cases place with
  | nil => exact absurd rfl named
  | cons name rest =>
    simp only [get?, List.lookup_isSome_iff, List.mem_map, beq_iff_eq]
    exact exists_congr fun e => and_congr_right fun _ => eq_comm

theorem childName?_eq_some : childName? dir place = some name ↔ place = dir ++ [name] := by
  unfold childName?
  constructor
  · intro found
    split at found
    · next parent =>
      obtain ⟨front, rfl⟩ := List.getLast?_eq_some_iff.1 found
      rw [List.dropLast_concat] at parent
      rw [parent]
    · cases found
  · rintro rfl
    simp

theorem mem_children : name ∈ t.nodes.filterMap (fun n => childName? dir n.1) ↔
    (t.get? (dir ++ [name])).isSome = true := by
  rw [← mem_places (by simp), List.mem_filterMap, List.mem_map]
  simp only [childName?_eq_some]

/-- The names in a directory, each once. -/
theorem list_spec {names : List String} (h : t.list p = .ok names) :
    (∀ name, name ∈ names ↔ t.Holds p name) ∧ (t.Orderly → names.Nodup) := by
  unfold list at h
  cases found : t.resolve p with
  | error e => simp [found] at h
  | ok dir =>
    simp only [found] at h
    split at h
    · next directory =>
      obtain rfl := Except.ok.inj h
      refine ⟨fun name => ?_, fun orderly => ?_⟩
      · rw [mem_children, Holds, found]
        simp [directory]
      · have once : ((t.nodes.map Prod.fst).filterMap (childName? dir)).Nodup := by
          refine orderly.distinct.filterMap fun a a' name first second => ?_
          rw [childName?_eq_some.1 first, childName?_eq_some.1 second]
        rwa [List.filterMap_map] at once
    · cases h

theorem not_holds_of_error {e : FileError} (h : t.list p = .error e) : ¬ t.Holds p name := by
  rintro ⟨dir, found, directory, -⟩
  simp [list, found, directory] at h

theorem Holds.plain (orderly : t.Orderly) (h : t.Holds p name) : '/' ∉ name.toList := by
  obtain ⟨dir, -, -, there⟩ := h
  exact orderly.plain _ ((mem_places (by simp)).2 there) name (by simp)

theorem mem_places_of_isFile (h : t.isFile p = true) :
    t.placeOf p ∈ t.nodes.map Prod.fst := by
  unfold isFile node at h
  cases found : t.resolve p with
  | error e => simp [found] at h
  | ok place =>
    rw [← resolve_eq_placeOf found]
    cases there : t.get? place with
    | none => simp [found, there] at h
    | some n =>
      refine (mem_places ?_).2 (by simp [there])
      -- the root is no file
      rintro rfl
      cases there
      simp [found, get?] at h

end FileTree

/-! ## Names of class files -/

theorem Text.splitOn_append_plain (sep : Char) (s : List Char) :
    ∃ front last, splitOn sep s = front ++ [last] ∧
      ∀ t, sep ∉ t → splitOn sep (s ++ t) = front ++ [last ++ t] := by
  induction s with
  | nil => exact ⟨[], [], rfl, fun t plain => splitOn_of_notMem plain⟩
  | cons c s ih =>
    obtain ⟨front, last, whole, more⟩ := ih
    by_cases cut : c = sep
    · refine ⟨[] :: front, last, by simp [splitOn, cut, whole], fun t plain => ?_⟩
      simp [splitOn, cut, more t plain]
    · -- the character goes to the first piece, which may be the last one
      cases front with
      | nil =>
        refine ⟨[], c :: last, by simp [splitOn, cut, whole], fun t plain => ?_⟩
        simp [splitOn, cut, more t plain]
      | cons piece front =>
        refine ⟨(c :: piece) :: front, last, by simp [splitOn, cut, whole], fun t plain => ?_⟩
        simp [splitOn, cut, more t plain]

namespace Module

variable {m m' : Module} {files : FileTree} {classes : Path} {file : String}

theorem fileName?_of_class {front : List (List Char)} {text : String} {name : List Char}
    (split : Text.splitOn '/' text.toList = front ++ [name]) (long : 3 ≤ name.length) :
    Path.fileName? ⟨text⟩ = some (String.ofList name) := by
  have leads : Path.isVoid name = false := by
    cases void : Path.isVoid name with
    | false => rfl
    | true =>
      simp only [Path.isVoid, Bool.or_eq_true, List.isEmpty_iff, beq_iff_eq] at void
      rcases void with rfl | rfl <;> simp at long
  have down : name ≠ ['.', '.'] := by
    rintro rfl
    simp at long
  rw [Path.fileName?_eq, Path.moves, split]
  simp [leads, down]

/-- The name of a class file is what follows the last slash of the identifier, the suffix and
    the extension. -/
theorem exists_base (m : Module) :
    ∃ base : String, ('/' ∉ m.identifier.toList → base = m.identifier) ∧
      ∀ suffix : String, '/' ∉ suffix.toList →
        (m.classFile suffix).fileName? = some (base ++ suffix ++ ".class") := by
  obtain ⟨front, last, whole, more⟩ := Text.splitOn_append_plain '/' m.identifier.toList
  refine ⟨String.ofList last, fun plain => ?_, fun suffix plain => ?_⟩
  · rw [Text.splitOn_of_notMem plain] at whole
    have same : [] ++ [m.identifier.toList] = front ++ [last] := whole
    rw [← List.singleton_inj.1 (List.append_inj' same rfl).2, String.ofList_toList]
  · have text : (m.identifier ++ suffix ++ ".class").toList =
        m.identifier.toList ++ (suffix.toList ++ ".class".toList) := by simp
    have split := more (suffix.toList ++ ".class".toList) (by
      rw [List.mem_append, not_or]
      exact ⟨plain, by decide⟩)
    rw [← text] at split
    have name := fileName?_of_class split (by
      simp only [List.length_append]
      exact Nat.le_trans (by decide : 3 ≤ ".class".toList.length) (by omega))
    rw [classFile, show String.ofList last ++ suffix ++ ".class" =
      String.ofList (last ++ (suffix.toList ++ ".class".toList)) by
        simp [String.ofList_append, String.append_assoc]]
    exact Path.fileName?_join name

/-! ## Anonymous classes -/

theorem slash_notMem_number (i : Nat) : '/' ∉ ("$" ++ Nat.repr i).toList := by
  rw [String.toList_append, List.mem_append, not_or]
  refine ⟨by decide, fun inside => ?_⟩
  rw [Nat.repr_eq_ofList_toDigits, String.toList_ofList] at inside
  exact absurd (Text.isDigit_toDigits i '/' inside) (by decide)

theorem number_injective : Function.Injective fun i : Nat => "$" ++ Nat.repr i := by
  intro i j same
  have texts := congrArg String.toList same
  simp only [String.toList_append, List.append_cancel_left_eq, Nat.repr_eq_ofList_toDigits,
    String.toList_ofList] at texts
  -- both are what the digits are read as
  have first := Text.numeralBelow?_toDigits (show i < i + j + 1 by omega)
  have second := Text.numeralBelow?_toDigits (show j < i + j + 1 by omega)
  rw [texts, second] at first
  exact (Option.some.inj first).symm

theorem dollar_injective : Function.Injective ("$" ++ · : String → String) := by
  intro a b same
  have texts := congrArg String.toList same
  simp only [String.toList_append, List.append_cancel_left_eq] at texts
  exact String.toList_inj.1 texts

theorem className_injective (base : String) :
    Function.Injective fun suffix : String => base ++ suffix ++ ".class" := by
  intro a b same
  have texts := congrArg String.toList same
  simp only [String.toList_append, List.append_cancel_right_eq, List.append_cancel_left_eq] at texts
  exact String.toList_inj.1 texts

/-- Different numbers belong to different files, so there are no more numbers in a row than
    files. -/
theorem numbered_bounded {n : Nat}
    (there : ∀ i, 1 ≤ i → i ≤ n → files.isFile (classes / m.numberedClass i) = true) :
    n ≤ files.nodes.length := by
  obtain ⟨base, -, named⟩ := m.exists_base
  have last (i : Nat) : (files.placeOf (classes / m.numberedClass i)).getLast? =
      some (base ++ ("$" ++ Nat.repr i) ++ ".class") :=
    files.getLast?_placeOf (Path.fileName?_join (named _ (slash_notMem_number i)))
  let places := (List.range' 1 n).map fun i => files.placeOf (classes / m.numberedClass i)
  have distinct : places.Nodup := by
    refine List.Nodup.of_map List.getLast? ?_
    rw [List.map_map, Function.comp_def]
    simp only [last]
    refine List.Nodup.map (fun i j same => ?_) List.nodup_range'
    exact number_injective (className_injective base (Option.some.inj same))
  have inside : places ⊆ files.nodes.map Prod.fst := by
    intro place member
    obtain ⟨i, number, rfl⟩ := List.mem_map.1 member
    rw [List.mem_range'_1] at number
    exact FileTree.mem_places_of_isFile (there i number.1 (by omega))
  simpa [places] using distinct.length_le_of_subset inside

/-- The numbers up to the first that fails a test. -/
theorem exists_takeWhile_range' (p : Nat → Bool) (a n : Nat) :
    ∃ k, k ≤ n ∧ (List.range' a n).takeWhile p = List.range' a k ∧
      (∀ i, a ≤ i → i < a + k → p i = true) ∧ (k < n → p (a + k) = false) := by
  induction n generalizing a with
  | zero => exact ⟨0, Nat.le_refl 0, rfl, fun i _ _ => by omega, by simp⟩
  | succ n ih =>
    rw [List.range'_succ]
    cases first : p a with
    | false => exact ⟨0, Nat.zero_le _, by simp [first], fun i _ _ => by omega, fun _ => by simpa⟩
    | true =>
      obtain ⟨k, le, taken, pass, fail⟩ := ih (a + 1)
      refine ⟨k + 1, by omega, by simp [first, taken, List.range'_succ], fun i low high => ?_, ?_⟩
      · by_cases here : i = a
        · rw [here, first]
        · exact pass i (by omega) (by omega)
      · intro less
        rw [← Nat.add_assoc, Nat.add_right_comm]
        exact fail (by omega)

/-- The anonymous classes: number 0 if it is there, and the numbers up to the first gap. -/
theorem exists_numbered (files : FileTree) (classes : Path) (m : Module) :
    ∃ k, m.numberedClasses files classes =
        ((if files.isFile (classes / m.numberedClass 0) then [0] else []) ++
          List.range' 1 k).map m.numberedClass ∧
      ∀ n, (∀ i, 1 ≤ i → i ≤ n → files.isFile (classes / m.numberedClass i) = true) ↔ n ≤ k := by
  obtain ⟨k, le, taken, pass, fail⟩ := exists_takeWhile_range'
    (fun i => files.isFile (classes / m.numberedClass i)) 1 files.nodes.length
  refine ⟨k, by simp only [numberedClasses, taken], fun n => ⟨fun there => ?_, ?_⟩⟩
  · -- a number after the first gap would be missing
    apply Nat.le_of_not_lt
    intro beyond
    have gap := fail (by have := numbered_bounded there; omega)
    rw [there (1 + k) (by omega) (by omega)] at gap
    cases gap
  · intro below i low high
    exact pass i low (by omega)

/-! ## Nested classes with names of their own -/

/-- The file of a nested class. -/
def nestedName (m : Module) (inner : String) : String :=
  m.identifier ++ "$" ++ inner ++ ".class"

/-- A name that is not empty and no number. -/
def IsProper (inner : String) : Prop :=
  inner ≠ "" ∧ ¬ ∀ c ∈ inner.toList, c.isDigit = true

instance (inner : String) : Decidable (IsProper inner) :=
  decidable_of_iff (inner ≠ "" ∧ ¬ inner.toList.all Char.isDigit = true)
    (by rw [List.all_eq_true, IsProper])

theorem isNamedClass_iff : m.isNamedClass file = true ↔
    ∃ inner, IsProper inner ∧ file = m.nestedName inner := by
  unfold isNamedClass
  constructor
  · intro found
    split at found
    · cases found
    · next inner cut =>
      obtain ⟨rest, front, back⟩ := Option.bind_eq_some_iff.1 cut
      rw [Text.after?_eq_some] at front
      rw [Text.before?_eq_some] at back
      simp only [Bool.and_eq_true, Bool.not_eq_true', List.isEmpty_eq_false_iff,
        List.all_eq_false] at found
      refine ⟨String.ofList inner, ⟨by simpa using found.1, by simpa using found.2⟩, ?_⟩
      rw [← String.toList_inj, front, back]
      simp [nestedName]
  · rintro ⟨inner, ⟨some, proper⟩, rfl⟩
    have text : (m.nestedName inner).toList =
        (m.identifier.toList ++ ['$']) ++ (inner.toList ++ ".class".toList) := by
      simp [nestedName]
    have cut : (Text.after? (m.identifier.toList ++ ['$']) (m.nestedName inner).toList).bind
        (Text.before? ".class".toList) = Option.some inner.toList := by
      rw [text]
      exact Text.after?_bind_before? _ _ _
    rw [cut]
    simpa [some] using proper

theorem nestedName_injective (m : Module) : Function.Injective m.nestedName :=
  className_injective (m.identifier ++ "$")

theorem path_nestedName (m : Module) (inner : String) :
    m.packageDirectory / m.nestedName inner = m.classFile ("$" ++ inner) := by
  simp only [classFile, nestedName, String.append_assoc]

/-- The nested classes with names of their own are those that the directory of the package
    holds, in the order of their files. -/
theorem exists_named (orderly : files.Orderly) (classes : Path) (m : Module) :
    ∃ inners : List String, m.namedClasses files classes =
        inners.map (fun inner => m.classFile ("$" ++ inner)) ∧
      (inners.map m.nestedName).Pairwise (· < ·) ∧
      ∀ inner, inner ∈ inners ↔
        IsProper inner ∧ files.Holds (classes / m.packageDirectory) (m.nestedName inner) := by
  unfold namedClasses
  cases listed : files.list (classes / m.packageDirectory) with
  | error e =>
    refine ⟨[], rfl, .nil, fun inner => ?_⟩
    simp [FileTree.not_holds_of_error listed]
  | ok names =>
    obtain ⟨held, once⟩ := FileTree.list_spec listed
    have sorted : ((names.filter m.isNamedClass).mergeSort Library.nameLe).Pairwise (· < ·) := by
      have le : ((names.filter m.isNamedClass).mergeSort Library.nameLe).Pairwise
          (Library.nameLe · · = true) := by
        refine List.pairwise_mergeSort (fun a b c first second => ?_) (fun a b => ?_) _
        · simp only [Library.nameLe, decide_eq_true_eq] at first second ⊢
          exact le_trans first second
        · simpa [Library.nameLe] using le_total a b
      have distinct : ((names.filter m.isNamedClass).mergeSort Library.nameLe).Nodup :=
        (List.mergeSort_perm _ _).nodup_iff.2 ((once orderly).filter _)
      refine (le.and distinct).imp fun both => ?_
      simp only [Library.nameLe, decide_eq_true_eq] at both
      exact lt_of_le_of_ne both.1 both.2
    -- every one of these names is made from an inner name
    obtain ⟨inners, whole⟩ : (names.filter m.isNamedClass).mergeSort Library.nameLe ∈
        Set.range (List.map m.nestedName) := by
      rw [Set.range_list_map]
      intro file member
      obtain ⟨inner, -, rfl⟩ :=
        isNamedClass_iff.1 (List.mem_filter.1 (List.mem_mergeSort.1 member)).2
      exact ⟨inner, rfl⟩
    refine ⟨inners, ?_, by rwa [whole], fun inner => ?_⟩
    · simp only [← whole, List.map_map, Function.comp_def, path_nestedName]
    · rw [← List.mem_map_of_injective m.nestedName_injective, whole, List.mem_mergeSort,
        List.mem_filter, held, isNamedClass_iff, and_comm]
      refine and_congr_left' ⟨?_, fun proper => ⟨inner, proper, rfl⟩⟩
      rintro ⟨inner', proper, same⟩
      rwa [m.nestedName_injective same]

/-! ## All entries -/

/-- What the names of a module's class files have after the identifier. -/
structure Suffixes (suffixes : List String) : Prop where
  distinct : suffixes.Nodup
  plain : ∀ s ∈ suffixes, '/' ∉ s.toList
  nested : ∀ s ∈ suffixes, s = "" ∨ ∃ rest, s = "$" ++ rest

/-- Nothing, numbers and proper names make different suffixes. -/
theorem suffixes_of {is : List Nat} {inners : List String} (numbers : is.Nodup)
    (names : inners.Nodup) (proper : ∀ inner ∈ inners, IsProper inner)
    (plain : ∀ inner ∈ inners, '/' ∉ inner.toList) :
    Suffixes ("" :: (is.map (fun i => "$" ++ Nat.repr i) ++ inners.map ("$" ++ ·))) := by
  have kinds {s : String} (member : s ∈ "" :: (is.map (fun i => "$" ++ Nat.repr i) ++
      inners.map ("$" ++ ·))) : s = "" ∨ (∃ i, s = "$" ++ Nat.repr i) ∨
        ∃ inner ∈ inners, s = "$" ++ inner := by
    rw [List.mem_cons, List.mem_append, List.mem_map, List.mem_map] at member
    rcases member with rfl | ⟨i, -, rfl⟩ | ⟨inner, there, rfl⟩
    · exact .inl rfl
    · exact .inr (.inl ⟨i, rfl⟩)
    · exact .inr (.inr ⟨inner, there, rfl⟩)
  refine ⟨?_, fun s member => ?_, fun s member => ?_⟩
  · rw [List.nodup_cons, List.nodup_append]
    refine ⟨by simp, numbers.map number_injective, names.map dollar_injective, ?_⟩
    rintro _ first _ second same
    obtain ⟨i, -, rfl⟩ := List.mem_map.1 first
    obtain ⟨inner, member, rfl⟩ := List.mem_map.1 second
    -- a proper name is not the name of a number
    refine (proper inner member).2 fun c inside => ?_
    rw [← dollar_injective same, Nat.repr_eq_ofList_toDigits, String.toList_ofList] at inside
    exact Text.isDigit_toDigits i c inside
  · rcases kinds member with rfl | ⟨i, rfl⟩ | ⟨inner, there, rfl⟩
    · decide
    · exact slash_notMem_number i
    · rw [String.toList_append, List.mem_append, not_or]
      exact ⟨by decide, plain inner there⟩
  · rcases kinds member with rfl | ⟨i, rfl⟩ | ⟨inner, -, rfl⟩
    · exact .inl rfl
    · exact .inr ⟨_, rfl⟩
    · exact .inr ⟨_, rfl⟩

theorem nodup_numbers (zero : Bool) (k : Nat) :
    ((if zero then [0] else []) ++ List.range' 1 k).Nodup := by
  cases zero with
  | false => exact List.nodup_range'
  | true =>
    refine List.nodup_cons.2 ⟨fun inside => ?_, List.nodup_range'⟩
    change 0 ∈ List.range' 1 k at inside
    rw [List.mem_range'_1] at inside
    omega

/-- The entries of a module differ in what follows the identifier. -/
theorem exists_suffixes (orderly : files.Orderly) (classes : Path) (m : Module) :
    ∃ suffixes, Suffixes suffixes ∧ m.classEntries files classes = suffixes.map m.classFile := by
  obtain ⟨k, numbered, -⟩ := exists_numbered files classes m
  obtain ⟨inners, named, sorted, found⟩ := exists_named orderly classes m
  refine ⟨_, suffixes_of (nodup_numbers (files.isFile (classes / m.numberedClass 0)) k)
    (List.Nodup.of_map m.nestedName (sorted.imp fun lt => ne_of_lt lt))
    (fun inner member => ((found inner).1 member).1) (fun inner member => ?_), ?_⟩
  · have file := ((found inner).1 member).2.plain orderly
    simp only [nestedName, String.toList_append, List.mem_append, not_or] at file
    exact file.1.2
  · rw [List.map_cons, List.map_append, List.map_map, List.map_map, classEntries, numbered, named]
    rfl

theorem nodup_fileNames (orderly : files.Orderly) (classes : Path) (m : Module) :
    ((m.classEntries files classes).map Path.fileName?).Nodup := by
  obtain ⟨suffixes, suffixed, entries⟩ := exists_suffixes orderly classes m
  obtain ⟨base, -, named⟩ := m.exists_base
  have names : suffixes.map (Path.fileName? ∘ m.classFile) =
      suffixes.map fun s => some (base ++ s ++ ".class") :=
    List.map_congr_left fun s member => named s (suffixed.plain s member)
  rw [entries, List.map_map, names]
  exact suffixed.distinct.map fun a b same => className_injective base (Option.some.inj same)

/-- Which module a class file belongs to can be told from its name. -/
theorem identifier_of_className {a b s s' : String}
    (plain : '$' ∉ a.toList ∧ '$' ∉ b.toList) (first : s = "" ∨ ∃ rest, s = "$" ++ rest)
    (second : s' = "" ∨ ∃ rest, s' = "$" ++ rest)
    (same : a ++ s ++ ".class" = b ++ s' ++ ".class") : a = b := by
  have texts := congrArg String.toList same
  simp only [String.toList_append, List.append_cancel_right_eq] at texts
  have cut (text rest : List Char) (free : '$' ∉ text) :
      (text ++ ("$".toList ++ rest)).takeWhile (· ≠ '$') = text := by
    rw [List.takeWhile_append_of_pos fun c inside => by
      simpa using fun equal : c = '$' => free (equal ▸ inside)]
    simp
  rcases first with rfl | ⟨rest, rfl⟩ <;> rcases second with rfl | ⟨rest', rfl⟩
  · exact String.toList_inj.1 (by simpa using texts)
  · refine absurd ?_ plain.1
    rw [show a.toList = b.toList ++ ("$" ++ rest').toList by simpa using texts]
    simp
  · refine absurd ?_ plain.2
    rw [show b.toList = a.toList ++ ("$" ++ rest).toList by simpa using texts.symm]
    simp
  · have before := congrArg (List.takeWhile (· ≠ '$')) texts
    rw [String.toList_append, String.toList_append, cut _ _ plain.1, cut _ _ plain.2] at before
    exact String.toList_inj.1 before

theorem nodup_flatMap_fileNames {ms : List Module} (orderly : files.Orderly) (classes : Path)
    (distinct : (ms.map identifier).Nodup)
    (plain : ∀ id ∈ ms.map identifier, '$' ∉ id.toList ∧ '/' ∉ id.toList) :
    ((ms.flatMap (classEntries files classes)).map Path.fileName?).Nodup := by
  rw [List.map_flatMap, List.nodup_flatMap]
  refine ⟨fun m _ => nodup_fileNames orderly classes m, ?_⟩
  refine (List.pairwise_map.1 distinct).imp_of_mem fun {m m'} first second differ => ?_
  intro name inside inside'
  change name ∈ (classEntries files classes m).map Path.fileName? at inside
  change name ∈ (classEntries files classes m').map Path.fileName? at inside'
  obtain ⟨suffixes, suffixed, entries⟩ := exists_suffixes orderly classes m
  obtain ⟨suffixes', suffixed', entries'⟩ := exists_suffixes orderly classes m'
  obtain ⟨base, isBase, named⟩ := m.exists_base
  obtain ⟨base', isBase', named'⟩ := m'.exists_base
  rw [entries, List.map_map] at inside
  rw [entries', List.map_map] at inside'
  obtain ⟨s, member, rfl⟩ := List.mem_map.1 inside
  obtain ⟨s', member', same⟩ := List.mem_map.1 inside'
  have free := plain _ (List.mem_map_of_mem first)
  have free' := plain _ (List.mem_map_of_mem second)
  rw [Function.comp_apply, Function.comp_apply, named s (suffixed.plain s member),
    named' s' (suffixed'.plain s' member'), isBase free.2, isBase' free'.2,
    Option.some.injEq] at same
  exact differ (identifier_of_className ⟨free.1, free'.1⟩ (suffixed.nested s member)
    (suffixed'.nested s' member') same.symm)

/-- Paths with different names have different components. -/
theorem nodup_components {ps : List Path} (names : (ps.map Path.fileName?).Nodup) :
    (ps.map Path.components).Nodup := by
  refine List.pairwise_map.2 ((List.pairwise_map.1 names).imp fun differ same => differ ?_)
  rw [Path.fileName?, Path.fileName?, same]

theorem Changed.identifier {R : Reference → Reference → Prop} (h : m.Changed R m') :
    m'.identifier = m.identifier := by
  cases h with
  | own own =>
    obtain ⟨rs, -, rfl⟩ := own
    rfl
  | donor => rfl

end Module

/-! ## Graphs -/

namespace Graph

variable {g g' : Graph}

def identifiers (g : Graph) : List String :=
  g.modules.map Module.identifier

theorem advanceFirst_identifiers {fits : Reference → Bool} {moved : Bool}
    (h : g.advanceFirst fits = (moved, g')) : g'.identifiers = g.identifiers := by
  rcases advanceFirst_cases h with ⟨-, -, rfl⟩ | ⟨before, r, after, place, -, -, -, rfl⟩
  · rfl
  · obtain ⟨ms, replaced, changed⟩ :=
      changed_modifyReference (R := fun r r' => r' = r.advance) (getElem?_place place) rfl
    rw [changed]
    exact replaced.map_eq fun _ _ changed => changed.identifier

theorem correct_identifiers {files : FileTree} {d : Diagnostic} {moved : Bool} {ws : List Warning}
    (h : g.correct files d = (moved, g', ws)) : g'.identifiers = g.identifiers := by
  rcases correct_cases h with ⟨-, loosely⟩ | ⟨line, -, ⟨-, byLine⟩ | ⟨g₁, byLine, loosely⟩⟩
  · exact advanceFirst_identifiers loosely
  · exact advanceFirst_identifiers byLine
  · exact (advanceFirst_identifiers loosely).trans (advanceFirst_identifiers byLine)

end Graph

/-- The modules of a graph that was loaded have the identifiers of different paths. -/
theorem Loader.loadEntry_identifiers {l : Loader} {p : Path} {s : Loading}
    (h : l.loadEntry p {} = (.ok (), s)) :
    s.graph.identifiers.Nodup ∧ ∀ id ∈ s.graph.identifiers, '/' ∉ id.toList := by
  unfold loadEntry addEntry at h
  generalize read : l.loadFile p (({} : Loading).onGraph (·.claim p.identifier)) = answer at h
  rcases answer with ⟨_ | m, s₁⟩
  · cases (Prod.mk.inj h).1
  · obtain ⟨same, ms, qs, added⟩ := l.loadWithin_adds l.depth p _ m s₁ read
    obtain ⟨-, rfl⟩ := Prod.mk.inj h
    have grown := added.toGrown.insert rfl same
    have identifiers : (s₁.onGraph (·.insert m)).graph.identifiers =
        (ms ++ [m]).map Module.identifier := by
      rw [Graph.identifiers, grown.modules]
      rfl
    show (s₁.onGraph (·.insert m)).graph.identifiers.Nodup ∧
      ∀ id ∈ (s₁.onGraph (·.insert m)).graph.identifiers, '/' ∉ id.toList
    rw [identifiers]
    constructor
    · refine List.Nodup.of_map Graph.key ?_
      rw [List.map_map]
      exact grown.distinct
    · intro id member
      obtain ⟨m', inside, rfl⟩ := List.mem_map.1 member
      rcases List.mem_append.1 inside with named | entry
      · obtain ⟨q, -, c, -, same⟩ := added.named m' named
        rw [same]
        exact c.slash_notMem_identifier
      · rw [List.mem_singleton.1 entry, same]
        exact p.slash_notMem_identifier

namespace Job

variable {σ : Type} {job : Job} {t : Toolchain σ} {s s' s₀ : Progress σ} {g : Graph}
  {w w' : World σ}

theorem nodup_archiveRequest (job : Job) {files : FileTree} (orderly : files.Orderly)
    (distinct : g.identifiers.Nodup)
    (plain : ∀ id ∈ g.identifiers, '$' ∉ id.toList ∧ '/' ∉ id.toList) :
    ((job.archiveRequest g files).entries.map Path.components).Nodup :=
  Module.nodup_components (Module.nodup_flatMap_fileNames orderly _ distinct plain)

/-- Packing calls the archiver for the graph, if at all. -/
theorem archivings_package {result : Except Failure (List String)}
    (h : job.package t g w = (result, w')) :
    ∃ events, w'.log = w.log ++ events ∧
      (archivings events = [] → ∃ e, result = .error e) ∧
      ∀ made ∈ archivings events, made.request = job.archiveRequest g made.found := by
  rcases package_spec h with ⟨e, rfl, rfl⟩ | ⟨_, files, reply, warnings, -, -, -, -, -, log⟩
  · exact ⟨[], by simp, fun _ => ⟨e, rfl⟩, by simp [archivings]⟩
  · refine ⟨_, log, fun none => by simp at none, fun made member => ?_⟩
    obtain rfl : made = ⟨job.archiveRequest g files, files, reply.result⟩ := by simpa using member
    rfl

/-- A step keeps the identifiers, and calls the archiver for the graph it starts from. -/
theorem Step.archivings (h : Step job t s s') :
    s'.graph.identifiers = s.graph.identifiers ∧
      ∃ more, s'.world.log = s.world.log ++ more ∧
        ∀ made ∈ ScriptJar.archivings more,
          made.request = job.archiveRequest s.graph made.found := by
  cases h with
  | written | unwritten | stopped =>
    exact ⟨rfl, [], by simp [World.withFiles], by simp [ScriptJar.archivings]⟩
  | unlocated => exact ⟨rfl, _, rfl, by simp⟩
  | corrected first moved => exact ⟨Graph.correct_identifiers moved, _, rfl, by simp⟩
  | gaveUp first failed => exact ⟨Graph.correct_identifiers failed, _, rfl, by simp⟩
  | compiled called | uncompiled called =>
    obtain ⟨-, warnings, log⟩ := World.log_compile called
    exact ⟨rfl, _, log, by simp⟩
  | packaged done | unpackaged done =>
    obtain ⟨events, log, -, requests⟩ := archivings_package done
    exact ⟨rfl, events, log, requests⟩

/-- Every call of the archiver in a run is for a graph with the identifiers of the start. -/
theorem Reaches.archivings (h : job.Reaches t s₀ s) :
    s.graph.identifiers = s₀.graph.identifiers ∧
      ∃ events, s.world.log = s₀.world.log ++ events ∧
        ∀ made ∈ ScriptJar.archivings events, ∃ g : Graph, g.identifiers = s₀.graph.identifiers ∧
          made.request = job.archiveRequest g made.found := by
  induction h with
  | refl => exact ⟨rfl, [], by simp, by simp [ScriptJar.archivings]⟩
  | @next s _ ih =>
    obtain ⟨same, events, log, requests⟩ := ih
    obtain ⟨kept, more, grown, asked⟩ := (step_spec job t s).archivings
    refine ⟨kept.trans same, events ++ more, by rw [grown, log, List.append_assoc], ?_⟩
    intro made member
    rw [archivings_append, List.mem_append] at member
    rcases member with early | late
    · exact requests made early
    · exact ⟨s.graph, same, asked made late⟩

end Job

namespace Session

variable {σ : Type} {s : Session} {host : Host} {entry : Path} {t : Toolchain σ} {keep : Bool}
  {w w' : World σ} {g : Graph} {warnings : List Warning} {result : Except Failure Outcome}

theorem loadGraph_identifiers {files : FileTree}
    (loaded : s.loadGraph entry files = (.ok g, warnings)) :
    g.identifiers.Nodup ∧ ∀ id ∈ g.identifiers, '/' ∉ id.toList := by
  unfold loadGraph at loaded
  split at loaded
  · cases (Prod.mk.inj loaded).1
  · next read =>
    obtain ⟨same, -⟩ := Prod.mk.inj loaded
    rw [← Except.ok.inj same]
    exact Loader.loadEntry_identifiers read

/-- The log of a session is that of loading, and of a build if there is one. -/
theorem log_buildFile (loaded : s.loadGraph entry w.files = (.ok g, warnings))
    (built : s.buildFile host entry t keep w = (result, w')) :
    w'.log = w.log ++ warnings.map .warned ∨
      ∃ (job : Job) (files : FileTree),
        w'.log = (job.build t g ((w.warn warnings).withFiles files)).2.2.log := by
  unfold buildFile at built
  simp only [loaded] at built
  split at built
  · obtain ⟨-, rfl⟩ := Prod.mk.inj built
    exact .inl rfl
  · next files _ =>
    -- removing the staging directory is not logged
    refine .inr ⟨⟨Staging.ofEntry w.files host.temporaryDirectory host.process entry,
      ⟨s.settings.archiveName⟩⟩, files, ?_⟩
    simp only [buildIn] at built
    split at built
    · obtain ⟨-, rfl⟩ := Prod.mk.inj built
      rfl
    · split at built
      · obtain ⟨-, rfl⟩ := Prod.mk.inj built
        rfl
      · obtain ⟨-, rfl⟩ := Prod.mk.inj built
        rfl

/-- What a session asks the archiver for. -/
theorem archivings_buildFile (loaded : s.loadGraph entry w.files = (.ok g, warnings))
    (built : s.buildFile host entry t keep w = (result, w')) :
    ∃ events, w'.log = w.log ++ events ∧
      ∀ made ∈ archivings events, ∃ (job : Job) (g' : Graph), g'.identifiers = g.identifiers ∧
        made.request = job.archiveRequest g' made.found := by
  rcases log_buildFile loaded built with log | ⟨job, files, log⟩
  · exact ⟨_, log, by simp⟩
  · obtain ⟨s', result', reached, -, ran⟩ :=
      Job.run_reaches job t { graph := g, world := (w.warn warnings).withFiles files }
    obtain ⟨-, events, grown, requests⟩ := reached.archivings
    refine ⟨warnings.map .warned ++ events, ?_, fun made member => ?_⟩
    · rw [log, Job.build, ran]
      simp [grown, World.warn, World.withFiles]
    · rw [archivings_append, archivings_warned, List.nil_append] at member
      obtain ⟨g', same, request⟩ := requests made member
      exact ⟨job, g', same, request⟩

end Session

/-- The entries of a module are its class, the anonymous classes without a gap and the nested
    classes that its directory holds, each once.  The archiver gets those of all modules, and
    again each once, if the identifiers differ and have no `$` and no slash in them.  In a
    session only the `$` matters. -/
theorem Module.classEntries_listed :
    (∀ (files : FileTree) (classes : Path) (m : Module), files.Orderly →
      ∃ (k : Nat) (inners : List String),
        m.classEntries files classes = m.classFile "" ::
          (((if files.isFile (classes / m.numberedClass 0) then [0] else []) ++
            List.range' 1 k).map m.numberedClass ++
            inners.map fun inner => m.classFile ("$" ++ inner)) ∧
        (∀ n, (∀ i, 1 ≤ i → i ≤ n → files.isFile (classes / m.numberedClass i) = true) ↔ n ≤ k) ∧
        (inners.map m.nestedName).Pairwise (· < ·) ∧
        (∀ inner, inner ∈ inners ↔
          IsProper inner ∧ files.Holds (classes / m.packageDirectory) (m.nestedName inner)) ∧
        ((m.classEntries files classes).map Path.components).Nodup) ∧
    (∀ (σ : Type) (job : Job) (t : Toolchain σ) (g : Graph) w result w',
      job.package t g w = (result, w') → g.identifiers.Nodup →
      (∀ id ∈ g.identifiers, '$' ∉ id.toList ∧ '/' ∉ id.toList) →
      ∃ events, w'.log = w.log ++ events ∧ (archivings events = [] → ∃ e, result = .error e) ∧
        ∀ made ∈ archivings events,
          made.request.entries =
            g.modules.flatMap (classEntries made.found job.staging.classes) ∧
          (made.found.Orderly → (made.request.entries.map Path.components).Nodup)) ∧
    ∀ (σ : Type) (s : Session) host entry (t : Toolchain σ) keep w g warnings result w',
      s.loadGraph entry w.files = (.ok g, warnings) → (∀ id ∈ g.identifiers, '$' ∉ id.toList) →
      s.buildFile host entry t keep w = (result, w') →
      ∃ events, w'.log = w.log ++ events ∧
        ∀ made ∈ archivings events, made.found.Orderly →
          (made.request.entries.map Path.components).Nodup := by
  refine ⟨?_, ?_, ?_⟩
  · intro files classes m orderly
    obtain ⟨k, numbered, numbers⟩ := exists_numbered files classes m
    obtain ⟨inners, named, sorted, found⟩ := exists_named orderly classes m
    refine ⟨k, inners, by rw [classEntries, numbered, named], numbers, sorted, found, ?_⟩
    exact nodup_components (nodup_fileNames orderly classes m)
  · intro σ job t g w result w' packed distinct plain
    obtain ⟨events, log, called, requests⟩ := Job.archivings_package packed
    refine ⟨events, log, called, fun made member => ?_⟩
    rw [requests made member]
    exact ⟨rfl, fun orderly => job.nodup_archiveRequest orderly distinct plain⟩
  · intro σ s host entry t keep w g warnings result w' loaded free built
    obtain ⟨distinct, plain⟩ := Session.loadGraph_identifiers loaded
    obtain ⟨events, log, requests⟩ := Session.archivings_buildFile loaded built
    refine ⟨events, log, fun made member orderly => ?_⟩
    obtain ⟨job, g', same, request⟩ := requests made member
    rw [request]
    refine job.nodup_archiveRequest orderly (same ▸ distinct) fun id inside => ?_
    rw [same] at inside
    exact ⟨free id inside, plain id inside⟩

/-- A compiler that makes some class files, and an archiver that is content. -/
def Toolchain.emitting (names : List String) : Toolchain Unit where
  compile request files _ :=
    { result := .ok { success := true }
      files := names.foldl (fun files (name : String) =>
        (files.writeText (request.output / name) "").toOption.getD files) files
      tools := () }
  archive _ files _ := { result := .ok {}, files, tools := () }

/-- Two modules of one package, with identifiers that start alike. -/
def Graph.demo : Graph where
  modules := [{ identifier := "Main", package := some "demo" },
    { identifier := "MainToo", package := some "demo" }]
  entryIndex := some 0

/-- Their class files, with a gap in the numbers. -/
def FileTree.demo : FileTree where
  nodes := [(["job"], .directory), (["job", "bin"], .directory),
    (["job", "bin", "demo"], .directory)] ++
    ["Main.class", "Main$1.class", "Main$2.class", "Main$4.class", "Main$Node.class",
      "Main$Node$1.class", "Main$.class", "MainToo.class", "MainToo$1.class"].map
        fun name => (["job", "bin", "demo", name], .file (.bytes []))

/-- A world with a script that is in no package. -/
def World.plain : World Unit where
  files := { nodes := [(["tmp"], .directory), (["Main.jsc"], .file (.text "int x = 1;"))] }
  tools := ()

theorem Module.classEntries_listed_demo :
    (∀ m ∈ Graph.demo.modules.head?, ∃ inners : List String,
      m.classEntries .demo ⟨"job/bin"⟩ = m.classFile "" ::
        ([1, 2].map m.numberedClass ++ inners.map fun inner => m.classFile ("$" ++ inner)) ∧
      "Node" ∈ inners ∧ "Node$1" ∈ inners ∧ "4" ∉ inners) ∧
    (∃ w' : World Unit, ∃ made,
      Job.scratch.package (.emitting []) .demo ⟨.demo, (), []⟩ = (.ok [], w') ∧
      made ∈ archivings w'.log ∧ (made.request.entries.map Path.components).Nodup) ∧
    ∃ (result : Except Failure Outcome) (w' : World Unit) (made : Archiving),
      Session.bare.buildFile .bare ⟨"Main.jsc"⟩ (.emitting ["Main$1.class", "Main$X.class"]) false
        .plain = (result, w') ∧
      made ∈ archivings w'.log ∧ (made.request.entries.map Path.components).Nodup := by
  obtain ⟨modules, packages, sessions⟩ := classEntries_listed
  refine ⟨?_, ?_, ?_⟩
  · rintro m ⟨⟩
    obtain ⟨k, inners, entries, numbers, -, found, -⟩ :=
      modules .demo ⟨"job/bin"⟩ { identifier := "Main", package := some "demo" } (by decide)
    have two : 2 ≤ k := (numbers 2).1 fun i low high => by
      obtain rfl | rfl : i = 1 ∨ i = 2 := by omega
      · decide
      · decide
    have gap : ¬ 3 ≤ k := fun three =>
      absurd ((numbers 3).2 three 3 (by decide) (by decide)) (by decide)
    obtain rfl : k = 2 := by omega
    refine ⟨inners, entries, ?_, ?_, fun number => ?_⟩
    · exact (found "Node").2 ⟨by decide, ["job", "bin", "demo"], by decide⟩
    · exact (found "Node$1").2 ⟨by decide, ["job", "bin", "demo"], by decide⟩
    · exact absurd ((found "4").1 number).1 (by decide)
  · obtain ⟨⟨result, w'⟩, packed, isOk, orderly⟩ : ∃ b,
        Job.scratch.package (.emitting []) .demo ⟨.demo, (), []⟩ = b ∧
        b.1.toOption = some [] ∧ ∀ made ∈ archivings b.2.log, made.found.Orderly :=
      ⟨_, rfl, by decide +kernel⟩
    obtain rfl := toOption_eq_some.1 isOk
    obtain ⟨events, log, called, requests⟩ :=
      packages _ _ _ _ _ _ _ packed (by decide) (by decide)
    obtain rfl : w'.log = events := log
    obtain ⟨made, member⟩ := List.exists_mem_of_ne_nil _ fun none => nomatch called none
    exact ⟨w', made, packed, member, (requests made member).2 (orderly made member)⟩
  · obtain ⟨⟨loaded, warnings⟩, read, g, isGraph, free⟩ : ∃ a,
        Session.bare.loadGraph ⟨"Main.jsc"⟩ World.plain.files = a ∧
        ∃ g ∈ a.1.toOption, ∀ id ∈ g.identifiers, '$' ∉ id.toList := ⟨_, rfl, by decide +kernel⟩
    obtain rfl := toOption_eq_some.1 isGraph
    obtain ⟨⟨result, w'⟩, built, called, orderly⟩ : ∃ b,
        Session.bare.buildFile .bare ⟨"Main.jsc"⟩ (.emitting ["Main$1.class", "Main$X.class"])
          false .plain = b ∧
        archivings b.2.log ≠ [] ∧ ∀ made ∈ archivings b.2.log, made.found.Orderly :=
      ⟨_, rfl, by decide +kernel⟩
    obtain ⟨events, log, requests⟩ := sessions _ _ _ _ _ _ _ _ _ _ _ read free built
    obtain rfl : w'.log = events := log
    obtain ⟨made, member⟩ := List.exists_mem_of_ne_nil _ called
    exact ⟨result, w', made, built, member, requests made member (orderly made member)⟩

/-- A slash in an identifier leads to the file of another module. -/
theorem Job.archiveRequest_repeats :
    ∃ g : Graph, g.identifiers = ["b/A", "A"] ∧
      (Job.scratch.archiveRequest g {}).entries = [⟨"a/b/A.class"⟩, ⟨"a/b/A.class"⟩] :=
  ⟨{ modules := [{ identifier := "b/A", package := some "a" },
    { identifier := "A", package := some "a.b" }] }, by decide, by decide⟩

end ScriptJar

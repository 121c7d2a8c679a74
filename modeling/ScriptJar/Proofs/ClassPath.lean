import ScriptJar.Build.Package
import ScriptJar.Json.Basic
import ScriptJar.Proofs.Occurrences
import ScriptJar.Proofs.WholeSegments

/-! # The class path of a manifest

An archive runs against the libraries that its manifest lists.  They are listed as URLs, with
spaces between them: `%` and two hexadecimal digits stand for a byte.  A manifest is written
with `%20` for a space, but a `%` of a path stands in it as it is, and is taken for the
beginning of an escape when the list is read.

* `ClassPath.read` — the libraries that a manifest lists;
* `ClassPath.library?_manifestItem` — which paths are read back from their items;
* `ClassPath.map_manifestItem_eq_iff` — which paths have the same items;
* `manifestText_classPath` — the same for whole manifests.
-/

namespace ScriptJar

open Text

/-! ## Reading a class path -/

namespace ClassPath

/-- The bytes that an item stands for.  A `%` stands before two hexadecimal digits and nowhere
    else. -/
def bytes? : List Char → Option (List UInt8)
  | [] => some []
  | '%' :: high :: low :: rest =>
    match Json.hexDigit? high, Json.hexDigit? low with
    | some h, some l => (bytes? rest).map (UInt8.ofNat (16 * h + l) :: ·)
    | _, _ => none
  | c :: rest => if c = '%' then none else (bytes? rest).map (String.utf8EncodeChar c ++ ·)

/-- The library that an item names. -/
def library? (item : List Char) : Option Path :=
  match bytes? item with
  | none => none
  | some bytes => (String.fromUTF8? bytes.toByteArray).map Path.mk

/-- What a manifest has for its class path; a later line takes the place of one before. -/
def value? (manifest : String) : Option (List Char) :=
  (lines manifest.toList).reverse.findSome? (after? "Class-Path: ".toList)

/-- The items of a class path, with one or more spaces between them. -/
def items (value : List Char) : List (List Char) :=
  (splitOn ' ' value).filter (! ·.isEmpty)

/-- The libraries that a manifest lists, if they can be read. -/
def read (manifest : String) : Option (List Path) :=
  match value? manifest with
  | none => some []
  | some value => (items value).mapM library?

/-! ## Items -/

/-- A path in a manifest. -/
def written (s : List Char) : List Char :=
  s.flatMap fun c => if c = ' ' then "%20".toList else [c]

theorem toList_manifestItem (library : Path) :
    (manifestItem library).toList = written library.text.toList := by
  rw [manifestItem, replaceAllIn, String.toList_ofList]
  exact replaceAll_singleton ' ' _ _

theorem written_space (s : List Char) : written (' ' :: s) = '%' :: '2' :: '0' :: written s := rfl

theorem written_cons {c : Char} (other : c ≠ ' ') (s : List Char) :
    written (c :: s) = c :: written s := by
  rw [written, List.flatMap_cons, if_neg other]
  rfl

theorem of_written_eq_cons {c : Char} {s rest : List Char} (other : c ≠ '%')
    (first : written s = c :: rest) : ∃ s', s = c :: s' ∧ written s' = rest := by
  cases s with
  | nil => cases first
  | cons d s =>
    by_cases space : d = ' '
    · rw [space, written_space] at first
      exact absurd (List.cons.inj first).1 (Ne.symm other)
    · rw [written_cons space] at first
      obtain ⟨rfl, rest⟩ := List.cons.inj first
      exact ⟨s, rfl, rest⟩

theorem mem_written {c : Char} {s : List Char} (member : c ∈ written s) :
    c ∈ "%20".toList ∨ c ∈ s ∧ c ≠ ' ' := by
  obtain ⟨d, inside, from_⟩ := List.mem_flatMap.1 member
  split at from_
  · exact .inl from_
  · next other =>
    rw [List.mem_singleton] at from_
    subst from_
    exact .inr ⟨inside, other⟩

theorem space_notMem_written (s : List Char) : ' ' ∉ written s := by
  intro member
  rcases mem_written member with inside | ⟨-, other⟩
  · exact absurd inside (by decide)
  · exact other rfl

theorem written_ne_nil {s : List Char} (some : s ≠ []) : written s ≠ [] := by
  obtain ⟨c, s, rfl⟩ := List.exists_cons_of_ne_nil some
  by_cases space : c = ' '
  · simp [space, written_space]
  · simp [written_cons space]

/-! ## Reading an item -/

variable {s : List Char} {bytes : List UInt8}

theorem bytes?_cons {c : Char} (other : c ≠ '%') (rest : List Char) :
    bytes? (c :: rest) = (bytes? rest).map (String.utf8EncodeChar c ++ ·) := by
  rw [bytes?.eq_3, if_neg other]
  intro high low tail percent
  exact absurd percent other

theorem bytes?_written_cons {c : Char} (other : c ≠ '%') (s : List Char) :
    bytes? (written (c :: s)) = (bytes? (written s)).map (String.utf8EncodeChar c ++ ·) := by
  by_cases space : c = ' '
  · subst space
    rfl
  · rw [written_cons space, bytes?_cons other]

theorem ascii_of_hexDigit? {c : Char} (digit : (Json.hexDigit? c).isSome = true) :
    c ≠ '%' ∧ (String.utf8EncodeChar c).length = 1 := by
  constructor
  · rintro rfl
    exact absurd digit (by decide)
  · have small : c ≤ 'f' := by
      unfold Json.hexDigit? at digit
      split at digit
      · next range => exact Char.le_trans range.2 (by decide)
      · split at digit
        · next range => exact range.2
        · split at digit
          · next range => exact Char.le_trans range.2 (by decide)
          · cases digit
    rw [String.length_utf8EncodeChar, Char.utf8Size_eq_one_iff]
    exact UInt32.le_trans small (by decide)

/-- An escape names one byte. -/
theorem bytes?_percent {rest : List Char} (read : bytes? ('%' :: rest) = some bytes) :
    ∃ high low tail byte bytes', rest = high :: low :: tail ∧
      (Json.hexDigit? high).isSome = true ∧ (Json.hexDigit? low).isSome = true ∧
      bytes? tail = some bytes' ∧ bytes = byte :: bytes' := by
  match rest with
  | [] => simp [bytes?] at read
  | [_] => simp [bytes?] at read
  | high :: low :: tail =>
    rw [bytes?] at read
    split at read
    · next h l first second =>
      obtain ⟨bytes', others, rfl⟩ := Option.map_eq_some_iff.1 read
      exact ⟨high, low, tail, _, bytes', rfl, by simp [first], by simp [second], others, rfl⟩
    · cases read

theorem bytes?_written (plain : '%' ∉ s) :
    bytes? (written s) = some (s.flatMap String.utf8EncodeChar) := by
  induction s with
  | nil => rfl
  | cons c s ih =>
    rw [List.mem_cons, not_or] at plain
    rw [bytes?_written_cons (Ne.symm plain.1), ih plain.2, List.flatMap_cons]
    rfl

/-- Every `%` of a path costs the two characters after it. -/
theorem length_of_bytes?_written {s : List Char} {bytes : List UInt8}
    (read : bytes? (written s) = some bytes) :
    bytes.length + 2 * s.count '%' = (s.flatMap String.utf8EncodeChar).length := by
  match s with
  | [] =>
    cases read
    rfl
  | c :: s =>
    rw [List.flatMap_cons, List.length_append]
    by_cases percent : c = '%'
    · subst percent
      rw [written_cons (by decide)] at read
      obtain ⟨high, low, tail, byte, bytes', item, first, second, others, rfl⟩ :=
        bytes?_percent read
      have first := ascii_of_hexDigit? first
      have second := ascii_of_hexDigit? second
      -- neither digit comes from a space, so both are characters of the path
      obtain ⟨s, rfl, next⟩ := of_written_eq_cons first.1 item
      obtain ⟨s, rfl, rfl⟩ := of_written_eq_cons second.1 next
      have rest := length_of_bytes?_written others
      have one : (String.utf8EncodeChar '%').length = 1 := rfl
      simp only [List.flatMap_cons, List.length_append, List.length_cons, List.count_cons_self,
        List.count_cons_of_ne first.1, List.count_cons_of_ne second.1, first.2, second.2, one]
      omega
    · rw [bytes?_written_cons percent] at read
      obtain ⟨bytes', others, rfl⟩ := Option.map_eq_some_iff.1 read
      have rest := length_of_bytes?_written others
      rw [List.count_cons_of_ne percent, List.length_append]
      omega
termination_by s.length

theorem fromUTF8?_eq_some {bytes : ByteArray} {s : String} :
    String.fromUTF8? bytes = some s ↔ s.toByteArray = bytes := by
  unfold String.fromUTF8?
  constructor
  · intro decoded
    by_cases valid : bytes.IsValidUTF8
    · rw [dif_pos valid] at decoded
      cases decoded
      rfl
    · rw [dif_neg valid] at decoded
      cases decoded
  · rintro rfl
    rw [dif_pos s.isValidUTF8]
    rfl

/-- A path is read back from its item if it has no `%`, and only then. -/
theorem library?_manifestItem (library : Path) :
    library? (manifestItem library).toList = some library ↔ '%' ∉ library.text.toList := by
  have encoded : library.text.toByteArray =
      (library.text.toList.flatMap String.utf8EncodeChar).toByteArray := by
    rw [← String.ofList_toList (s := library.text), String.toByteArray_ofList,
      String.toList_ofList]
    rfl
  rw [toList_manifestItem, library?]
  constructor
  · intro read
    cases decoded : bytes? (written library.text.toList) with
    | none => simp [decoded] at read
    | some bytes =>
      rw [decoded] at read
      obtain ⟨text, back, rfl⟩ := Option.map_eq_some_iff.1 read
      rw [fromUTF8?_eq_some, encoded, List.toByteArray_inj] at back
      have lengths := length_of_bytes?_written decoded
      rw [back] at lengths
      rw [← List.count_eq_zero]
      omega
  · intro plain
    rw [bytes?_written plain]
    exact Option.map_eq_some_iff.2 ⟨_, fromUTF8?_eq_some.2 encoded, rfl⟩

/-! ## Paths with the same item -/

/-- A path with a space wherever it has `%20`. -/
def spaced (s : List Char) : List Char :=
  replaceAll "%20".toList [' '] s

theorem written_spaced (s : List Char) : written (spaced s) = written s := by
  have some : "%20".toList ≠ [] := by decide
  induction s using occurrences_induction some with
  | nil => rfl
  | found rest ih =>
    rw [spaced, replaceAll_append some]
    exact (written_space _).trans (congrArg ("%20".toList ++ ·) ih)
  | other c rest other ih =>
    rw [spaced, replaceAll_cons other, written, List.flatMap_cons, written, List.flatMap_cons]
    exact congrArg (_ ++ ·) ih

theorem spaced_written (s : List Char) : spaced (written s) = spaced s := by
  have some : "%20".toList ≠ [] := by decide
  induction s using occurrences_induction some with
  | nil => rfl
  | found rest ih =>
    have kept : written ("%20".toList ++ rest) = "%20".toList ++ written rest := rfl
    rw [kept, spaced, spaced, replaceAll_append some, replaceAll_append some]
    exact congrArg (' ' :: ·) ih
  | other c rest other ih =>
    by_cases space : c = ' '
    · subst space
      rw [written_space, spaced, spaced, replaceAll_cons other]
      exact (replaceAll_append some [' '] _).trans (congrArg (' ' :: ·) ih)
    · have still : ¬ "%20".toList <+: c :: written rest := by
        rintro ⟨tail, escape⟩
        obtain ⟨rfl, digits⟩ := List.cons.inj escape
        obtain ⟨s, rfl, next⟩ := of_written_eq_cons (by decide) digits.symm
        obtain ⟨s, rfl, -⟩ := of_written_eq_cons (by decide) next
        exact other ⟨s, rfl⟩
      rw [written_cons space, spaced, spaced, replaceAll_cons other, replaceAll_cons still]
      exact congrArg (c :: ·) ih

theorem toList_replaceAllIn_spaced (s : String) :
    (replaceAllIn "%20" " " s).toList = spaced s.toList :=
  String.toList_ofList

theorem manifestItem_spaced (library : Path) :
    manifestItem ⟨replaceAllIn "%20" " " library.text⟩ = manifestItem library := by
  rw [← String.toList_inj, toList_manifestItem, toList_manifestItem, toList_replaceAllIn_spaced,
    written_spaced]

theorem spaced_manifestItem (library : Path) :
    replaceAllIn "%20" " " (manifestItem library) = replaceAllIn "%20" " " library.text := by
  rw [← String.toList_inj, toList_replaceAllIn_spaced, toList_replaceAllIn_spaced,
    toList_manifestItem, spaced_written]

/-- Libraries have the same items if they differ only in having `%20` or a space. -/
theorem map_manifestItem_eq_iff {libraries libraries' : List Path} :
    libraries.map manifestItem = libraries'.map manifestItem ↔
      libraries.map (fun library => replaceAllIn "%20" " " library.text) =
        libraries'.map fun library => replaceAllIn "%20" " " library.text := by
  have items (ps : List Path) : ps.map manifestItem =
      (ps.map fun library => replaceAllIn "%20" " " library.text).map
        fun s => manifestItem ⟨s⟩ := by
    rw [List.map_map]
    exact List.map_congr_left fun library _ => (manifestItem_spaced library).symm
  have spaces (ps : List Path) : (ps.map fun library => replaceAllIn "%20" " " library.text) =
      (ps.map manifestItem).map (replaceAllIn "%20" " ") := by
    rw [List.map_map]
    exact List.map_congr_left fun library _ => (spaced_manifestItem library).symm
  constructor
  · intro same
    rw [spaces, same, ← spaces]
  · intro same
    rw [items, same, ← items]

/-! ## Whole manifests -/

/-- Libraries that a manifest can list: at least one, and each on one line. -/
structure Listable (libraries : List Path) : Prop where
  some : libraries ≠ []
  named : ∀ library ∈ libraries, library.text ≠ ""
  single : ∀ library ∈ libraries, '\n' ∉ library.text.toList ∧ '\r' ∉ library.text.toList

instance (libraries : List Path) : Decidable (Listable libraries) :=
  decidable_of_iff (libraries ≠ [] ∧ (∀ library ∈ libraries, library.text ≠ "") ∧
      ∀ library ∈ libraries, '\n' ∉ library.text.toList ∧ '\r' ∉ library.text.toList)
    ⟨fun h => ⟨h.1, h.2.1, h.2.2⟩, fun h => ⟨h.some, h.named, h.single⟩⟩

variable {libraries : List Path}

/-- The class path of libraries, as a manifest has it. -/
def listing (libraries : List Path) : List Char :=
  Pattern.joined ' ' (libraries.map manifestItem)

theorem toList_manifestText (mainClass : String) (some : libraries ≠ []) :
    (manifestText mainClass libraries).toList =
      ("Main-Class: ".toList ++ mainClass.toList) ++
        '\n' :: (("Class-Path: ".toList ++ listing libraries) ++ ['\n']) := by
  have nonempty : libraries.isEmpty = false := by simpa using some
  have text : manifestText mainClass libraries = "Main-Class: " ++ mainClass ++ "\n" ++
      ("Class-Path: " ++ " ".intercalate (libraries.map manifestItem) ++ "\n") := by
    rw [manifestText, nonempty]
    rfl
  have value : (" ".intercalate (libraries.map manifestItem)).toList = listing libraries :=
    String.toList_intercalate
  rw [text, String.toList_append, String.toList_append, String.toList_append, String.toList_append,
    String.toList_append, value, List.append_assoc]
  rfl

theorem notMem_listing {c : Char} (other : c ∉ " %20".toList)
    (free : ∀ library ∈ libraries, c ∉ library.text.toList) : c ∉ listing libraries := by
  intro member
  rcases Pattern.mem_joined member with rfl | ⟨item, listed, inside⟩
  · exact other List.mem_cons_self
  · obtain ⟨library, known, rfl⟩ := List.mem_map.1 listed
    rw [toList_manifestItem] at inside
    rcases mem_written inside with escape | ⟨own, -⟩
    · exact other (List.mem_cons_of_mem _ escape)
    · exact free library known own

theorem value?_manifestText (mainClass : String) (listable : Listable libraries) :
    value? (manifestText mainClass libraries) = some (listing libraries) := by
  have newline : '\n' ∉ listing libraries :=
    notMem_listing (by decide) fun library known => (listable.single library known).1
  have return_ : '\r' ∉ listing libraries :=
    notMem_listing (by decide) fun library known => (listable.single library known).2
  have plain : '\n' ∉ "Class-Path: ".toList ++ listing libraries ∧
      '\r' ∉ "Class-Path: ".toList ++ listing libraries := by
    simp only [List.mem_append, not_or]
    exact ⟨⟨by decide, newline⟩, by decide, return_⟩
  rw [value?, toList_manifestText mainClass listable.some, lines_append_newline,
    lines_single plain, List.reverse_append, List.reverse_singleton, List.singleton_append,
    List.findSome?_cons, after?_eq_some.2 rfl]

theorem splitOn_joined {sep : Char} {segments : List String} (some : segments ≠ [])
    (free : ∀ s ∈ segments, sep ∉ s.toList) :
    splitOn sep (Pattern.joined sep segments) = segments.map String.toList := by
  induction segments with
  | nil => exact absurd rfl some
  | cons s segments ih =>
    rw [List.forall_mem_cons] at free
    cases segments with
    | nil => rw [Pattern.joined_singleton, splitOn_of_notMem free.1, List.map_singleton]
    | cons s' segments =>
      rw [Pattern.joined_cons_cons, splitOn_append_cons, splitOn_of_notMem free.1,
        ih (List.cons_ne_nil _ _) free.2]
      rfl

theorem items_listing (listable : Listable libraries) :
    items (listing libraries) = (libraries.map manifestItem).map String.toList := by
  have free : ∀ item ∈ libraries.map manifestItem, ' ' ∉ item.toList := by
    intro item listed
    obtain ⟨library, -, rfl⟩ := List.mem_map.1 listed
    rw [toList_manifestItem]
    exact space_notMem_written _
  rw [items, listing, splitOn_joined (by simpa using listable.some) free, List.filter_eq_self]
  intro item listed
  rw [List.map_map] at listed
  obtain ⟨library, known, rfl⟩ := List.mem_map.1 listed
  have nonempty := written_ne_nil (mt String.toList_eq_nil_iff.1 (listable.named library known))
  simpa [toList_manifestItem] using nonempty

theorem mapM_library? (libraries : List Path) :
    ((libraries.map manifestItem).map String.toList).mapM library? = some libraries ↔
      ∀ library ∈ libraries, '%' ∉ library.text.toList := by
  induction libraries with
  | nil => simp
  | cons library libraries ih =>
    rw [List.forall_mem_cons, ← ih, ← library?_manifestItem, List.map_cons, List.map_cons,
      List.mapM_cons]
    cases library? (manifestItem library).toList with
    | none => simp
    | some first =>
      cases ((libraries.map manifestItem).map String.toList).mapM library? with
      | none => simp
      | some others => simp

theorem read_manifestText (mainClass : String) (listable : Listable libraries) :
    read (manifestText mainClass libraries) = some libraries ↔
      ∀ library ∈ libraries, '%' ∉ library.text.toList := by
  rw [← mapM_library?, ← items_listing listable, read, value?_manifestText mainClass listable]

theorem manifestText_eq_iff {mainClass mainClass' : String} {libraries' : List Path}
    (listable : Listable libraries) (listable' : Listable libraries') :
    manifestText mainClass libraries = manifestText mainClass' libraries' ↔
      mainClass = mainClass' ∧ libraries.map manifestItem = libraries'.map manifestItem := by
  constructor
  · intro same
    have values : listing libraries = listing libraries' := by
      have read := value?_manifestText mainClass listable
      rw [same, value?_manifestText mainClass' listable'] at read
      exact (Option.some.inj read).symm
    have items := congrArg items values
    rw [items_listing listable, items_listing listable'] at items
    have texts := congrArg String.toList same
    rw [toList_manifestText _ listable.some, toList_manifestText _ listable'.some, values] at texts
    have front := List.append_cancel_left (List.append_cancel_right texts)
    have injective : Function.Injective String.toList := fun _ _ => String.toList_inj.1
    exact ⟨String.toList_inj.1 front, List.map_injective_iff.2 injective items⟩
  · rintro ⟨rfl, items⟩
    rw [← String.toList_inj, toList_manifestText _ listable.some,
      toList_manifestText _ listable'.some, listing, listing, items]

end ClassPath

/-- The libraries are read back from a manifest if no path has a `%`, and only then.  Two
    manifests are the same if they are for the same class and for libraries that differ only in
    having `%20` or a space. -/
theorem manifestText_classPath (mainClass : String) {libraries : List Path}
    (listable : ClassPath.Listable libraries) :
    (ClassPath.read (manifestText mainClass libraries) = some libraries ↔
        ∀ library ∈ libraries, '%' ∉ library.text.toList) ∧
      ∀ (mainClass' : String) (libraries' : List Path), ClassPath.Listable libraries' →
        (manifestText mainClass libraries = manifestText mainClass' libraries' ↔
          mainClass = mainClass' ∧
            libraries.map (fun library => replaceAllIn "%20" " " library.text) =
              libraries'.map fun library => replaceAllIn "%20" " " library.text) := by
  refine ⟨ClassPath.read_manifestText mainClass listable, fun mainClass' libraries' listable' => ?_⟩
  rw [ClassPath.manifestText_eq_iff listable listable', ClassPath.map_manifestItem_eq_iff]

theorem manifestText_classPath_spaced :
    ClassPath.read "Main-Class: demo.Main\nClass-Path: /opt/rt.jar /home/me/my%20libs/ä.jar\n" =
        some [⟨"/opt/rt.jar"⟩, ⟨"/home/me/my libs/ä.jar"⟩] ∧
      manifestText "demo.Main" [⟨"/opt/rt.jar"⟩, ⟨"/home/me/my libs/ä.jar"⟩] ≠
        manifestText "demo.Main" [⟨"/opt/rt.jar /home/me/my libs/ä.jar"⟩] := by
  have two : ClassPath.Listable [⟨"/opt/rt.jar"⟩, ⟨"/home/me/my libs/ä.jar"⟩] := by decide
  have one : ClassPath.Listable [⟨"/opt/rt.jar /home/me/my libs/ä.jar"⟩] := by decide
  have facts := manifestText_classPath "demo.Main" two
  refine ⟨facts.1.2 (by decide), fun same => ?_⟩
  exact absurd ((facts.2 "demo.Main" _ one).1 same).2 (by decide)

/-- A `%` that stands in a path is read as an escape. -/
theorem manifestText_ambiguous :
    ClassPath.Listable [⟨"my libs/a.jar"⟩] ∧ ClassPath.Listable [⟨"my%20libs/a.jar"⟩] ∧
      manifestText "Main" [⟨"my libs/a.jar"⟩] = manifestText "Main" [⟨"my%20libs/a.jar"⟩] ∧
      ClassPath.read (manifestText "Main" [⟨"my%20libs/a.jar"⟩]) = some [⟨"my libs/a.jar"⟩] := by
  have listable : ClassPath.Listable [⟨"my libs/a.jar"⟩] := by decide
  have same : manifestText "Main" [⟨"my libs/a.jar"⟩] =
      manifestText "Main" [⟨"my%20libs/a.jar"⟩] := by
    decide
  refine ⟨listable, by decide, same, ?_⟩
  rw [← same, ClassPath.read_manifestText "Main" listable]
  decide

end ScriptJar

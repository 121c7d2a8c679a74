import ScriptJar.Proofs.Precedence
import ScriptJar.Proofs.SettingsFile

/-! # Fields of a settings file

A settings file that an older or a newer version wrote lacks some fields and has others that
are not known here.  It is read all the same: a field that is there has the value the file
gives it, a field that is missing has its default, and everything else is passed over.

* `Settings.Field.Admits` — the values of a field's type;
* `Settings.Takes` — that a field has a value;
* `Settings.set?_spec` — what setting one field does;
* `Settings.ofMembers?_spec` — the members of an object, in any order;
* `Settings.loadOrInit_fields` — the file.
-/

namespace ScriptJar

/-- A table of texts as it is written, with every key as often as it occurs. -/
def Json.ofEntries (entries : List (String × String)) : Json :=
  .object (entries.map fun e => (some e.1, .string (some e.2)))

theorem Json.ofEntries_injective : Function.Injective Json.ofEntries := by
  have each : Function.Injective fun e : String × String =>
      ((some e.1, .string (some e.2)) : Option String × Json) := by
    intro e e' same
    simp only [Prod.mk.injEq, Option.some.injEq, Json.string.injEq] at same
    exact Prod.ext same.1 same.2
  intro entries entries' same
  exact List.map_injective_iff.2 each (Json.object.inj same)

namespace Settings

/-! ## Values of fields -/

/-- The values of a field's type: texts, a table of texts, and a whole number of 64 binary
    digits. -/
def Field.Admits : Field → Json → Prop
  | .toolchainRoot, v | .libraryDirectory, v | .archiveName, v => ∃ text, v = .string (some text)
  | .substitutions, v => ∃ entries, v = .ofEntries entries
  | .compileTimeout, v => ∃ n < Text.wordBound, v = .number (Nat.toDigits 10 n)

/-- The settings have the value of a field that is written in the file.  The keys of a table are
    in the order of the file, and of a repeated key the last value counts. -/
def Takes (s : Settings) : Field → Json → Prop
  | .toolchainRoot, v => v = .string (some s.toolchainRoot.text)
  | .libraryDirectory, v => v = .string (some s.libraryDirectory)
  | .substitutions, v => ∃ entries, v = .ofEntries entries ∧
    FirstOccurrences s.substitutions.keys (entries.map Prod.fst) ∧
    ∀ key, s.substitutions.get? key = entries.reverse.lookup key
  | .compileTimeout, v => v = .number (Nat.toDigits 10 s.compileTimeout.toNat)
  | .archiveName, v => v = .string (some s.archiveName)

/-- Two settings do not differ in a field. -/
def AgreesOn (s s' : Settings) : Field → Prop
  | .toolchainRoot => s.toolchainRoot = s'.toolchainRoot
  | .libraryDirectory => s.libraryDirectory = s'.libraryDirectory
  | .substitutions => s.substitutions = s'.substitutions
  | .compileTimeout => s.compileTimeout = s'.compileTimeout
  | .archiveName => s.archiveName = s'.archiveName

variable {s s' s₀ : Settings} {f : Field} {v : Json} {name : String}

theorem AgreesOn.rfl : AgreesOn s s f := by
  cases f <;> exact Eq.refl _

theorem AgreesOn.trans {s'' : Settings} (first : AgreesOn s s' f) (second : AgreesOn s' s'' f) :
    AgreesOn s s'' f := by
  cases f <;> exact Eq.trans first second

theorem AgreesOn.takes (same : AgreesOn s s' f) (takes : s'.Takes f v) : s.Takes f v := by
  cases f <;> (simp only [AgreesOn] at same; simpa only [Takes, same] using takes)

/-! ## Setting fields -/

theorem Field.ofName?_eq_some : Field.ofName? name = some f ↔ f.name = name := by
  constructor
  · intro found
    simpa using List.find?_some found
  · rintro rfl
    exact ofName?_name f

/-- A table that is read entry by entry. -/
theorem takes_ofList (s : Settings) (entries : List (String × String)) :
    Takes { s with substitutions := .ofList entries } .substitutions (.ofEntries entries) := by
  refine ⟨entries, rfl, ?_, fun key => ?_⟩
  · exact Substitutions.firstOccurrences_insertAll entries (t := {}) (.of_nodup List.nodup_nil)
  · have last := Substitutions.get?_insertAll {} entries key
    rwa [show Substitutions.get? {} key = none from rfl, Option.or_none] at last

/-- A value of a field's type sets that field, and no other. -/
theorem set?_spec (s : Settings) (admits : f.Admits v) :
    ∃ s', s.set? f v = some s' ∧ s'.Takes f v ∧ ∀ f' ≠ f, s'.AgreesOn s f' := by
  cases f with
  | toolchainRoot | libraryDirectory | archiveName =>
    obtain ⟨text, rfl⟩ := admits
    refine ⟨_, rfl, rfl, fun f' other => ?_⟩
    cases f' <;> simp_all [AgreesOn]
  | substitutions =>
    obtain ⟨entries, rfl⟩ := admits
    refine ⟨_, ?_, takes_ofList s entries, fun f' other => ?_⟩
    · simp [set?, Json.ofEntries, Json.table?_entries]
    · cases f' <;> simp_all [AgreesOn]
  | compileTimeout =>
    obtain ⟨n, fits, rfl⟩ := admits
    refine ⟨{ s with compileTimeout := UInt64.ofNat n }, ?_, ?_, fun f' other => ?_⟩
    · simp [set?, Json.word?, Text.numeralBelow?_toDigits fits]
    · have value : (UInt64.ofNat n).toNat = n := UInt64.toNat_ofNat_of_lt' fits
      simp only [Takes, value]
    · cases f' <;> simp_all [AgreesOn]

/-! ## Members -/

/-- An object that can be read as settings: every name is a text, no known field occurs twice,
    and each that occurs has a value of its type. -/
structure Readable (members : List (Option String × Json)) : Prop where
  named : ∀ m ∈ members, m.1.isSome = true
  once : ∀ f : Field, (members.map Prod.fst).count (some f.name) ≤ 1
  typed : ∀ (f : Field) (v : Json), (some f.name, v) ∈ members → f.Admits v

theorem Readable.tail {m : Option String × Json} {members : List (Option String × Json)}
    (h : Readable (m :: members)) : Readable members where
  named x inside := h.named x (List.mem_cons_of_mem m inside)
  once f := by
    have once := h.once f
    rw [List.map_cons] at once
    exact Nat.le_trans List.count_le_count_cons once
  typed f v inside := h.typed f v (List.mem_cons_of_mem m inside)

/-- A field has the value that the members give it, or else the one it had before. -/
def Reflects (s s₀ : Settings) (members : List (Option String × Json)) (f : Field) : Prop :=
  (∀ v, (some f.name, v) ∈ members → s.Takes f v) ∧
    ((∀ v, (some f.name, v) ∉ members) → s.AgreesOn s₀ f)

theorem ofMembers?_spec (given : List Field) (s₀ : Settings)
    {members : List (Option String × Json)} (readable : Readable members)
    (fresh : ∀ f ∈ given, ∀ v, (some f.name, v) ∉ members) :
    ∃ s, ofMembers? given s₀ members = some s ∧ ∀ f, Reflects s s₀ members f := by
  induction members generalizing given s₀ with
  | nil => exact ⟨s₀, rfl, fun f => ⟨by simp, fun _ => .rfl⟩⟩
  | cons m members ih =>
    obtain ⟨key, value⟩ := m
    obtain ⟨name, rfl⟩ := Option.isSome_iff_exists.1 (readable.named _ List.mem_cons_self)
    cases field : Field.ofName? name with
    | none =>
      -- no field has this name, so the member is passed over
      have other (f : Field) : f.name ≠ name := fun same => by
        rw [Field.ofName?_eq_some.2 same] at field
        cases field
      obtain ⟨s, read, reflects⟩ := ih given s₀ readable.tail
        fun f old v inside => fresh f old v (List.mem_cons_of_mem _ inside)
      refine ⟨s, by simpa [ofMembers?, field] using read, fun f => ?_⟩
      simpa [Reflects, other f] using reflects f
    | some f =>
      obtain rfl := Field.ofName?_eq_some.1 field
      have new : f ∉ given := fun old => fresh f old value List.mem_cons_self
      obtain ⟨s₁, set, takes, others⟩ :=
        set?_spec s₀ (readable.typed f value List.mem_cons_self)
      -- the name of this field does not come again
      have last (v : Json) : (some f.name, v) ∉ members := by
        intro inside
        have once := readable.once f
        rw [List.map_cons, List.count_cons_self] at once
        have again : 0 < (members.map Prod.fst).count (some f.name) :=
          List.count_pos_iff.2 (List.mem_map_of_mem inside)
        omega
      obtain ⟨s, read, reflects⟩ := ih (f :: given) s₁ readable.tail fun f' old v => by
        rcases List.mem_cons.1 old with rfl | old
        · exact last v
        · exact fun inside => fresh f' old v (List.mem_cons_of_mem _ inside)
      refine ⟨s, by simpa [ofMembers?, field, new, set] using read, fun f' => ?_⟩
      obtain ⟨given', kept⟩ := reflects f'
      by_cases same : f' = f
      · subst same
        refine ⟨fun v inside => ?_, fun absent => absurd List.mem_cons_self (absent value)⟩
        rcases List.mem_cons.1 inside with here | later
        · cases here
          exact (kept last).takes takes
        · exact absurd later (last v)
      · have differ : f'.name ≠ f.name := fun equal => same (by
          have found := ofName?_name f'
          rw [equal, ofName?_name] at found
          exact (Option.some.inj found).symm)
        refine ⟨fun v inside => given' v ?_, fun absent => ?_⟩
        · simpa [differ] using inside
        · exact (kept fun v inside => absent v (List.mem_cons_of_mem _ inside)).trans
            (others f' same)

/-! ## The file -/

/-- A file that holds a JSON object with any blanks is read as settings, if every name in the
    object is a text, no known field occurs twice, and each that occurs has a value of its type.
    Fields that are there have the given values, those that are missing have their defaults, and
    members of other names count for nothing, whatever their values. -/
theorem loadOrInit_fields {p : Path} {files : FileTree} {before body after : List Char}
    {members : List (Option String × Json)}
    (there : files.readText p = .ok (String.ofList (before ++ (body ++ after))))
    (blanks : Json.Blanks before ∧ Json.Blanks after) (spelled : Json.Spells body (.object members))
    (readable : Readable members) :
    ∃ s, loadOrInit p files = (.ok s, files) ∧ ∀ f, Reflects s {} members f := by
  obtain ⟨s, read, reflects⟩ := ofMembers?_spec [] {} readable (by simp)
  refine ⟨s, ?_, reflects⟩
  have parsed : parse? (String.ofList (before ++ (body ++ after))) = some s := by
    rw [parse?, String.toList_ofList, Json.read_of_spells blanks.1 spelled blanks.2]
    exact read
  rw [loadOrInit, if_pos (contains_of_readText there), load, there]
  simp only [parsed]

/-- The text of a table with a repeated key, on lines of its own. -/
def repeatedKey : List (String × String × Json) :=
  [("#b", "B"), ("#a", "A"), ("#b", "C")].map fun e : String × String =>
    (e.1, Json.quote e.2, .string (some e.2))

/-- An object as it is written member by member, with the texts of its values. -/
def objectText (indent closing : String) (members : List (String × String × Json)) : String :=
  "\x7b\n" ++ ",\n".intercalate (members.map fun m => Json.memberLine indent m.1 m.2.1)
    ++ (closing ++ "\x7d")

/-- Members as a newer version might write them: a field that is not known, whose value holds
    half of a surrogate pair, and known ones out of order. -/
def newerMembers : List (String × String × Json) :=
  [("themes", "[\"\\ud800\" , -0.5e+3]", .array [.string none, .number "-0.5e+3".toList]),
    ("archive_name", Json.quote "out.jar", .string (some "out.jar")),
    ("global_macros", objectText "\t" "" repeatedKey,
      .ofEntries [("#b", "B"), ("#a", "A"), ("#b", "C")])]

theorem spells_themes : Json.Spells "[\"\\ud800\" , -0.5e+3]".toList
    (.array [.string none, .number "-0.5e+3".toList]) := by
  have half : Json.Spells ('"' :: (['\\', 'u', 'd', '8', '0', '0'] ++ ['"'])) (.string none) :=
    Json.Spells.string (.unit (n := 0xD800) rfl .nil)
  have number : Json.SpellsNumber ('-' :: (['0'] ++ (['.', '5'] ++ ['e', '+', '3']))) := by
    refine .negative ⟨⟨by simp, by simp⟩, fun _ => rfl⟩ (.inr ⟨['5'], ⟨by simp, by simp⟩, rfl⟩) ?_
    exact .inr ⟨'e', ['+'], ['3'], .inl rfl, .inr (.inl rfl), ⟨by simp, by simp⟩, rfl⟩
  have last := Json.SpellsItems.last (show Json.Blanks [' '] by decide) (.number number)
    (show Json.Blanks [] by decide)
  exact .array (.more (show Json.Blanks [] by decide) half (show Json.Blanks [' '] by decide) last)

theorem spells_newerMembers : ∀ m ∈ newerMembers, Json.Spells m.2.1.toList m.2.2 := by
  intro m member
  simp only [newerMembers, List.mem_cons, List.not_mem_nil, or_false] at member
  rcases member with rfl | rfl | rfl
  · exact spells_themes
  · exact Json.spells_quote "out.jar"
  · have object := Json.spells_object (show Json.Blanks "\t".toList by decide)
      (show Json.Blanks "".toList by decide) (show repeatedKey ≠ [] by simp [repeatedKey]) (by
        intro m inside
        obtain ⟨e, -, rfl⟩ := List.mem_map.1 inside
        exact Json.spells_quote e.2)
    exact object

/-- A file with these members. -/
def newerFiles : FileTree where
  nodes := [(["settings.json"],
    .file (.text (String.ofList ("\r\n".toList ++
      ((objectText " " "\n" newerMembers).toList ++ ['\n'])))))]

theorem readable_newer : Readable (newerMembers.map fun m => (some m.1, m.2.2)) := by
  refine ⟨by simp [newerMembers], fun f => ?_, fun f v member => ?_⟩
  · cases f <;> decide
  · simp only [newerMembers, List.map_cons, List.map_nil, List.mem_cons, Prod.mk.injEq,
      Option.some.injEq, List.not_mem_nil, or_false] at member
    rcases member with ⟨name, -⟩ | ⟨name, rfl⟩ | ⟨name, rfl⟩
    · cases f <;> exact absurd name (by decide)
    · have field : Field.ofName? "archive_name" = some .archiveName := by decide
      obtain rfl := Option.some.inj (field.symm.trans (Field.ofName?_eq_some.2 name))
      exact ⟨"out.jar", rfl⟩
    · have field : Field.ofName? "global_macros" = some .substitutions := by decide
      obtain rfl := Option.some.inj (field.symm.trans (Field.ofName?_eq_some.2 name))
      exact ⟨_, rfl⟩

theorem loadOrInit_fields_newer :
    ∃ s, loadOrInit ⟨"settings.json"⟩ newerFiles = (.ok s, newerFiles) ∧
      s.archiveName = "out.jar" ∧ s.substitutions.get? "#b" = some "C" ∧
      s.substitutions.get? "#a" = some "A" ∧ s.substitutions.get? "#print" = none ∧
      s.libraryDirectory = "$home/.jrt-libs" ∧ s.compileTimeout = 120 := by
  have there : newerFiles.readText ⟨"settings.json"⟩ = .ok (String.ofList ("\r\n".toList ++
      ((objectText " " "\n" newerMembers).toList ++ ['\n']))) := by
    refine FileTree.readText_eq_ok.2 ⟨["settings.json"], ?_, rfl⟩
    rfl
  have spelled := Json.spells_object (show Json.Blanks " ".toList by decide)
    (show Json.Blanks "\n".toList by decide) (show newerMembers ≠ [] by simp [newerMembers])
    spells_newerMembers
  obtain ⟨s, loaded, reflects⟩ :=
    loadOrInit_fields there (by decide) spelled readable_newer
  have archive := (reflects .archiveName).1 (.string (some "out.jar"))
    (by simp [newerMembers, Field.name])
  obtain ⟨entries, written, -, values⟩ := (reflects .substitutions).1
    (.ofEntries [("#b", "B"), ("#a", "A"), ("#b", "C")]) (by simp [newerMembers, Field.name])
  obtain rfl := Json.ofEntries_injective written
  refine ⟨s, loaded, ?_, values "#b", values "#a", values "#print", ?_, ?_⟩
  · simpa [Takes] using archive.symm
  · exact (reflects .libraryDirectory).2 (by simp [newerMembers, Field.name])
  · exact (reflects .compileTimeout).2 (by simp [newerMembers, Field.name])

/-- A member whose name is half of a surrogate pair.  Its name is not that of a field, but it is
    no text either, and the file is refused. -/
theorem loadOrInit_refuses_name :
    let body := "\x7b\"\\ud800\":1\x7d".toList
    let files : FileTree := { nodes := [(["settings.json"], .file (.text (String.ofList body)))] }
    files.readText ⟨"settings.json"⟩ = .ok (String.ofList body) ∧
      (∃ members, Json.Spells body (.object members) ∧
        (∀ f : Field, some f.name ∉ members.map Prod.fst)) ∧
      (loadOrInit ⟨"settings.json"⟩ files).1.toBool = false := by
  intro body files
  refine ⟨FileTree.readText_eq_ok.2 ⟨["settings.json"], rfl, rfl⟩,
    ⟨[(none, .number ['1'])], ?_, by simp⟩, by decide +kernel⟩
  have none : Json.Blanks [] := by decide
  have name : Json.SpellsPieces ['\\', 'u', 'd', '8', '0', '0'] [.unit 0xD800] := .unit rfl .nil
  have one : Json.SpellsNumber (['1'] ++ ([] ++ [])) :=
    .positive ⟨⟨by simp, by simp⟩, by simp⟩ (.inl rfl) (.inl rfl)
  exact .object (.last none (.intro name none none (.number one)) none)

end Settings

end ScriptJar

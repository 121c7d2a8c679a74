import ScriptJar.Directive.Header
import ScriptJar.Proofs.TextFacts

/-! # Headers as they are written

`Header.print` writes a header, and `Header.parse_print` says that it is read back.
The types in it may hold type arguments, so commas and blanks separate only outside
angle brackets.  What that means is said by counting (`Balanced`, `NoneOutside`);
the functions that read a header go from the left and keep a depth, and `Closes` is
the same in their terms.

* `closes_of_balanced` — from counts to depths;
* `angleGroup?_append`, `commaPieces_append`, `cutType_append` — where reading stops;
* `takeGenerics_part`, `skipName_part`, `takeSuperclass_part`, `takeContracts_part` —
  each part is taken off and the rest is left.
-/

namespace ScriptJar

open Text

namespace Header

variable {kind : Char → Bool} {depth : Nat} {s t rest : List Char} {types : List String}
  {superclass name : Option String} {h : Header}

/-! ## Angle brackets -/

/-- Every `>` closes a `<` before it, and every `<` is closed. -/
def Balanced (s : List Char) : Prop :=
  (∀ n < s.length + 1, (s.take n).count '>' ≤ (s.take n).count '<') ∧ s.count '<' = s.count '>'

/-- No character of a kind stands where all brackets before it are closed. -/
def NoneOutside (kind : Char → Bool) (s : List Char) : Prop :=
  ∀ n < s.length, (s.take n).count '<' = (s.take n).count '>' → s[n]?.any kind = false

instance (s : List Char) : Decidable (Balanced s) :=
  inferInstanceAs (Decidable (_ ∧ _))

instance (kind : Char → Bool) (s : List Char) : Decidable (NoneOutside kind s) :=
  inferInstanceAs (Decidable (∀ n < s.length, _))

/-- A text that closes a number of open brackets and all of its own, and has no character
    of a kind where none is open. -/
inductive Closes (kind : Char → Bool) : Nat → List Char → Prop where
  | nil : Closes kind 0 []
  | cons {depth : Nat} {c : Char} {s : List Char} :
      (c = '>' → depth ≠ 0) → (depth = 0 → kind c = false) →
      Closes kind (angleDepth depth c) s → Closes kind depth (c :: s)

theorem angleDepth_count {front : List Char} (before : front.count '>' ≤ front.count '<')
    (c : Char) : (front ++ [c]).count '<' - (front ++ [c]).count '>' =
      angleDepth (front.count '<' - front.count '>') c := by
  unfold angleDepth
  by_cases opening : c = '<'
  · subst opening
    simp
    omega
  · by_cases closing : c = '>'
    · subst closing
      simp
      omega
    · simp [opening, closing]

theorem closes_of_balanced (balanced : Balanced s) (none : NoneOutside kind s) :
    Closes kind 0 s := by
  -- the depth in the rest of the text is what the front leaves open
  suffices rests : ∀ front rest, s = front ++ rest →
      Closes kind (front.count '<' - front.count '>') rest from rests [] s rfl
  intro front rest
  induction rest generalizing front with
  | nil =>
    intro whole
    rw [List.append_nil] at whole
    rw [← whole, balanced.2, Nat.sub_self]
    exact .nil
  | cons c rest ih =>
    intro whole
    have before : front.count '>' ≤ front.count '<' := by
      have counts := balanced.1 front.length (by rw [whole, List.length_append]; omega)
      simpa [whole] using counts
    have after : (front ++ [c]).count '>' ≤ (front ++ [c]).count '<' := by
      have counts := balanced.1 (front.length + 1) (by simp [whole])
      have taken : s.take (front.length + 1) = front ++ [c] := by
        simp [whole, List.take_append, List.take_of_length_le]
      rwa [taken] at counts
    have next := ih (front ++ [c]) (by simp [whole])
    rw [angleDepth_count before] at next
    refine .cons ?_ ?_ next
    · rintro rfl
      simp at after
      omega
    · intro level
      have free := none front.length (by simp [whole])
      simpa [whole, Nat.le_antisymm (Nat.le_of_sub_eq_zero level) before] using free

namespace Closes

theorem append (first : Closes kind depth s) (second : Closes kind 0 t) :
    Closes kind depth (s ++ t) := by
  induction first with
  | nil => exact second
  | cons matched free _ ih => exact .cons matched free ih

theorem weaken (closes : Closes kind depth s) : Closes (fun _ => false) depth s := by
  induction closes with
  | nil => exact .nil
  | cons matched _ _ ih => exact .cons matched (fun _ => rfl) ih

theorem of_letters (letters : ∀ c ∈ s, isWordChar c = true) : Closes isBlank 0 s := by
  induction s with
  | nil => exact .nil
  | cons c s ih =>
    rw [List.forall_mem_cons] at letters
    have opening : c ≠ '<' := by
      rintro rfl
      exact absurd letters.1 (by decide +kernel)
    have closing : c ≠ '>' := by
      rintro rfl
      exact absurd letters.1 (by decide +kernel)
    refine .cons (fun same => absurd same closing) (fun _ => isBlank_of_isWordChar letters.1) ?_
    rw [angleDepth, if_neg opening, if_neg closing]
    exact ih letters.2

end Closes

theorem angleGroup?_append (closes : Closes kind depth s) (rest : List Char) :
    angleGroup? depth (s ++ '>' :: rest) = some (s, rest) := by
  induction closes with
  | nil => simp [angleGroup?]
  | cons matched _ _ ih =>
    rw [List.cons_append, angleGroup?, if_neg fun ends => matched ends.1 ends.2, ih]
    rfl

theorem commaPieces_append (closes : Closes (· == ',') depth s) (rest : List Char) :
    commaPieces depth (s ++ ',' :: rest) = s :: commaPieces 0 rest := by
  induction closes with
  | nil => simp [commaPieces]
  | @cons depth c s _ free _ ih =>
    have inside : ¬ (c = ',' ∧ depth = 0) := fun ends => by simpa [ends.1] using free ends.2
    rw [List.cons_append, commaPieces, if_neg inside, ih]

theorem commaPieces_self (closes : Closes (· == ',') depth s) : commaPieces depth s = [s] := by
  induction closes with
  | nil => rfl
  | @cons depth c s _ free _ ih =>
    have inside : ¬ (c = ',' ∧ depth = 0) := fun ends => by simpa [ends.1] using free ends.2
    rw [commaPieces, if_neg inside, ih]

theorem cutType_append (closes : Closes isBlank depth s) (stops : cutType 0 rest = ([], rest)) :
    cutType depth (s ++ rest) = (s, rest) := by
  induction closes with
  | nil => exact stops
  | @cons depth c s _ free _ ih =>
    have inside : ¬ (isBlank c ∧ depth = 0 ∧ (trimStart (c :: (s ++ rest))).head? ≠ some '<') := by
      rintro ⟨blank, level, -⟩
      simp [free level] at blank
    rw [List.cons_append, cutType, if_neg inside, ih]

/-! ## Lists of types -/

/-- A text that can stand in a list of types. -/
structure TypeText (s : List Char) : Prop where
  trimmed : trim s = s
  nonempty : s ≠ []
  balanced : Balanced s
  noComma : NoneOutside (· == ',') s

/-- A text that can be a superclass or a contract. -/
structure ClassText (s : List Char) : Prop extends TypeText s where
  starts : s.head?.any isWordChar = true
  solid : NoneOutside isBlank s
  ends : s.getLast? ≠ some ';'

instance (s : List Char) : Decidable (TypeText s) :=
  decidable_of_iff (trim s = s ∧ s ≠ [] ∧ Balanced s ∧ NoneOutside (· == ',') s)
    ⟨fun ⟨trimmed, nonempty, balanced, noComma⟩ => ⟨trimmed, nonempty, balanced, noComma⟩,
      fun h => ⟨h.trimmed, h.nonempty, h.balanced, h.noComma⟩⟩

instance (s : List Char) : Decidable (ClassText s) :=
  decidable_of_iff (TypeText s ∧ s.head?.any isWordChar = true ∧ NoneOutside isBlank s ∧
      s.getLast? ≠ some ';')
    ⟨fun ⟨type, starts, solid, ends⟩ => ⟨type, starts, solid, ends⟩,
      fun h => ⟨h.toTypeText, h.starts, h.solid, h.ends⟩⟩

def joined (types : List String) : List Char :=
  [','].intercalate (types.map String.toList)

theorem joined_cons_cons (type type' : String) (types : List String) :
    joined (type :: type' :: types) = type.toList ++ ',' :: joined (type' :: types) := by
  simp [joined]

theorem joined_ne_nil (some : types ≠ []) (texts : ∀ type ∈ types, TypeText type.toList) :
    joined types ≠ [] := by
  cases types with
  | nil => exact absurd rfl some
  | cons type types =>
    have nonempty := (texts type List.mem_cons_self).nonempty
    cases types with
    | nil => simpa [joined] using nonempty
    | cons type' types => simp [joined_cons_cons]

theorem commaPieces_joined (some : types ≠ []) (texts : ∀ type ∈ types, TypeText type.toList) :
    commaPieces 0 (joined types) = types.map String.toList := by
  induction types with
  | nil => exact absurd rfl some
  | cons type types ih =>
    rw [List.forall_mem_cons] at texts
    have closes := closes_of_balanced texts.1.balanced texts.1.noComma
    cases types with
    | nil => simpa [joined] using commaPieces_self closes
    | cons type' types =>
      rw [joined_cons_cons, commaPieces_append closes, ih (List.cons_ne_nil _ _) texts.2]
      rfl

theorem closes_joined (texts : ∀ type ∈ types, TypeText type.toList) :
    Closes (fun _ => false) 0 (joined types) := by
  induction types with
  | nil => exact .nil
  | cons type types ih =>
    rw [List.forall_mem_cons] at texts
    have closes := (closes_of_balanced texts.1.balanced texts.1.noComma).weaken
    cases types with
    | nil => simpa [joined] using closes
    | cons type' types =>
      rw [joined_cons_cons]
      exact closes.append (.cons (by simp) (fun _ => rfl) (ih texts.2))

theorem members_joined (texts : ∀ type ∈ types, TypeText type.toList) :
    members (joined types) = types := by
  by_cases none : types = []
  · subst none
    rfl
  · have trimmed : (types.map String.toList).map trim = types.map String.toList := by
      rw [List.map_map]
      exact List.map_congr_left fun type member => (texts type member).trimmed
    have kept : (types.map String.toList).filter (! ·.isEmpty) = types.map String.toList := by
      rw [List.filter_eq_self]
      intro s member
      obtain ⟨type, found, rfl⟩ := List.mem_map.1 member
      simpa using (texts type found).nonempty
    rw [members, commaPieces_joined none texts, trimmed, kept, List.map_map]
    simp [Function.comp_def]

theorem members_cons_blank {c : Char} (blank : isBlank c = true) (s : List Char) :
    members (c :: s) = members s := by
  have other : c ≠ ',' ∧ c ≠ '<' ∧ c ≠ '>' := by
    refine ⟨?_, ?_, ?_⟩ <;> (rintro rfl; exact absurd blank (by decide))
  rw [members, members, commaPieces, if_neg fun comma => other.1 comma.1]
  simp only [angleDepth, other, if_false]
  cases commaPieces 0 s with
  | nil => simp [trim, trimStart, trimEnd, dropEndWhile, blank]
  | cons piece pieces => simp [trim, trimStart_cons_blank blank]

/-! ## Writing a header -/

/-- The word that a header has for a kind. -/
def word : Kind → String
  | .standard => "class"
  | .abstractClass => "abstract"
  | .interface => "interface"

def genericsPart (types : List String) : List Char :=
  if types = [] then [] else '<' :: (joined types ++ ['>'])

def namePart : Option String → List Char
  | none => []
  | some name => ' ' :: name.toList

def superclassPart : Option String → List Char
  | none => []
  | some type => ' ' :: ("ext".toList ++ ' ' :: type.toList)

def contractsPart (types : List String) : List Char :=
  if types = [] then [] else ' ' :: ("impl".toList ++ ' ' :: joined types)

/-- A header as it stands after `#!`, with or without a name for the class. -/
def print (name : Option String) (h : Header) : List Char :=
  (word h.kind).toList ++ (genericsPart h.generics ++ (namePart name
    ++ (superclassPart h.superclass ++ contractsPart h.contracts)))

/-- A name for the class.  The words of the other parts cannot be one. -/
def IsName (s : List Char) : Prop :=
  s ≠ [] ∧ (∀ c ∈ s, isWordChar c = true) ∧ s ≠ "ext".toList ∧ s ≠ "impl".toList

structure WellFormed (h : Header) : Prop where
  generics : ∀ type ∈ h.generics, TypeText type.toList
  superclass : ∀ type ∈ h.superclass, ClassText type.toList
  contracts : ∀ type ∈ h.contracts, ClassText type.toList

/-! ## Reading its parts -/

/-- What may follow a type or a name: nothing, or the next part. -/
def Pauses (s : List Char) : Prop :=
  s = [] ∨ ∃ part, (part = "ext".toList ∨ part = "impl".toList) ∧
    ∃ rest, s = ' ' :: (part ++ ' ' :: rest)

theorem trimStart_part {part : List Char} (known : part = "ext".toList ∨ part = "impl".toList)
    (rest : List Char) :
    trimStart (' ' :: (part ++ ' ' :: rest)) = part ++ ' ' :: rest := by
  rw [trimStart_cons_blank (by decide), trimStart_append]
  rcases known with rfl | rfl <;> decide

theorem afterWord?_part (part rest : List Char) :
    afterWord? part (part ++ ' ' :: rest) = some (' ' :: rest) :=
  afterWord?_append part (by simp [isWordChar_space])

namespace Pauses

theorem head? (ends : Pauses s) : s.head? = none ∨ s.head? = some ' ' := by
  rcases ends with rfl | ⟨part, _, rest, rfl⟩
  · exact .inl rfl
  · exact .inr rfl

theorem cutType (ends : Pauses s) : cutType 0 s = ([], s) := by
  rcases ends with rfl | ⟨part, known, rest, rfl⟩
  · rfl
  · have next : (trimStart (' ' :: (part ++ ' ' :: rest))).head? ≠ some '<' := by
      rw [trimStart_part known]
      rcases known with rfl | rfl <;> simp
    rw [Header.cutType, if_pos ⟨by decide, rfl, next⟩]

end Pauses

theorem pauses_contractsPart (types : List String) : Pauses (contractsPart types) := by
  unfold contractsPart
  split
  · exact .inl rfl
  · exact .inr ⟨_, .inr rfl, joined types, rfl⟩

theorem pauses_superclassPart (superclass : Option String) (types : List String) :
    Pauses (superclassPart superclass ++ contractsPart types) := by
  cases superclass with
  | none => exact pauses_contractsPart types
  | some type =>
    refine .inr ⟨_, .inl rfl, type.toList ++ contractsPart types, ?_⟩
    simp [superclassPart]

theorem takeKind_word (k : Kind) (rest : List Char) :
    takeKind ((word k).toList ++ rest) = (k, rest) := by
  cases k <;> simp [takeKind, kindWords, word, after?, List.isPrefixOf?]

theorem takeGenerics_part (texts : ∀ type ∈ types, TypeText type.toList)
    (other : rest.head? ≠ some '<') :
    takeGenerics (genericsPart types ++ rest) = (types, rest) := by
  unfold genericsPart
  split
  · next none =>
    subst none
    cases rest with
    | nil => rfl
    | cons c rest =>
      have differs : c ≠ '<' := by simpa using other
      simp [takeGenerics, differs]
  · have group := angleGroup?_append (closes_joined texts) rest
    simp only [List.cons_append, List.append_assoc, List.nil_append, takeGenerics, group,
      members_joined texts]

theorem skipName_part (named : ∀ n ∈ name, IsName n.toList) (ends : Pauses rest) :
    skipName (namePart name ++ rest) = trimStart rest := by
  unfold skipName
  cases name with
  | none =>
    rw [namePart, List.nil_append]
    rcases ends with rfl | ⟨part, known, rest, rfl⟩
    · rfl
    · have found : startsWithWord part (part ++ ' ' :: rest) = true := by
        rw [startsWithWord, afterWord?_part]
        rfl
      rw [trimStart_part known]
      rcases known with rfl | rfl <;> simp only [found, Bool.or_true, Bool.true_or, if_true]
  | some name =>
    obtain ⟨nonempty, letters, notExt, notImpl⟩ := named name rfl
    have next : rest.head?.any isWordChar = false := by
      rcases ends.head? with none | space
      · simp [none]
      · simp [space, isWordChar_space]
    have first : name.toList.head?.any isWordChar = true := by
      cases chars : name.toList with
      | nil => exact absurd chars nonempty
      | cons c s => simpa [chars] using letters c (by simp [chars])
    have start : trimStart (namePart (some name) ++ rest) = name.toList ++ rest := by
      rw [namePart, List.cons_append, trimStart_cons_blank (by decide), trimStart_append first]
    have type : takeType (name.toList ++ rest) = (name.toList, rest) := by
      rw [takeType, trimStart_append first, cutType_append (.of_letters letters) ends.cutType]
    have noExt := startsWithWord_eq_false letters (by decide +kernel) notExt next
    have noImpl := startsWithWord_eq_false letters (by decide +kernel) notImpl next
    have some : (name.toList ++ rest).isEmpty = false := by simp [nonempty]
    simp only [start, type, noExt, noImpl, some, Bool.or_self, Bool.false_eq_true, if_false]

theorem takeSuperclass_part (texts : ∀ type ∈ superclass, ClassText type.toList)
    (types : List String) :
    takeSuperclass (trimStart (superclassPart superclass ++ contractsPart types)) =
      (superclass, trimStart (contractsPart types)) := by
  cases superclass with
  | none =>
    have other : afterWord? "ext".toList (trimStart (contractsPart types)) = none := by
      unfold contractsPart
      split
      · decide
      · rw [trimStart_part (.inr rfl)]
        simp [afterWord?, after?, List.isPrefixOf?]
    rw [superclassPart, List.nil_append, takeSuperclass, other]
  | some type =>
    have text := texts type rfl
    have closes := closes_of_balanced text.balanced text.solid
    have start : trimStart (superclassPart (some type) ++ contractsPart types) =
        "ext".toList ++ ' ' :: (type.toList ++ contractsPart types) := by
      rw [← trimStart_part (.inl rfl)]
      simp [superclassPart]
    have taken : takeType (' ' :: (type.toList ++ contractsPart types)) =
        (type.toList, contractsPart types) := by
      rw [takeType, trimStart_cons_blank (by decide), trimStart_append text.starts,
        cutType_append closes (pauses_contractsPart types).cutType]
    rw [start, takeSuperclass, afterWord?_part]
    simp [taken, text.nonempty]

theorem takeContracts_part (texts : ∀ type ∈ types, TypeText type.toList) :
    takeContracts (trimStart (contractsPart types)) = types := by
  unfold contractsPart
  split
  · next none =>
    subst none
    decide
  · rw [trimStart_part (.inr rfl), takeContracts, afterWord?_part]
    exact (members_cons_blank (by decide) _).trans (members_joined texts)

/-! ## The end of a header -/

/-- A text of whose end nothing is cut off. -/
def Settled (s : List Char) : Prop :=
  ∀ c, s.getLast? = some c → isBlank c = false ∧ c ≠ ';'

theorem Settled.nil : Settled [] := by
  simp [Settled]

theorem Settled.append (second : Settled t) (first : t = [] → Settled s) : Settled (s ++ t) := by
  intro c last
  rw [List.getLast?_append] at last
  cases ending : t.getLast? with
  | none => exact first (List.getLast?_eq_none_iff.1 ending) c (by simpa [ending] using last)
  | some d => exact second c (by simpa [ending] using last)

theorem Settled.of_letters (letters : ∀ c ∈ s, isWordChar c = true) : Settled s := by
  intro c last
  have letter := letters c (List.mem_of_getLast? last)
  refine ⟨isBlank_of_isWordChar letter, ?_⟩
  rintro rfl
  exact absurd letter (by decide +kernel)

theorem ClassText.settled (text : ClassText s) : Settled s := by
  intro c last
  refine ⟨?_, fun semicolon => text.ends (semicolon ▸ last)⟩
  rw [← text.trimmed] at last
  exact isBlank_of_getLast?_trim last

theorem settled_joined (texts : ∀ type ∈ types, ClassText type.toList) :
    Settled (joined types) := by
  induction types with
  | nil => exact .nil
  | cons type types ih =>
    rw [List.forall_mem_cons] at texts
    cases types with
    | nil => simpa [joined] using texts.1.settled
    | cons type' types =>
      have more := joined_ne_nil (List.cons_ne_nil type' types) fun type member =>
        (texts.2 type member).toTypeText
      have whole : Settled (type.toList ++ [','] ++ joined (type' :: types)) :=
        (ih texts.2).append fun none => absurd none more
      rwa [List.append_assoc, List.singleton_append, ← joined_cons_cons] at whole

theorem settled_genericsPart (types : List String) : Settled (genericsPart types) := by
  unfold genericsPart
  split
  · exact .nil
  · have angle : Settled ['>'] := by
      intro c last
      obtain rfl : '>' = c := by simpa using last
      decide
    exact angle.append (s := '<' :: joined types) (by simp)

theorem settled_namePart (named : ∀ n ∈ name, IsName n.toList) : Settled (namePart name) := by
  cases name with
  | none => exact .nil
  | some n =>
    obtain ⟨nonempty, letters, -⟩ := named n rfl
    exact (Settled.of_letters letters).append (s := [' ']) fun none => absurd none nonempty

theorem settled_superclassPart (texts : ∀ type ∈ superclass, ClassText type.toList) :
    Settled (superclassPart superclass) := by
  cases superclass with
  | none => exact .nil
  | some type =>
    have text := texts type rfl
    have whole : Settled (" ext ".toList ++ type.toList) :=
      text.settled.append fun none => absurd none text.nonempty
    simpa [superclassPart] using whole

theorem settled_contractsPart (texts : ∀ type ∈ types, ClassText type.toList) :
    Settled (contractsPart types) := by
  unfold contractsPart
  split
  · exact .nil
  · next some =>
    have more := joined_ne_nil some fun type member => (texts type member).toTypeText
    have whole : Settled (" impl ".toList ++ joined types) :=
      (settled_joined texts).append fun none => absurd none more
    simpa using whole

theorem settled_print (named : ∀ n ∈ name, IsName n.toList) (wellFormed : h.WellFormed) :
    Settled (print name h) := by
  have kind : Settled (word h.kind).toList := by
    apply Settled.of_letters
    rw [← List.all_eq_true]
    cases h.kind <;> decide +kernel
  refine Settled.append ?_ fun _ => kind
  refine Settled.append ?_ fun _ => settled_genericsPart h.generics
  refine Settled.append ?_ fun _ => settled_namePart named
  exact (settled_contractsPart wellFormed.contracts).append fun _ =>
    settled_superclassPart wellFormed.superclass

/-- A header that was written is read back, whatever name it was given. -/
theorem parse_print (named : ∀ n ∈ name, IsName n.toList) (wellFormed : h.WellFormed) :
    parse (print name h) = h := by
  have settled := settled_print named wellFormed
  have first : ∀ c, (print name h).head? = some c → isBlank c = false := by
    unfold print
    cases h.kind <;> (rintro c ⟨⟩; decide)
  have whole : trimEnd (dropEndWhile (· == ';') (trim (print name h))) = print name h := by
    rw [trim_of_ends first fun c last => (settled c last).1,
      dropEndWhile_of_last fun c last => by simpa using (settled c last).2, trimEnd,
      dropEndWhile_of_last fun c last => (settled c last).1]
  have after := pauses_superclassPart h.superclass h.contracts
  have other : (namePart name ++ (superclassPart h.superclass ++ contractsPart h.contracts)).head?
      ≠ some '<' := by
    cases name with
    | none =>
      rcases after.head? with none | space
      · simp [namePart, none]
      · simp [namePart, space]
    | some name => simp [namePart]
  unfold parse
  rw [whole]
  simp only [print, takeKind_word, takeGenerics_part wellFormed.generics other,
    skipName_part named after, takeSuperclass_part wellFormed.superclass,
    takeContracts_part fun type member => (wellFormed.contracts type member).toTypeText]

end Header

end ScriptJar

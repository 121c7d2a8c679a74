import ScriptJar.Text.Basic
import ScriptJar.Text.Blank

/-! # Paths

A path is a text whose parts are separated by `/`.  It is kept as it was written;
nothing is normalised when paths are joined.  Two paths may name the same place
and differ as texts, so there are two ways to look at a path:

* `components` — the root, `.` at the start, `..`, and names.  Repeated slashes and
  `.` further on leave no trace;
* `parent?`, `fileName?`, `stem?`, `extension?` — cutting at the last component.
-/

namespace ScriptJar

/-- A path, as written. -/
structure Path where
  text : String
  deriving DecidableEq, Repr

namespace Path

/-! ## Joining -/

def isAbsolute (p : Path) : Bool :=
  p.text.toList.head? == some '/'

/-- The path `q`, read from `p`.  An absolute `q` replaces `p`. -/
def join (p q : Path) : Path :=
  if q.isAbsolute then q
  else if p.text.isEmpty || p.text.toList.getLast? == some '/' then ⟨p.text ++ q.text⟩
  else ⟨p.text ++ "/" ++ q.text⟩

instance : Div Path := ⟨join⟩

instance : HDiv Path String Path := ⟨fun p s => p.join ⟨s⟩⟩

/-! ## Components -/

inductive Component where
  | root
  /-- A `.` at the start of the path. -/
  | current
  /-- `..` -/
  | parent
  | name (s : String)
  deriving DecidableEq, Repr

/-- What a path starts with: a slash, a `.` of its own, or nothing. -/
def anchor : List Char → List Char
  | '/' :: _ => ['/']
  | ['.'] => ['.']
  | '.' :: '/' :: _ => ['.']
  | _ => []

/-- Whether a segment between two slashes leaves no component. -/
def isVoid (segment : List Char) : Bool :=
  segment.isEmpty || segment == ['.']

/-- The segments between the slashes after the anchor. -/
def segments (s : List Char) : List (List Char) :=
  Text.splitOn '/' (s.drop (anchor s).length)

def Component.ofSegment (segment : List Char) : Component :=
  if segment = ['.', '.'] then .parent else .name (String.ofList segment)

def Component.ofAnchor : List Char → List Component
  | ['/'] => [.root]
  | ['.'] => [.current]
  | _ => []

def components (p : Path) : List Component :=
  let s := p.text.toList
  Component.ofAnchor (anchor s)
    ++ ((segments s).filter (! isVoid ·)).map Component.ofSegment

def same (p q : Path) : Bool :=
  p.components == q.components

/-! ## The last component -/

def fileName? (p : Path) : Option String :=
  match p.components.getLast? with
  | some (.name s) => some s
  | _ => none

/-- A file name cut at its last dot, unless the dot is its first character. -/
def splitName (name : String) : String × Option String :=
  let s := name.toList
  let tail := Text.afterLast '.' s
  let stem := s.take (s.length - tail.length - 1)
  if tail.length = s.length ∨ stem.isEmpty then (name, none)
  else (String.ofList stem, some (String.ofList tail))

def stem? (p : Path) : Option String :=
  p.fileName?.map fun n => (splitName n).1

def extension? (p : Path) : Option String :=
  p.fileName?.bind fun n => (splitName n).2

/-- Segments without the void ones at their end. -/
def dropVoid (segs : List (List Char)) : List (List Char) :=
  (segs.reverse.dropWhile isVoid).reverse

def parent? (p : Path) : Option Path :=
  let s := p.text.toList
  match dropVoid (segments s) with
  | [] => if anchor s = ['.'] then some ⟨""⟩ else none
  | segs => some ⟨String.ofList (anchor s ++ ['/'].intercalate (dropVoid segs.dropLast))⟩

/-- The directory a path stands in; a bare name stands in `.`. -/
def directory (p : Path) : Path :=
  match p.parent? with
  | none => ⟨"."⟩
  | some q => if q.text = "" then ⟨"."⟩ else q

end Path

end ScriptJar

import ScriptJar.Directive.Header

/-! # Directives

What a statement says.  `Directive.classify` decides by the first form that fits,
in a fixed order; a statement that fits none is code of the entry point.

| form | directive |
|---|---|
| `pkg p;` as the first statement | `package` |
| `#!…` as the first or second statement | `header` |
| `import n;`, `import static n;` | `classImport`, `staticImport` |
| `from l import n;`, `from "l" import n;` | `libraryImport` |
| `!macro "k" "v"` | `substitution` |
| `using "f";` | `companion` |
| `ext "f";` | `donor` |
| a member of the class | `classScope` |
-/

namespace ScriptJar

inductive Directive where
  | package (name : String)
  | header (header : Header)
  /-- A class to be resolved in the libraries. -/
  | classImport (name : String)
  /-- A static import, taken as it is. -/
  | staticImport (name : String)
  /-- A class to be resolved in the libraries that fit a hint. -/
  | libraryImport (library name : String)
  /-- A text to be replaced in the generated source, as written. -/
  | substitution (key value : String)
  /-- A file that is compiled along with this one. -/
  | companion (file : String)
  /-- A file whose members are merged into this class. -/
  | donor (file : String)
  | classScope (code : String)
  | entryScope (code : String)
  deriving DecidableEq, Repr

namespace Directive

open Text

/-! ## The forms -/

def package? (s : List Char) : Option Directive :=
  match (after? "pkg ".toList s).bind (before? [';']) with
  | none => none
  | some name => some (.package (String.ofList (trim name)))

def header? (s : List Char) : Option Directive :=
  (after? "#!".toList s).map fun body => .header (Header.parse body)

def plainImport? (s : List Char) : Option Directive :=
  match (after? "import ".toList s).bind (before? [';']) with
  | none => none
  | some rest =>
    match after? "static ".toList (trimStart rest) with
    | some name => some (.staticImport (String.ofList (trim name)))
    | none => some (.classImport (String.ofList (trim rest)))

/-- The library of an import and what follows it: a quoted text, or a text up to
    the first blank. -/
def takeLibrary? (s : List Char) : Option (List Char × List Char) :=
  match s with
  | '"' :: quoted =>
    match quoted.dropWhile (· ≠ '"') with
    | [] => none
    | _ :: after => some (quoted.takeWhile (· ≠ '"'), after)
  | _ =>
    match s.dropWhile (! isBlank ·) with
    | [] => none
    | after => some (s.takeWhile (! isBlank ·), after)

def libraryImport? (s : List Char) : Option Directive :=
  match after? "from ".toList s with
  | none => none
  | some rest =>
    match takeLibrary? (trimStart rest) with
    | none => none
    | some (library, after) =>
      match (after? "import ".toList (trimStart after)).bind (before? [';']) with
      | none => none
      | some name =>
        let name := trim name
        if occursIn " import ".toList s && !library.isEmpty && !name.isEmpty then
          some (.libraryImport (String.ofList library) (String.ofList name))
        else none

/-- The number of quotes without a backslash before them, the text between the
    first two and the text between the third and the fourth; `quotes` were seen
    before, and `last` is the character before the text. -/
def quotedPair : Nat → Char → List Char → Nat × List Char × List Char
  | quotes, _, [] => (quotes, [], [])
  | quotes, last, c :: rest =>
    if c = '"' ∧ last ≠ '\\' then quotedPair (quotes + 1) c rest
    else
      let (total, key, value) := quotedPair quotes c rest
      if quotes = 1 then (total, c :: key, value)
      else if quotes = 3 then (total, key, c :: value)
      else (total, key, value)

/-- `!macro "k" "v"`; the value may be missing, the key may not. -/
def substitution? (s : List Char) : Option Directive :=
  match after? "!macro".toList s with
  | none => none
  | some rest =>
    let (quotes, key, value) := quotedPair 0 '\x00' rest
    if quotes < 2 ∨ key.isEmpty then none
    else some (.substitution (String.ofList key) (String.ofList value))

/-- The text between the first and the last quote of a statement's end, which must
    have a semicolon. -/
def quotedFile? (s : List Char) : Option String :=
  match before? [';'] (trim s) with
  | none => none
  | some body =>
    match (trimEnd body).dropWhile (· ≠ '"') with
    | [] => none
    | _ :: inner =>
      match inner.reverse.dropWhile (· ≠ '"') with
      | [] => none
      | _ :: file => if file.isEmpty then none else some (String.ofList file.reverse)

def companion? (s : List Char) : Option Directive :=
  ((after? "using ".toList s).bind quotedFile?).map .companion

def donor? (s : List Char) : Option Directive :=
  ((after? "ext ".toList s).bind quotedFile?).map .donor

def memberWords : List String :=
  ["abstract", "class", "default", "enum", "native", "private", "protected", "public",
    "static", "transient", "void", "volatile", "svoid", "cvar"]

/-- A member as Java has it: `svoid` stands for `static void`, and `cvar` is only a
    mark. -/
def memberCode (s : List Char) : List Char :=
  match afterWord? "svoid".toList s with
  | some rest => "static void".toList ++ rest
  | none =>
    match afterWord? "cvar".toList s with
    | some rest => trimStart rest
    | none => s

/-- An annotation, or a statement that starts with one of `memberWords`. -/
def classScope? (s : List Char) : Option Directive :=
  if s.head? = some '@' ∨ memberWords.any (fun w => startsWithWord w.toList s) then
    some (.classScope (String.ofList (memberCode s)))
  else none

/-! ## The choice -/

/-- What a statement says; `position` counts the statements from 1. -/
def classify (statement : String) (position : Nat) : Directive :=
  let s := statement.toList
  let forms : List (Option Directive) := [
    if position = 1 then package? s else none,
    if position ≤ 2 then header? s else none,
    plainImport? s, libraryImport? s, substitution? s, companion? s, donor? s, classScope? s]
  (forms.findSome? id).getD (.entryScope statement)

end Directive

end ScriptJar

import ScriptJar.Json.Reader
import ScriptJar.Settings.Basic
import ScriptJar.Text.Decimal

/-! # The settings file

Settings are kept as a JSON object.  It may lack fields, which then have their
default values, and it may have fields of other names, whatever their values.  A
known field must not occur twice and must have a value of its type.  An array with
the values of the fields in order is read as well.

`Settings.parse?` reads the file's text and `Settings.render` writes it.
-/

namespace ScriptJar

/-! ## Values of a type -/

namespace Json

def text? : Json → Option String
  | .string text => text
  | _ => none

/-- A whole number, written as such, of 64 binary digits at most. -/
def word? : Json → Option UInt64
  | .number literal => (Text.numeralBelow? Text.wordBound literal).map UInt64.ofNat
  | _ => none

def entry? : Option String × Json → Option (String × String)
  | (some key, value) => value.text?.map fun v => (key, v)
  | _ => none

/-- A table of texts; of a repeated key the last value counts. -/
def table? : Json → Option Substitutions
  | .object members => (members.mapM entry?).map Substitutions.ofList
  | _ => none

end Json

namespace Settings

/-! ## Fields -/

inductive Field where
  | toolchainRoot
  | libraryDirectory
  | substitutions
  | compileTimeout
  | archiveName
  deriving DecidableEq, Repr

def Field.all : List Field :=
  [.toolchainRoot, .libraryDirectory, .substitutions, .compileTimeout, .archiveName]

def Field.name : Field → String
  | .toolchainRoot => "toolchain_root"
  | .libraryDirectory => "library_dir"
  | .substitutions => "global_macros"
  | .compileTimeout => "compile_timeout_secs"
  | .archiveName => "archive_name"

def Field.ofName? (name : String) : Option Field :=
  Field.all.find? fun f => f.name == name

/-- Sets a field to a value of its type. -/
def set? (s : Settings) (f : Field) (value : Json) : Option Settings :=
  match f with
  | .toolchainRoot => value.text?.map fun v => { s with toolchainRoot := ⟨v⟩ }
  | .libraryDirectory => value.text?.map fun v => { s with libraryDirectory := v }
  | .substitutions => value.table?.map fun v => { s with substitutions := v }
  | .compileTimeout => value.word?.map fun v => { s with compileTimeout := v }
  | .archiveName => value.text?.map fun v => { s with archiveName := v }

/-! ## Reading -/

/-- Sets the fields that members name, those in `given` having been set before. -/
def ofMembers? : List Field → Settings → List (Option String × Json) → Option Settings
  | _, s, [] => some s
  | _, _, (none, _) :: _ => none
  | given, s, (some name, value) :: rest =>
    match Field.ofName? name with
    | none => ofMembers? given s rest
    | some f =>
      if f ∈ given then none
      else
        match s.set? f value with
        | none => none
        | some s => ofMembers? (f :: given) s rest

/-- Sets fields in order to the items of an array, of which there may be fewer. -/
def ofItems? : List Field → Settings → List Json → Option Settings
  | _, s, [] => some s
  | [], _, _ :: _ => none
  | f :: fs, s, value :: rest =>
    match s.set? f value with
    | none => none
    | some s => ofItems? fs s rest

def ofJson? : Json → Option Settings
  | .object members => ofMembers? [] {} members
  | .array items => ofItems? Field.all {} items
  | _ => none

def parse? (text : String) : Option Settings :=
  (Json.read text.toList).bind ofJson?

/-! ## Writing -/

/-- A table as a JSON object, inside an object. -/
def renderTable (t : Substitutions) : String :=
  if t.entries.isEmpty then "\x7b\x7d"
  else
    let members := t.entries.map fun (key, value) =>
      "    " ++ Json.quote key ++ ": " ++ Json.quote value
    "\x7b\n" ++ ",\n".intercalate members ++ "\n  \x7d"

def renderField (s : Settings) : Field → String
  | .toolchainRoot => Json.quote s.toolchainRoot.text
  | .libraryDirectory => Json.quote s.libraryDirectory
  | .substitutions => renderTable s.substitutions
  | .compileTimeout => Text.numeral s.compileTimeout.toNat
  | .archiveName => Json.quote s.archiveName

/-- The settings as a JSON object, two blanks to a level. -/
def render (s : Settings) : String :=
  let members := Field.all.map fun f => "  " ++ Json.quote f.name ++ ": " ++ s.renderField f
  "\x7b\n" ++ ",\n".intercalate members ++ "\n\x7d"

def fileText (s : Settings) : String :=
  s.render ++ "\n"

end Settings

end ScriptJar

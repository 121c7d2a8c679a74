import ScriptJar.Text.Basic
import ScriptJar.Text.Blank

/-! # Patterns for archive entries

A request for a class is compared with the entries of an archive as a text with
slashes: `util.List` is looked for as `/util/List` at the end of an entry, and the
wildcard `java.util.*` as `/java/util/` anywhere in it.  The slash in front makes
sure that whole segments are compared.
-/

namespace ScriptJar

/-- A request in the form in which entries are searched. -/
structure Pattern where
  /-- The text looked for, which starts with a slash. -/
  needle : List Char
  wildcard : Bool
  deriving DecidableEq, Repr

namespace Pattern

def slashed (s : List Char) : List Char :=
  if s.head? = some '/' then s else '/' :: s

def ofRequest (requested : String) : Pattern :=
  let s := Text.replaceChar '.' '/' (Text.trim requested.toList)
  if s.getLast? = some '*' then ⟨slashed s.dropLast, true⟩ else ⟨slashed s, false⟩

/-- An entry with slashes only, one of them in front. -/
def normalize (entry : String) : List Char :=
  '/' :: Text.replaceChar '\\' '/' entry.toList

def dotted (s : List Char) : List Char :=
  Text.replaceChar '/' '.' s

/-- The name under which an entry is imported, if it fits: for a wildcard, the
    package up to the first place where it is found; otherwise the class. -/
def match? (p : Pattern) (entry : String) : Option String :=
  let s := normalize entry
  if p.wildcard then
    (Text.splitFirst? p.needle s).map fun (before, _) =>
      String.ofList (dotted ((before ++ p.needle).drop 1) ++ ['*'])
  else
    match Text.before? ".class".toList s with
    | none => none
    | some stem =>
      if p.needle.isSuffixOf stem then
        some (String.ofList (dotted (stem.dropWhile (· == '/'))))
      else none

end Pattern

end ScriptJar

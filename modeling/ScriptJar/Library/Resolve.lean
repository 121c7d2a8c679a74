import ScriptJar.Library.Basic
import ScriptJar.Library.Pattern
import ScriptJar.Reference
import ScriptJar.Suggestion

/-! # Resolving requests

`Library.resolve` finds the classes a request may stand for: the entries of the
admitted libraries that fit its pattern, in the order of the libraries and of
their entries, each name once and with the library that has it first.
-/

namespace ScriptJar.Library

/-- The libraries that a hint admits; without a hint, all of them. -/
def admitted (libraries : List Library) : Option String → List Library
  | none => libraries
  | some hint => libraries.filter (admits hint)

/-- What a library offers for a pattern, in the order of its entries. -/
def offers (p : Pattern) (l : Library) : List Candidate :=
  (l.entries.filterMap p.match?).map fun name => ⟨name, l.path⟩

/-- The candidates whose names are not in `seen`, the first of each name. -/
def firstOfName : List String → List Candidate → List Candidate
  | _, [] => []
  | seen, c :: rest =>
    if c.name ∈ seen then firstOfName seen rest
    else c :: firstOfName (c.name :: seen) rest

def candidates (libraries : List Library) (requested : String) (hint : Option String) :
    List Candidate :=
  firstOfName [] ((admitted libraries hint).flatMap (offers (Pattern.ofRequest requested)))

/-- The simple name of a class entry that is not nested in another class. -/
def simpleName? (entry : String) : Option String :=
  match Text.before? ".class".toList entry.toList with
  | none => none
  | some stem =>
    let leaf := Text.afterLast '/' stem
    if '$' ∈ leaf then none else some (String.ofList leaf)

def help (libraries : List Library) (requested : String) : Option String :=
  let leaf := Text.afterLast '.' requested.toList
  if leaf = ['*'] then none
  else
    Suggestion.didYouMean (String.ofList leaf)
      (libraries.flatMap fun l => l.entries.filterMap simpleName?)

/-- Resolves a request.  A request without candidates gets a warning. -/
def resolve (libraries : List Library) (requested : String) (hint : Option String) :
    Reference × List Warning :=
  let found := candidates libraries requested hint
  ({ raw := requested, hint, candidates := found },
    if found.isEmpty then [.noMatches requested hint (help libraries requested)] else [])

end ScriptJar.Library

import ScriptJar.Text.Alphanumeric
import ScriptJar.Text.Basic

/-! # Words

A word of a script is a run of letters, numbers, `_` and `$`.
-/

namespace ScriptJar.Text

def isWordChar (c : Char) : Bool :=
  c == '_' || c == '$' || isAlphanumeric c

/-- What follows `word`, in a text that starts with it as a whole word. -/
def afterWord? (word s : List Char) : Option (List Char) :=
  match after? word s with
  | none => none
  | some rest => if rest.head?.any isWordChar then none else some rest

def startsWithWord (word s : List Char) : Bool :=
  (afterWord? word s).isSome

end ScriptJar.Text

/-! # Texts as lists of characters

Every rule about text in this library is a function on `List Char`; `String` is
what the structures store and what goes in and out.  This file holds the few
operations the rest is made of:

* `lines` — the lines of a text, with `\n` and `\r\n` as line ends;
* `splitOn`, `splitFirst?` — cutting at a character or at a first occurrence;
* `after?`, `before?` — what is left once a known beginning or end is taken off;
* `occursIn`, `replaceAll` — searching and replacing parts of a text.
-/

namespace ScriptJar.Text

/-! ## Lines -/

/-- The lines of a text.  A line ends at `\n` or `\r\n`; an end at the very end of
    the text opens no further line, and a lone `\r` belongs to its line. -/
def lines : List Char → List (List Char)
  | [] => []
  | '\n' :: rest => [] :: lines rest
  | '\r' :: '\n' :: rest => [] :: lines rest
  | c :: rest =>
    match lines rest with
    | [] => [[c]]
    | l :: ls => (c :: l) :: ls

def linesOf (s : String) : List String :=
  (lines s.toList).map String.ofList

/-! ## Cutting -/

/-- The pieces between the occurrences of one character, empty ones included. -/
def splitOn (sep : Char) : List Char → List (List Char)
  | [] => [[]]
  | c :: rest =>
    if c = sep then [] :: splitOn sep rest
    else
      match splitOn sep rest with
      | [] => [[c]]
      | p :: ps => (c :: p) :: ps

/-- What follows the last occurrence of a character, or everything. -/
def afterLast (sep : Char) (s : List Char) : List Char :=
  (s.reverse.takeWhile (· ≠ sep)).reverse

/-- The text before the first occurrence of `part`, and the text from there on. -/
def splitFirst? (part : List Char) : List Char → Option (List Char × List Char)
  | [] => if part.isEmpty then some ([], []) else none
  | c :: rest =>
    if part.isPrefixOf (c :: rest) then some ([], c :: rest)
    else (splitFirst? part rest).map fun (before, found) => (c :: before, found)

/-- What follows `lead`, in a text that starts with it. -/
def after? (lead s : List Char) : Option (List Char) :=
  lead.isPrefixOf? s

/-- What precedes `tail`, in a text that ends with it. -/
def before? (tail s : List Char) : Option (List Char) :=
  tail.isSuffixOf? s

/-! ## Searching and replacing -/

def occursIn (part : List Char) : List Char → Bool
  | [] => part.isEmpty
  | c :: rest => part.isPrefixOf (c :: rest) || occursIn part rest

/-- `replaceAll` with `skip` characters of a found occurrence still to be dropped. -/
def replaceFrom (part by_ : List Char) : Nat → List Char → List Char
  | _, [] => []
  | skip + 1, _ :: rest => replaceFrom part by_ skip rest
  | 0, c :: rest =>
    if part.isPrefixOf (c :: rest) then by_ ++ replaceFrom part by_ (part.length - 1) rest
    else c :: replaceFrom part by_ 0 rest

/-- Replaces the occurrences of a non-empty `part`, from the left and without
    overlap; the replacement is not searched again. -/
def replaceAll (part by_ s : List Char) : List Char :=
  replaceFrom part by_ 0 s

def replaceAllIn (part by_ s : String) : String :=
  String.ofList (replaceAll part.toList by_.toList s.toList)

def replaceChar (old new : Char) (s : List Char) : List Char :=
  s.map fun c => if c = old then new else c

/-- The ASCII letters in lower case, everything else unchanged. -/
def asciiLower (s : String) : String :=
  String.ofList (s.toList.map Char.toLower)

end ScriptJar.Text

import ScriptJar.Failure
import ScriptJar.FileTree.Basic
import ScriptJar.Text.Blank
import ScriptJar.Text.Decimal

/-! # Diagnostics

A line of the compiler that points at a place: `F.java:12: error: …` or, with a
column, `F.java:12:5: error: …`.  The file is as short as possible.  The line
number may be written in the decimal digits of any script as far as the form goes,
but only ASCII digits below 2^64 make a diagnostic.
-/

namespace ScriptJar

/-- An error at a line of a source file. -/
structure Diagnostic where
  file : Path
  /-- The line, counted from 1. -/
  line : Nat
  /-- The whole line of the compiler. -/
  text : String
  deriving DecidableEq, Repr

namespace Diagnostic

open Text

/-- What follows a number and a colon, and the number's digits. -/
def takeNumber? (s : List Char) : Option (List Char × List Char) :=
  match s.takeWhile isDecimalDigit, s.dropWhile isDecimalDigit with
  | [], _ => none
  | digits, ':' :: rest => some (digits, rest)
  | _, _ => none

def isError (s : List Char) : Bool :=
  "error".toList.isPrefixOf (trimStart s)

/-- The digits of the line number in what follows the file name and a colon: the
    line, perhaps a column, and the word `error`. -/
def lineDigits? (s : List Char) : Option (List Char) :=
  match takeNumber? s with
  | none => none
  | some (digits, rest) =>
    let afterColumn := match takeNumber? rest with
      | some (_, rest) => rest
      | none => rest
    if isError afterColumn then some digits else none

/-- The shortest file name that the rest of the form fits, with the digits of the
    line; `before` is the beginning of the name, in reverse. -/
def locate? : List Char → List Char → Option (List Char × List Char)
  | _, [] => none
  | before, c :: rest =>
    let found := match after? ".java:".toList (c :: rest) with
      | some rest => if before.isEmpty then none else lineDigits? rest
      | none => none
    match found with
    | some digits => some (before.reverse ++ ".java".toList, digits)
    | none => if c = '\n' then none else locate? (c :: before) rest

def parse? (line : String) : Option Diagnostic :=
  match locate? [] (trimEnd line.toList) with
  | none => none
  | some (file, digits) =>
    (numeralBelow? wordBound digits).map fun n => ⟨⟨String.ofList file⟩, n, line⟩

def first? (lines : List String) : Option Diagnostic :=
  lines.findSome? parse?

def sourceLine (files : FileTree) (d : Diagnostic) : Except Failure (Option String) :=
  if d.line = 0 then .ok none
  else
    match files.readText d.file with
    | .error e => .error (e.during (.reading d.file))
    | .ok text => .ok (linesOf text)[d.line - 1]?

end Diagnostic

end ScriptJar

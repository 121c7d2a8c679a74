import ScriptJar.Text.Blank
import ScriptJar.Text.Word

/-! # Headers

The header of a script says what its class is: `#!abstract<K, V> Name ext Base
impl A, B`.  `Header.parse` reads the text after `#!`.  It accepts every text;
parts that are missing or malformed take no effect.

The header is read from left to right, each part taking what it needs from the
front: the kind, the type parameters in angle brackets, a name that is passed
over, `ext` with the superclass, and `impl` with the contracts.
-/

namespace ScriptJar

inductive Kind where
  | standard
  | abstractClass
  /-- An interface, which has no entry point. -/
  | interface
  deriving DecidableEq, Repr

def Kind.keyword : Kind → String
  | .standard => "class"
  | .abstractClass => "abstract class"
  | .interface => "interface"

structure Header where
  kind : Kind := .standard
  generics : List String := []
  superclass : Option String := none
  /-- Interfaces the type implements. -/
  contracts : List String := []
  deriving DecidableEq, Repr

namespace Header

open Text

/-! ## Angle brackets -/

/-- The bracket depth after a character.  A closing bracket too many counts for
    nothing. -/
def angleDepth (depth : Nat) (c : Char) : Nat :=
  if c = '<' then depth + 1 else if c = '>' then depth - 1 else depth

/-- The text up to the `>` that closes a group, and the text after it; `inner` is
    the number of further brackets open inside the group. -/
def angleGroup? : Nat → List Char → Option (List Char × List Char)
  | _, [] => none
  | inner, c :: rest =>
    if c = '>' ∧ inner = 0 then some ([], rest)
    else (angleGroup? (angleDepth inner c) rest).map fun (group, after) => (c :: group, after)

/-- The pieces between the commas that stand outside angle brackets. -/
def commaPieces : Nat → List Char → List (List Char)
  | _, [] => [[]]
  | depth, c :: rest =>
    if c = ',' ∧ depth = 0 then [] :: commaPieces 0 rest
    else
      match commaPieces (angleDepth depth c) rest with
      | [] => [[c]]
      | piece :: pieces => (c :: piece) :: pieces

def members (s : List Char) : List String :=
  (((commaPieces 0 s).map trim).filter (! ·.isEmpty)).map String.ofList

/-- Cuts off a type: up to the first blank outside angle brackets that is not
    followed by an angle bracket. -/
def cutType : Nat → List Char → List Char × List Char
  | _, [] => ([], [])
  | depth, c :: rest =>
    if isBlank c ∧ depth = 0 ∧ (trimStart (c :: rest)).head? ≠ some '<' then ([], c :: rest)
    else
      let (type, after) := cutType (angleDepth depth c) rest
      (c :: type, after)

/-- Takes a type off the front of a text, with the blanks before it. -/
def takeType (s : List Char) : List Char × List Char :=
  cutType 0 (trimStart s)

/-! ## The parts, each taken from the front -/

def kindWords : List (String × Kind) :=
  [("interface", .interface), ("abstract", .abstractClass), ("class", .standard)]

/-- The kind.  The word need not end where the kind does. -/
def takeKind (s : List Char) : Kind × List Char :=
  let found := kindWords.findSome? fun (word, kind) =>
    (after? word.toList s).map fun rest => (kind, rest)
  found.getD (.standard, s)

/-- The type parameters.  A group that is never closed is left alone. -/
def takeGenerics (s : List Char) : List String × List Char :=
  match s with
  | '<' :: rest =>
    match angleGroup? 0 rest with
    | some (group, after) => (members group, after)
    | none => ([], s)
  | _ => ([], s)

/-- Passes over the name of the class; the file gives the name. -/
def skipName (s : List Char) : List Char :=
  let s := trimStart s
  if s.isEmpty || startsWithWord "ext".toList s || startsWithWord "impl".toList s then s
  else trimStart (takeType s).2

def takeSuperclass (s : List Char) : Option String × List Char :=
  match afterWord? "ext".toList s with
  | none => (none, s)
  | some rest =>
    let (type, after) := takeType rest
    (if type.isEmpty then none else some (String.ofList type), trimStart after)

def takeContracts (s : List Char) : List String :=
  match afterWord? "impl".toList s with
  | none => []
  | some rest => members rest

/-- Reads the text after `#!`, which may end in semicolons. -/
def parse (body : List Char) : Header :=
  let body := trimEnd (dropEndWhile (· == ';') (trim body))
  let (kind, rest) := takeKind body
  let (generics, rest) := takeGenerics rest
  let (superclass, rest) := takeSuperclass (skipName rest)
  { kind, generics, superclass, contracts := takeContracts rest }

end Header

end ScriptJar

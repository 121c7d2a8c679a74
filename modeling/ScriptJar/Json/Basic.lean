import ScriptJar.Text.Basic

/-! # JSON values and strings

JSON values as they are read.  A number is kept as it is written.  The escapes of
a JSON string name UTF-16 units, and half of a surrogate pair may stand alone; such
a string is a value without a text.

`readString` reads a string after its opening quote, `quote` writes one.
-/

namespace ScriptJar

inductive Json where
  | null
  | bool (b : Bool)
  /-- A number, as written. -/
  | number (literal : List Char)
  /-- A string; `none` if it is no text. -/
  | string (text : Option String)
  | array (items : List Json)
  /-- An object, with its members in order. -/
  | object (members : List (Option String × Json))
  deriving Repr

namespace Json

/-! ## Strings -/

/-- A piece of a string: a character, or a UTF-16 unit named by an escape. -/
inductive Piece where
  | char (c : Char)
  | unit (n : Nat)
  deriving DecidableEq, Repr

def hexDigit? (c : Char) : Option Nat :=
  if '0' ≤ c ∧ c ≤ '9' then some (c.toNat - '0'.toNat)
  else if 'a' ≤ c ∧ c ≤ 'f' then some (c.toNat - 'a'.toNat + 10)
  else if 'A' ≤ c ∧ c ≤ 'F' then some (c.toNat - 'A'.toNat + 10)
  else none

def hexUnit? (a b c d : Char) : Option Nat :=
  match hexDigit? a, hexDigit? b, hexDigit? c, hexDigit? d with
  | some a, some b, some c, some d => some (((16 * a + b) * 16 + c) * 16 + d)
  | _, _, _, _ => none

def escaped? : Char → Option Char
  | '"' => some '"'
  | '\\' => some '\\'
  | '/' => some '/'
  | 'b' => some '\x08'
  | 'f' => some '\x0c'
  | 'n' => some '\n'
  | 'r' => some '\r'
  | 't' => some '\t'
  | _ => none

/-- The pieces of a string after its opening quote, and what follows the closing
    one.  Control characters must be escaped. -/
def readString : List Char → Option (List Piece × List Char)
  | [] => none
  | '"' :: rest => some ([], rest)
  | '\\' :: 'u' :: a :: b :: c :: d :: rest =>
    match hexUnit? a b c d with
    | none => none
    | some n => (readString rest).map fun (ps, after) => (.unit n :: ps, after)
  | '\\' :: e :: rest =>
    match escaped? e with
    | none => none
    | some c => (readString rest).map fun (ps, after) => (.char c :: ps, after)
  | c :: rest =>
    if c.toNat < 0x20 then none
    else (readString rest).map fun (ps, after) => (.char c :: ps, after)

/-- Whether a unit is the first half of a pair. -/
def isLead (n : Nat) : Bool := 0xD800 ≤ n && n ≤ 0xDBFF

/-- Whether a unit is the second half of a pair. -/
def isTrail (n : Nat) : Bool := 0xDC00 ≤ n && n ≤ 0xDFFF

/-- The text of pieces; there is none if half a pair stands alone. -/
def textOf? : List Piece → Option (List Char)
  | [] => some []
  | .char c :: rest => (textOf? rest).map (c :: ·)
  | .unit n :: .unit m :: rest =>
    if isLead n && isTrail m then
      (textOf? rest).map (Char.ofNat (0x10000 + 0x400 * (n - 0xD800) + (m - 0xDC00)) :: ·)
    else if isLead n || isTrail n then none
    else (textOf? (.unit m :: rest)).map (Char.ofNat n :: ·)
  | .unit n :: rest =>
    if isLead n || isTrail n then none else (textOf? rest).map (Char.ofNat n :: ·)

def controlEscape (c : Char) : List Char :=
  ['\\', 'u', '0', '0', Nat.digitChar (c.toNat / 16), Nat.digitChar (c.toNat % 16)]

/-- A character as it stands in a string: quotes, backslashes and control
    characters are escaped, everything else stands for itself. -/
def quoteChar (c : Char) : List Char :=
  if c = '"' then ['\\', '"']
  else if c = '\\' then ['\\', '\\']
  else if c = '\x08' then ['\\', 'b']
  else if c = '\x0c' then ['\\', 'f']
  else if c = '\n' then ['\\', 'n']
  else if c = '\r' then ['\\', 'r']
  else if c = '\t' then ['\\', 't']
  else if c.toNat < 0x20 then controlEscape c
  else [c]

def quote (s : String) : String :=
  String.ofList ('"' :: s.toList.flatMap quoteChar ++ ['"'])

end Json

end ScriptJar

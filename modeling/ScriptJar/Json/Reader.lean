import ScriptJar.Json.Basic

/-! # Reading JSON

`Json.read` reads a text that is one JSON value between blanks, and nothing else.
Values may be nested to any depth; the readers take a bound on the number of their
calls inside one another, which the length of the text gives.
-/

namespace ScriptJar.Json

/-- The blanks that may stand between the signs of JSON. -/
def isSpace (c : Char) : Bool :=
  c == ' ' || c == '\t' || c == '\n' || c == '\r'

def skipSpace (s : List Char) : List Char :=
  s.dropWhile isSpace

/-! ## Numbers -/

/-- A run of at least one digit, and what follows. -/
def takeDigits? (s : List Char) : Option (List Char × List Char) :=
  if (s.takeWhile Char.isDigit).isEmpty then none
  else some (s.takeWhile Char.isDigit, s.dropWhile Char.isDigit)

/-- The integer part, which has no leading zero. -/
def takeInteger? (s : List Char) : Option (List Char × List Char) :=
  match takeDigits? s with
  | some ('0' :: _ :: _, _) => none
  | taken => taken

/-- The fraction, if a point is there. -/
def takeFraction? (s : List Char) : Option (List Char × List Char) :=
  match s with
  | '.' :: rest => (takeDigits? rest).map fun (ds, after) => ('.' :: ds, after)
  | _ => some ([], s)

def takeSign (s : List Char) : List Char × List Char :=
  match s with
  | '+' :: rest => (['+'], rest)
  | '-' :: rest => (['-'], rest)
  | _ => ([], s)

def takeExponent? (s : List Char) : Option (List Char × List Char) :=
  match s with
  | c :: rest =>
    if c = 'e' ∨ c = 'E' then
      let (sign, digits) := takeSign rest
      (takeDigits? digits).map fun (ds, after) => (c :: sign ++ ds, after)
    else some ([], s)
  | [] => some ([], [])

def takeUnsigned? (s : List Char) : Option (List Char × List Char) :=
  match takeInteger? s with
  | none => none
  | some (whole, rest) =>
    match takeFraction? rest with
    | none => none
    | some (fraction, rest) =>
      (takeExponent? rest).map fun (exponent, after) => (whole ++ fraction ++ exponent, after)

/-- A number, as written, and what follows. -/
def takeNumber? (s : List Char) : Option (List Char × List Char) :=
  match s with
  | '-' :: rest => (takeUnsigned? rest).map fun (digits, after) => ('-' :: digits, after)
  | _ => takeUnsigned? s

/-! ## Values -/

/-- A string after its opening quote, with its text if it has one. -/
def readText? (s : List Char) : Option (Option String × List Char) :=
  (readString s).map fun (pieces, after) => ((textOf? pieces).map String.ofList, after)

def words : List (String × Json) :=
  [("null", .null), ("true", .bool true), ("false", .bool false)]

def readPlain (s : List Char) : Option (Json × List Char) :=
  let word := words.findSome? fun (word, value) =>
    (Text.after? word.toList s).map fun rest => (value, rest)
  match word with
  | some read => some read
  | none => (takeNumber? s).map fun (literal, after) => (.number literal, after)

mutual

def readValue : Nat → List Char → Option (Json × List Char)
  | 0, _ => none
  | bound + 1, s =>
    match skipSpace s with
    | '"' :: rest => (readText? rest).map fun (text, after) => (.string text, after)
    | '[' :: rest =>
      match skipSpace rest with
      | ']' :: after => some (.array [], after)
      | _ => (readItems bound rest).map fun (items, after) => (.array items, after)
    | '{' :: rest =>
      match skipSpace rest with
      | '}' :: after => some (.object [], after)
      | _ => (readMembers bound rest).map fun (members, after) => (.object members, after)
    | rest => readPlain rest

/-- The items of an array up to its end, at least one of them. -/
def readItems : Nat → List Char → Option (List Json × List Char)
  | 0, _ => none
  | bound + 1, s =>
    match readValue bound s with
    | none => none
    | some (item, rest) =>
      match skipSpace rest with
      | ',' :: rest => (readItems bound rest).map fun (items, after) => (item :: items, after)
      | ']' :: after => some ([item], after)
      | _ => none

/-- The members of an object up to its end, at least one of them. -/
def readMembers : Nat → List Char → Option (List (Option String × Json) × List Char)
  | 0, _ => none
  | bound + 1, s =>
    match readMember bound s with
    | none => none
    | some (member, rest) =>
      match skipSpace rest with
      | ',' :: rest =>
        (readMembers bound rest).map fun (members, after) => (member :: members, after)
      | '}' :: after => some ([member], after)
      | _ => none

def readMember : Nat → List Char → Option ((Option String × Json) × List Char)
  | 0, _ => none
  | bound + 1, s =>
    match skipSpace s with
    | '"' :: rest =>
      match readText? rest with
      | none => none
      | some (name, rest) =>
        match skipSpace rest with
        | ':' :: rest => (readValue bound rest).map fun (value, after) => ((name, value), after)
        | _ => none
    | _ => none

end

def read (s : List Char) : Option Json :=
  match readValue (3 * s.length + 1) s with
  | none => none
  | some (value, after) => if (skipSpace after).isEmpty then some value else none

end ScriptJar.Json

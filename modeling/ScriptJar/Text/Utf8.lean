/-! # UTF-8

Decoding of bytes.  A byte sequence falls into well-formed characters and
ill-formed pieces, each piece being as long as it could still have become a
character.  `decode?` refuses ill-formed pieces; `decodeLossy` puts the
replacement character for each of them.
-/

namespace ScriptJar.Text.Utf8

/-- Where a decoder stands between two bytes. -/
inductive State where
  | start
  /-- `more + 1` bytes of a character are owed; the next lies from `low` to `high`,
      and `value` is what the bytes before it stand for. -/
  | within (more value low high : Nat)
  deriving DecidableEq, Repr

/-- A byte between characters: what is complete, and where it leads. -/
def first (b : Nat) : List (Option Char) × State :=
  if b < 0x80 then ([some (Char.ofNat b)], .start)
  else if 0xC2 ≤ b ∧ b ≤ 0xDF then ([], .within 0 (b - 0xC0) 0x80 0xBF)
  else if b = 0xE0 then ([], .within 1 (b - 0xE0) 0xA0 0xBF)
  else if b = 0xED then ([], .within 1 (b - 0xE0) 0x80 0x9F)
  else if 0xE1 ≤ b ∧ b ≤ 0xEF then ([], .within 1 (b - 0xE0) 0x80 0xBF)
  else if b = 0xF0 then ([], .within 2 (b - 0xF0) 0x90 0xBF)
  else if 0xF1 ≤ b ∧ b ≤ 0xF3 then ([], .within 2 (b - 0xF0) 0x80 0xBF)
  else if b = 0xF4 then ([], .within 2 (b - 0xF0) 0x80 0x8F)
  else ([none], .start)

/-- A byte: the pieces it completes, and where it leads.  A byte that cannot go on
    with a character ends an ill-formed piece and is read anew. -/
def step : State → Nat → List (Option Char) × State
  | .start, b => first b
  | .within more value low high, b =>
    if low ≤ b ∧ b ≤ high then
      let value := 64 * value + (b - 0x80)
      match more with
      | 0 => ([some (Char.ofNat value)], .start)
      | more + 1 => ([], .within more value 0x80 0xBF)
    else
      let (pieces, next) := first b
      (none :: pieces, next)

/-- The pieces of a byte sequence: characters, and `none` for ill-formed ones. -/
def piecesFrom : State → List UInt8 → List (Option Char)
  | .start, [] => []
  | .within .., [] => [none]
  | state, b :: rest =>
    let (pieces, next) := step state b.toNat
    pieces ++ piecesFrom next rest

def pieces (bytes : List UInt8) : List (Option Char) :=
  piecesFrom .start bytes

def decode? (bytes : List UInt8) : Option (List Char) :=
  (pieces bytes).mapM id

/-- The text of a byte sequence, with the replacement character for each
    ill-formed piece. -/
def decodeLossy (bytes : List UInt8) : List Char :=
  (pieces bytes).map (·.getD '�')

end ScriptJar.Text.Utf8

/-! # SHA-256 digests

The digest of a byte sequence: the message is padded to blocks of 64 bytes, and
each block is mixed into a state of eight words in 64 rounds.  A round takes one
word of the block's schedule, of which the last sixteen words are kept.
-/

namespace ScriptJar.Digest

def constants : List UInt32 := [
  0x428a2f98, 0x71374491, 0xb5c0fbcf, 0xe9b5dba5, 0x3956c25b, 0x59f111f1, 0x923f82a4, 0xab1c5ed5,
  0xd807aa98, 0x12835b01, 0x243185be, 0x550c7dc3, 0x72be5d74, 0x80deb1fe, 0x9bdc06a7, 0xc19bf174,
  0xe49b69c1, 0xefbe4786, 0x0fc19dc6, 0x240ca1cc, 0x2de92c6f, 0x4a7484aa, 0x5cb0a9dc, 0x76f988da,
  0x983e5152, 0xa831c66d, 0xb00327c8, 0xbf597fc7, 0xc6e00bf3, 0xd5a79147, 0x06ca6351, 0x14292967,
  0x27b70a85, 0x2e1b2138, 0x4d2c6dfc, 0x53380d13, 0x650a7354, 0x766a0abb, 0x81c2c92e, 0x92722c85,
  0xa2bfe8a1, 0xa81a664b, 0xc24b8b70, 0xc76c51a3, 0xd192e819, 0xd6990624, 0xf40e3585, 0x106aa070,
  0x19a4c116, 0x1e376c08, 0x2748774c, 0x34b0bcb5, 0x391c0cb3, 0x4ed8aa4a, 0x5b9cca4f, 0x682e6ff3,
  0x748f82ee, 0x78a5636f, 0x84c87814, 0x8cc70208, 0x90befffa, 0xa4506ceb, 0xbef9a3f7, 0xc67178f2]

def initial : List UInt32 := [
  0x6a09e667, 0xbb67ae85, 0x3c6ef372, 0xa54ff53a, 0x510e527f, 0x9b05688c, 0x1f83d9ab, 0x5be0cd19]

/-- A word turned right by `n` bits, `n` from 1 to 31. -/
def rotate (x n : UInt32) : UInt32 :=
  (x >>> n) ||| (x <<< (32 - n))

/-- The word of the schedule after sixteen given ones. -/
def scheduled (window : List UInt32) : UInt32 :=
  let near := window.getD 1 0
  let far := window.getD 14 0
  let small := rotate near 7 ^^^ rotate near 18 ^^^ (near >>> 3)
  let large := rotate far 17 ^^^ rotate far 19 ^^^ (far >>> 10)
  window.getD 0 0 + small + window.getD 9 0 + large

/-- A round: mixes the first word of the window and a constant into the state, and
    moves the window on. -/
def round : List UInt32 × List UInt32 → UInt32 → List UInt32 × List UInt32
  | ([a, b, c, d, e, f, g, h], window), k =>
    let choice := (e &&& f) ^^^ (~~~e &&& g)
    let majority := (a &&& b) ^^^ (a &&& c) ^^^ (b &&& c)
    let upper := rotate a 2 ^^^ rotate a 13 ^^^ rotate a 22
    let lower := rotate e 6 ^^^ rotate e 11 ^^^ rotate e 25
    let mixed := h + lower + choice + k + window.getD 0 0
    ([mixed + (upper + majority), a, b, c, d + mixed, e, f, g],
      window.drop 1 ++ [scheduled window])
  | other, _ => other

def compress (state block : List UInt32) : List UInt32 :=
  List.zipWith (· + ·) state (constants.foldl round (state, block)).1

def bigEndian : Nat → Nat → List UInt8
  | 0, _ => []
  | count + 1, n => bigEndian count (n / 256) ++ [UInt8.ofNat n]

/-- The message with a one bit, zeros, and its length in bits. -/
def pad (message : List UInt8) : List UInt8 :=
  let size := message.length
  message ++ 0x80 :: List.replicate ((119 - size % 64) % 64) 0 ++ bigEndian 8 (8 * size)

def words : List UInt8 → List UInt32
  | a :: b :: c :: d :: rest =>
    ((a.toUInt32 <<< 24) ||| (b.toUInt32 <<< 16) ||| (c.toUInt32 <<< 8) ||| d.toUInt32)
      :: words rest
  | _ => []

/-- Mixes blocks of sixteen words into a state, `count` of them. -/
def absorb : Nat → List UInt32 → List UInt32 → List UInt32
  | 0, state, _ => state
  | count + 1, state, ws => absorb count (compress state (ws.take 16)) (ws.drop 16)

def sha256 (message : List UInt8) : List UInt8 :=
  let ws := words (pad message)
  (absorb (ws.length / 16) initial ws).flatMap fun w => bigEndian 4 w.toNat

def hex (bytes : List UInt8) : List Char :=
  bytes.flatMap fun b => [Nat.digitChar (b.toNat / 16), Nat.digitChar (b.toNat % 16)]

end ScriptJar.Digest

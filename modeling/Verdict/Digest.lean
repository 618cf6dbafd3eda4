import Verdict.Number.Power

/-!
# Digest — SHA-256

The message is padded to whole blocks of 64 bytes, and each block is compressed into the state of
eight words.
-/

namespace Verdict.Digest

/-- The round constants. -/
def roundConstants : List UInt32 := [
  0x428a2f98, 0x71374491, 0xb5c0fbcf, 0xe9b5dba5, 0x3956c25b, 0x59f111f1, 0x923f82a4, 0xab1c5ed5,
  0xd807aa98, 0x12835b01, 0x243185be, 0x550c7dc3, 0x72be5d74, 0x80deb1fe, 0x9bdc06a7, 0xc19bf174,
  0xe49b69c1, 0xefbe4786, 0x0fc19dc6, 0x240ca1cc, 0x2de92c6f, 0x4a7484aa, 0x5cb0a9dc, 0x76f988da,
  0x983e5152, 0xa831c66d, 0xb00327c8, 0xbf597fc7, 0xc6e00bf3, 0xd5a79147, 0x06ca6351, 0x14292967,
  0x27b70a85, 0x2e1b2138, 0x4d2c6dfc, 0x53380d13, 0x650a7354, 0x766a0abb, 0x81c2c92e, 0x92722c85,
  0xa2bfe8a1, 0xa81a664b, 0xc24b8b70, 0xc76c51a3, 0xd192e819, 0xd6990624, 0xf40e3585, 0x106aa070,
  0x19a4c116, 0x1e376c08, 0x2748774c, 0x34b0bcb5, 0x391c0cb3, 0x4ed8aa4a, 0x5b9cca4f, 0x682e6ff3,
  0x748f82ee, 0x78a5636f, 0x84c87814, 0x8cc70208, 0x90befffa, 0xa4506ceb, 0xbef9a3f7, 0xc67178f2]

/-- The eight working words. -/
structure Words where
  a : UInt32
  b : UInt32
  c : UInt32
  d : UInt32
  e : UInt32
  f : UInt32
  g : UInt32
  h : UInt32
  deriving DecidableEq, Repr

/-- The words at the start. -/
def Words.initial : Words :=
  ⟨0x6a09e667, 0xbb67ae85, 0x3c6ef372, 0xa54ff53a, 0x510e527f, 0x9b05688c, 0x1f83d9ab, 0x5be0cd19⟩

/-- Word by word addition. -/
def Words.add (x y : Words) : Words :=
  ⟨x.a + y.a, x.b + y.b, x.c + y.c, x.d + y.d, x.e + y.e, x.f + y.f, x.g + y.g, x.h + y.h⟩

/-- Turn a word to the right. -/
def turnRight (x : UInt32) (n : UInt32) : UInt32 := (x >>> n) ||| (x <<< (32 - n))

/-- One round with a word of the schedule and a constant. -/
def Words.round (x : Words) (w k : UInt32) : Words :=
  let s1 := turnRight x.e 6 ^^^ turnRight x.e 11 ^^^ turnRight x.e 25
  let choice := (x.e &&& x.f) ^^^ ((~~~ x.e) &&& x.g)
  let t1 := x.h + s1 + choice + k + w
  let s0 := turnRight x.a 2 ^^^ turnRight x.a 13 ^^^ turnRight x.a 22
  let majority := (x.a &&& x.b) ^^^ (x.a &&& x.c) ^^^ (x.b &&& x.c)
  ⟨t1 + (s0 + majority), x.a, x.b, x.c, x.d + t1, x.e, x.f, x.g⟩

/-- Extend the schedule, kept with the latest word first, by so many words. -/
def extend : Nat → List UInt32 → List UInt32
  | 0, ws => ws
  | n + 1, ws =>
    let word (i : Nat) : UInt32 := ws.getD i 0
    let x := word 14
    let y := word 1
    let s0 := turnRight x 7 ^^^ turnRight x 18 ^^^ (x >>> 3)
    let s1 := turnRight y 17 ^^^ turnRight y 19 ^^^ (y >>> 10)
    extend n ((word 15 + s0 + word 6 + s1) :: ws)

/-- Compress one block of sixteen words. -/
def compress (state : Words) (block : List UInt32) : Words :=
  let schedule := (extend 48 block.reverse).reverse
  state.add ((schedule.zip roundConstants).foldl (fun x (w, k) => x.round w k) state)

/-- A number as bytes, the most significant first. -/
def bytesOf (count n : Nat) : List UInt8 :=
  (List.range count).reverse.map fun i => UInt8.ofNat (n / twoTo (8 * i) % 256)

/-- A message followed by a one bit, zeros and its length in bits. -/
def pad (message : List UInt8) : List UInt8 :=
  let zeros := (119 - message.length % 64) % 64
  message ++ [0x80] ++ List.replicate zeros 0 ++ bytesOf 8 (8 * message.length)

/-- Bytes as words. -/
def wordsOf : List UInt8 → List UInt32
  | a :: b :: c :: d :: rest =>
    (a.toUInt32 <<< 24 ||| b.toUInt32 <<< 16 ||| c.toUInt32 <<< 8 ||| d.toUInt32) :: wordsOf rest
  | _ => []

/-- Compress the blocks of a list of words; `fuel` bounds their number. -/
def compressAll : Nat → Words → List UInt32 → Words
  | 0, state, _ => state
  | fuel + 1, state, ws =>
    if ws.isEmpty then state else compressAll fuel (compress state (ws.take 16)) (ws.drop 16)

/-- A word as eight hexadecimal digits. -/
def wordText (w : UInt32) : String :=
  let digits := Nat.toDigits 16 w.toNat
  String.ofList (List.replicate (8 - digits.length) '0' ++ digits)

/-- The digest of bytes, in hexadecimal. -/
def sha256 (message : List UInt8) : String :=
  let ws := wordsOf (pad message)
  let x := compressAll ws.length .initial ws
  String.join ([x.a, x.b, x.c, x.d, x.e, x.f, x.g, x.h].map wordText)

/-- The digest of a text in UTF-8. -/
def ofText (s : String) : String := sha256 s.toUTF8.toList

end Verdict.Digest

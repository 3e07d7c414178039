import LayoutWatch.Bytes
import LayoutWatch.Text.Numeral

/-!
# Digests

The 256-bit digest by which a binary is recognised. The message is padded to blocks of 64 bytes,
and each block is mixed into eight words in sixty-four rounds.
-/

namespace LayoutWatch.Digest

/-- Word added in each of the sixty-four rounds. -/
def roundWords : Array UInt32 := #[
  0x428a2f98, 0x71374491, 0xb5c0fbcf, 0xe9b5dba5, 0x3956c25b, 0x59f111f1, 0x923f82a4, 0xab1c5ed5,
  0xd807aa98, 0x12835b01, 0x243185be, 0x550c7dc3, 0x72be5d74, 0x80deb1fe, 0x9bdc06a7, 0xc19bf174,
  0xe49b69c1, 0xefbe4786, 0x0fc19dc6, 0x240ca1cc, 0x2de92c6f, 0x4a7484aa, 0x5cb0a9dc, 0x76f988da,
  0x983e5152, 0xa831c66d, 0xb00327c8, 0xbf597fc7, 0xc6e00bf3, 0xd5a79147, 0x06ca6351, 0x14292967,
  0x27b70a85, 0x2e1b2138, 0x4d2c6dfc, 0x53380d13, 0x650a7354, 0x766a0abb, 0x81c2c92e, 0x92722c85,
  0xa2bfe8a1, 0xa81a664b, 0xc24b8b70, 0xc76c51a3, 0xd192e819, 0xd6990624, 0xf40e3585, 0x106aa070,
  0x19a4c116, 0x1e376c08, 0x2748774c, 0x34b0bcb5, 0x391c0cb3, 0x4ed8aa4a, 0x5b9cca4f, 0x682e6ff3,
  0x748f82ee, 0x78a5636f, 0x84c87814, 0x8cc70208, 0x90befffa, 0xa4506ceb, 0xbef9a3f7, 0xc67178f2]

/-- The eight words of a digest in the making. -/
structure State where
  /-- First word. -/
  a : UInt32
  /-- Second word. -/
  b : UInt32
  /-- Third word. -/
  c : UInt32
  /-- Fourth word. -/
  d : UInt32
  /-- Fifth word. -/
  e : UInt32
  /-- Sixth word. -/
  f : UInt32
  /-- Seventh word. -/
  g : UInt32
  /-- Eighth word. -/
  h : UInt32

/-- The words before the first block. -/
def State.start : State :=
  ⟨0x6a09e667, 0xbb67ae85, 0x3c6ef372, 0xa54ff53a, 0x510e527f, 0x9b05688c, 0x1f83d9ab, 0x5be0cd19⟩

/-- Word by word sum of two states. -/
def State.add (s t : State) : State :=
  ⟨s.a + t.a, s.b + t.b, s.c + t.c, s.d + t.d, s.e + t.e, s.f + t.f, s.g + t.g, s.h + t.h⟩

/-- The words of a state in order. -/
def State.words (s : State) : List UInt32 := [s.a, s.b, s.c, s.d, s.e, s.f, s.g, s.h]

/-- Rotate a word to the right. -/
def rotate (x : UInt32) (places : UInt32) : UInt32 := (x >>> places) ||| (x <<< (32 - places))

/-- One round with the sum of its two words. -/
def State.round (s : State) (word : UInt32) : State :=
  let mixE := rotate s.e 6 ^^^ rotate s.e 11 ^^^ rotate s.e 25
  let choice := (s.e &&& s.f) ^^^ (~~~s.e &&& s.g)
  let first := s.h + mixE + choice + word
  let mixA := rotate s.a 2 ^^^ rotate s.a 13 ^^^ rotate s.a 22
  let majority := (s.a &&& s.b) ^^^ (s.a &&& s.c) ^^^ (s.b &&& s.c)
  ⟨first + (mixA + majority), s.a, s.b, s.c, s.d + first, s.e, s.f, s.g⟩

/-- The big-endian word of four bytes. -/
def bigEndian (bytes : List UInt8) : UInt32 :=
  bytes.foldl (fun value b => value * 256 + b.toUInt32) 0

/-- A message behind a one bit, zeros, and its length in bits. -/
def padded (bytes : Bytes) : Bytes :=
  let zeros := (119 - bytes.size % 64) % 64
  let length := (List.range 8).map fun i => UInt8.ofNat (bytes.size * 8 / wordCount (7 - i))
  bytes.push 0x80 ++ Array.replicate zeros 0 ++ length.toArray

/-- The word of a round, made from those of earlier rounds. -/
def nextWord (words : Array UInt32) : UInt32 :=
  let back (n : Nat) : UInt32 := words.getD (words.size - n) 0
  let near := rotate (back 2) 17 ^^^ rotate (back 2) 19 ^^^ (back 2 >>> 10)
  let far := rotate (back 15) 7 ^^^ rotate (back 15) 18 ^^^ (back 15 >>> 3)
  near + back 7 + far + back 16

/-- The words of the sixty-four rounds of the block at an offset. -/
def schedule (message : Bytes) (offset : Nat) : Array UInt32 :=
  let first := (Array.range 16).map fun i =>
    bigEndian (message.within ⟨offset + 4 * i, offset + 4 * i + 4⟩)
  (List.range 48).foldl (fun words _ => words.push (nextWord words)) first

/-- Mix the block at an offset into a state. -/
def block (message : Bytes) (s : State) (offset : Nat) : State :=
  s.add (((schedule message offset).zipWith (· + ·) roundWords).foldl State.round s)

/-- The digest of a file as sixty-four lower-case digits. -/
def ofBytes (bytes : Bytes) : String :=
  let message := padded bytes
  let final := (List.range (message.size / 64)).foldl (fun s i => block message s (64 * i)) .start
  String.join (final.words.map fun word => Text.padLeft '0' 8 (Text.hexDigits word.toNat))

end LayoutWatch.Digest

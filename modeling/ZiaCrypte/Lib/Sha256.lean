import ZiaCrypte.Lib.Hkdf
import Mathlib.Algebra.Group.Nat.Defs

/-!
# SHA-256

As in FIPS 180-4.
-/
namespace ZiaCrypte.Lib

namespace Sha256

/-- The first 32 bits of the fractional parts of the cube roots of the first 64 primes. -/
def roundConstants : List UInt32 :=
  [0x428a2f98, 0x71374491, 0xb5c0fbcf, 0xe9b5dba5, 0x3956c25b, 0x59f111f1, 0x923f82a4, 0xab1c5ed5,
    0xd807aa98, 0x12835b01, 0x243185be, 0x550c7dc3, 0x72be5d74, 0x80deb1fe, 0x9bdc06a7, 0xc19bf174,
    0xe49b69c1, 0xefbe4786, 0x0fc19dc6, 0x240ca1cc, 0x2de92c6f, 0x4a7484aa, 0x5cb0a9dc, 0x76f988da,
    0x983e5152, 0xa831c66d, 0xb00327c8, 0xbf597fc7, 0xc6e00bf3, 0xd5a79147, 0x06ca6351, 0x14292967,
    0x27b70a85, 0x2e1b2138, 0x4d2c6dfc, 0x53380d13, 0x650a7354, 0x766a0abb, 0x81c2c92e, 0x92722c85,
    0xa2bfe8a1, 0xa81a664b, 0xc24b8b70, 0xc76c51a3, 0xd192e819, 0xd6990624, 0xf40e3585, 0x106aa070,
    0x19a4c116, 0x1e376c08, 0x2748774c, 0x34b0bcb5, 0x391c0cb3, 0x4ed8aa4a, 0x5b9cca4f, 0x682e6ff3,
    0x748f82ee, 0x78a5636f, 0x84c87814, 0x8cc70208, 0x90befffa, 0xa4506ceb, 0xbef9a3f7, 0xc67178f2]

/-- The eight working words. -/
structure Words where
  a : UInt32
  b : UInt32
  c : UInt32
  d : UInt32
  e : UInt32
  f : UInt32
  g : UInt32
  h : UInt32

def initial : Words :=
  ⟨0x6a09e667, 0xbb67ae85, 0x3c6ef372, 0xa54ff53a, 0x510e527f, 0x9b05688c, 0x1f83d9ab, 0x5be0cd19⟩

def rotr (x n : UInt32) : UInt32 := (x >>> n) ||| (x <<< (32 - n))

def wordBytes (w : UInt32) : List UInt8 :=
  [(w >>> 24).toUInt8, (w >>> 16).toUInt8, (w >>> 8).toUInt8, w.toUInt8]

def Words.bytes (s : Words) : List UInt8 :=
  [s.a, s.b, s.c, s.d, s.e, s.f, s.g, s.h].flatMap wordBytes

def Words.add (s t : Words) : Words :=
  ⟨s.a + t.a, s.b + t.b, s.c + t.c, s.d + t.d, s.e + t.e, s.f + t.f, s.g + t.g, s.h + t.h⟩

/-- One round with its constant and the word of the schedule. -/
def Words.round (s : Words) (k w : UInt32) : Words :=
  let sum1 := rotr s.e 6 ^^^ rotr s.e 11 ^^^ rotr s.e 25
  let ch := (s.e &&& s.f) ^^^ (~~~s.e &&& s.g)
  let t1 := s.h + sum1 + ch + k + w
  let sum0 := rotr s.a 2 ^^^ rotr s.a 13 ^^^ rotr s.a 22
  let maj := (s.a &&& s.b) ^^^ (s.a &&& s.c) ^^^ (s.b &&& s.c)
  ⟨t1 + (sum0 + maj), s.a, s.b, s.c, s.d + t1, s.e, s.f, s.g⟩

/-- The next words of the schedule, the latest first. -/
def schedule : Nat → List UInt32 → List UInt32
  | 0, ws => ws
  | n + 1, ws =>
      let s1 := fun x => rotr x 17 ^^^ rotr x 19 ^^^ (x >>> 10)
      let s0 := fun x => rotr x 7 ^^^ rotr x 18 ^^^ (x >>> 3)
      schedule n ((s1 (ws.getD 1 0) + ws.getD 6 0 + s0 (ws.getD 14 0) + ws.getD 15 0) :: ws)

def word (bs : List UInt8) : UInt32 := bs.foldl (fun w b => (w <<< 8) ||| b.toUInt32) 0

/-- The words of a block of 64 bytes, the latest first. -/
def blockWords : Nat → List UInt8 → List UInt32 → List UInt32
  | 0, _, ws => ws
  | n + 1, bs, ws => blockWords n (bs.drop 4) (word (bs.take 4) :: ws)

def Words.compress (s : Words) (block : List UInt8) : Words :=
  let ws := (schedule 48 (blockWords 16 block [])).reverse
  s.add ((roundConstants.zip ws).foldl (fun s kw => s.round kw.1 kw.2) s)

/-- A one, zeros up to a length of 56 modulo 64, and the number of bits in eight bytes. -/
def pad (m : List UInt8) : List UInt8 :=
  let bits := 8 * m.length
  m ++ 0x80 :: List.replicate ((119 - m.length % 64) % 64) 0 ++
    (List.range 8).reverse.map fun i => UInt8.ofNat (bits / 256 ^ i)

def blocks : Nat → List UInt8 → Words → Words
  | 0, _, s => s
  | n + 1, bs, s => blocks n (bs.drop 64) (s.compress (bs.take 64))

def digest (m : List UInt8) : List UInt8 :=
  (blocks ((pad m).length / 64) (pad m) initial).bytes

end Sha256

def sha256 : Hash where
  block := 64
  len := 32
  hash := Sha256.digest
  length_hash _ := rfl
  len_pos := by decide
  len_le_block := by decide

example : sha256.hash [0x61, 0x62, 0x63] =
    [0xba, 0x78, 0x16, 0xbf, 0x8f, 0x01, 0xcf, 0xea, 0x41, 0x41, 0x40, 0xde, 0x5d, 0xae, 0x22, 0x23,
      0xb0, 0x03, 0x61, 0xa3, 0x96, 0x17, 0x7a, 0x9c, 0xb4, 0x10, 0xff, 0x61, 0xf2, 0x00, 0x15,
      0xad] := by
  decide +kernel

end ZiaCrypte.Lib

import ZiaCrypte.Lib.Hkdf
import Mathlib.Algebra.Group.Nat.Defs

/-!
# SHA-512

As in FIPS 180-4.
-/
namespace ZiaCrypte.Lib

namespace Sha512

/-- The first 64 bits of the fractional parts of the cube roots of the first 80 primes. -/
def roundConstants : List UInt64 :=
  [0x428a2f98d728ae22, 0x7137449123ef65cd, 0xb5c0fbcfec4d3b2f, 0xe9b5dba58189dbbc,
    0x3956c25bf348b538, 0x59f111f1b605d019, 0x923f82a4af194f9b, 0xab1c5ed5da6d8118,
    0xd807aa98a3030242, 0x12835b0145706fbe, 0x243185be4ee4b28c, 0x550c7dc3d5ffb4e2,
    0x72be5d74f27b896f, 0x80deb1fe3b1696b1, 0x9bdc06a725c71235, 0xc19bf174cf692694,
    0xe49b69c19ef14ad2, 0xefbe4786384f25e3, 0x0fc19dc68b8cd5b5, 0x240ca1cc77ac9c65,
    0x2de92c6f592b0275, 0x4a7484aa6ea6e483, 0x5cb0a9dcbd41fbd4, 0x76f988da831153b5,
    0x983e5152ee66dfab, 0xa831c66d2db43210, 0xb00327c898fb213f, 0xbf597fc7beef0ee4,
    0xc6e00bf33da88fc2, 0xd5a79147930aa725, 0x06ca6351e003826f, 0x142929670a0e6e70,
    0x27b70a8546d22ffc, 0x2e1b21385c26c926, 0x4d2c6dfc5ac42aed, 0x53380d139d95b3df,
    0x650a73548baf63de, 0x766a0abb3c77b2a8, 0x81c2c92e47edaee6, 0x92722c851482353b,
    0xa2bfe8a14cf10364, 0xa81a664bbc423001, 0xc24b8b70d0f89791, 0xc76c51a30654be30,
    0xd192e819d6ef5218, 0xd69906245565a910, 0xf40e35855771202a, 0x106aa07032bbd1b8,
    0x19a4c116b8d2d0c8, 0x1e376c085141ab53, 0x2748774cdf8eeb99, 0x34b0bcb5e19b48a8,
    0x391c0cb3c5c95a63, 0x4ed8aa4ae3418acb, 0x5b9cca4f7763e373, 0x682e6ff3d6b2b8a3,
    0x748f82ee5defb2fc, 0x78a5636f43172f60, 0x84c87814a1f0ab72, 0x8cc702081a6439ec,
    0x90befffa23631e28, 0xa4506cebde82bde9, 0xbef9a3f7b2c67915, 0xc67178f2e372532b,
    0xca273eceea26619c, 0xd186b8c721c0c207, 0xeada7dd6cde0eb1e, 0xf57d4f7fee6ed178,
    0x06f067aa72176fba, 0x0a637dc5a2c898a6, 0x113f9804bef90dae, 0x1b710b35131c471b,
    0x28db77f523047d84, 0x32caab7b40c72493, 0x3c9ebe0a15c9bebc, 0x431d67c49c100d4c,
    0x4cc5d4becb3e42b6, 0x597f299cfc657e2a, 0x5fcb6fab3ad6faec, 0x6c44198c4a475817]

/-- The eight working words. -/
structure Words where
  a : UInt64
  b : UInt64
  c : UInt64
  d : UInt64
  e : UInt64
  f : UInt64
  g : UInt64
  h : UInt64

def initial : Words :=
  ⟨0x6a09e667f3bcc908, 0xbb67ae8584caa73b, 0x3c6ef372fe94f82b, 0xa54ff53a5f1d36f1,
    0x510e527fade682d1, 0x9b05688c2b3e6c1f, 0x1f83d9abfb41bd6b, 0x5be0cd19137e2179⟩

def rotr (x n : UInt64) : UInt64 := (x >>> n) ||| (x <<< (64 - n))

def wordBytes (w : UInt64) : List UInt8 :=
  [(w >>> 56).toUInt8, (w >>> 48).toUInt8, (w >>> 40).toUInt8, (w >>> 32).toUInt8,
    (w >>> 24).toUInt8, (w >>> 16).toUInt8, (w >>> 8).toUInt8, w.toUInt8]

def Words.bytes (s : Words) : List UInt8 :=
  [s.a, s.b, s.c, s.d, s.e, s.f, s.g, s.h].flatMap wordBytes

def Words.add (s t : Words) : Words :=
  ⟨s.a + t.a, s.b + t.b, s.c + t.c, s.d + t.d, s.e + t.e, s.f + t.f, s.g + t.g, s.h + t.h⟩

/-- One round with its constant and the word of the schedule. -/
def Words.round (s : Words) (k w : UInt64) : Words :=
  let sum1 := rotr s.e 14 ^^^ rotr s.e 18 ^^^ rotr s.e 41
  let ch := (s.e &&& s.f) ^^^ (~~~s.e &&& s.g)
  let t1 := s.h + sum1 + ch + k + w
  let sum0 := rotr s.a 28 ^^^ rotr s.a 34 ^^^ rotr s.a 39
  let maj := (s.a &&& s.b) ^^^ (s.a &&& s.c) ^^^ (s.b &&& s.c)
  ⟨t1 + (sum0 + maj), s.a, s.b, s.c, s.d + t1, s.e, s.f, s.g⟩

/-- The next words of the schedule, the latest first. -/
def schedule : Nat → List UInt64 → List UInt64
  | 0, ws => ws
  | n + 1, ws =>
      let s1 := fun x => rotr x 19 ^^^ rotr x 61 ^^^ (x >>> 6)
      let s0 := fun x => rotr x 1 ^^^ rotr x 8 ^^^ (x >>> 7)
      schedule n ((s1 (ws.getD 1 0) + ws.getD 6 0 + s0 (ws.getD 14 0) + ws.getD 15 0) :: ws)

def word (bs : List UInt8) : UInt64 := bs.foldl (fun w b => (w <<< 8) ||| b.toUInt64) 0

/-- The words of a block of 128 bytes, the latest first. -/
def blockWords : Nat → List UInt8 → List UInt64 → List UInt64
  | 0, _, ws => ws
  | n + 1, bs, ws => blockWords n (bs.drop 8) (word (bs.take 8) :: ws)

def Words.compress (s : Words) (block : List UInt8) : Words :=
  let ws := (schedule 64 (blockWords 16 block [])).reverse
  s.add ((roundConstants.zip ws).foldl (fun s kw => s.round kw.1 kw.2) s)

/-- A one, zeros up to a length of 112 modulo 128, and the number of bits in sixteen bytes. -/
def pad (m : List UInt8) : List UInt8 :=
  let bits := 8 * m.length
  m ++ 0x80 :: List.replicate ((239 - m.length % 128) % 128) 0 ++
    (List.range 16).reverse.map fun i => UInt8.ofNat (bits / 256 ^ i)

def blocks : Nat → List UInt8 → Words → Words
  | 0, _, s => s
  | n + 1, bs, s => blocks n (bs.drop 128) (s.compress (bs.take 128))

def digest (m : List UInt8) : List UInt8 :=
  (blocks ((pad m).length / 128) (pad m) initial).bytes

end Sha512

def sha512 : Hash where
  block := 128
  len := 64
  hash := Sha512.digest
  length_hash _ := rfl
  len_pos := by decide
  len_le_block := by decide

example : sha512.hash [0x61, 0x62, 0x63] =
    [0xdd, 0xaf, 0x35, 0xa1, 0x93, 0x61, 0x7a, 0xba, 0xcc, 0x41, 0x73, 0x49, 0xae, 0x20, 0x41, 0x31,
      0x12, 0xe6, 0xfa, 0x4e, 0x89, 0xa9, 0x7e, 0xa2, 0x0a, 0x9e, 0xee, 0xe6, 0x4b, 0x55, 0xd3, 0x9a,
      0x21, 0x92, 0x99, 0x2a, 0x27, 0x4f, 0xc1, 0xa8, 0x36, 0xba, 0x3c, 0x23, 0xa3, 0xfe, 0xeb, 0xbd,
      0x45, 0x4d, 0x44, 0x23, 0x64, 0x3c, 0xe8, 0x0e, 0x2a, 0x9a, 0xc9, 0x4f, 0xa5, 0x4c, 0xa4, 0x9f] := by
  decide +kernel

end ZiaCrypte.Lib

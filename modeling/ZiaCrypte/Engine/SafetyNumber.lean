import ZiaCrypte.Engine.Hkdf
import ZiaCrypte.Lib.Sha512
import Mathlib.Data.Char
import Mathlib.Data.List.Lex

/-!
# `zia_safety_number`

The thirty digits of each party come from an iterated hash of its key and its identifier; the
two halves are put in order. The three calls of libsodium are parameters.
-/
namespace ZiaCrypte.Engine

open ZiaCrypte.Lib (sha512)

/-- `crypto_hash_sha512_init`, `_update` and `_final`. -/
structure Sha512 (S : Type) where
  init : S
  update : S → Bytes → S
  final : S → FixedBytes 64

/-- As documented: the hash of the pieces, one after the other. -/
def Sha512.Streams {S : Type} (sodium : Sha512 S) (hash : Bytes → FixedBytes 64) : Prop :=
  ∀ pieces : List Bytes, sodium.final (pieces.foldl sodium.update sodium.init) =
    hash pieces.flatten

namespace SafetyNumber

def kBytesUsed : Nat := 30

section Code

variable {S : Type} (sodium : Sha512 S)

/-- One turn: what there is, and the key. -/
def turn (pub state : Bytes) : FixedBytes 64 :=
  sodium.final (sodium.update (sodium.update sodium.init state) pub)

/-- `snprintf(buf, 6, "%05u", group)`, of which five characters are appended. -/
def format05u (group : UInt32) : List Char :=
  ((Nat.toDigits 10 group.toNat).leftpad 5 '0').take 5

/-- Five bytes from the offset, the highest first. -/
def chunk (hash : Bytes) (offset : Nat) : UInt64 :=
  (List.range 5).foldl (fun chunk b => (chunk <<< 8) ||| (hash.getD (offset + b) 0).toUInt64) 0

def group (hash : Bytes) (offset : Nat) : UInt32 := (chunk hash offset % 100000).toUInt32

/-- `for (size_t offset = 0; offset < kBytesUsed; offset += 5)` -/
def digits (hash : Bytes) : List Char :=
  (List.range (kBytesUsed / 5)).flatMap fun i => format05u (group hash (5 * i))

end Code

/-! ## Digits -/

variable {S : Type} {sodium : Sha512 S} {hash : Bytes → FixedBytes 64}

end SafetyNumber

end ZiaCrypte.Engine

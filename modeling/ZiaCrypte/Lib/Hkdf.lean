import Mathlib.Data.List.Basic

/-!
# HMAC and HKDF

Over a hash on byte strings: HMAC as in RFC 2104, and the extraction and the expansion of
RFC 5869.
-/
namespace ZiaCrypte.Lib

/-- A hash with the lengths of its blocks and of its output. -/
structure Hash where
  block : Nat
  len : Nat
  hash : List UInt8 → List UInt8
  length_hash : ∀ m, (hash m).length = len
  len_pos : 0 < len
  len_le_block : len ≤ block

namespace Hash

variable (H : Hash)

/-- A key that is longer than a block is hashed; zeros follow up to the length of a block. -/
def blockKey (key : List UInt8) : List UInt8 :=
  let short := if H.block < key.length then H.hash key else key
  short ++ List.replicate (H.block - short.length) 0

def hmac (key m : List UInt8) : List UInt8 :=
  H.hash ((H.blockKey key).map (· ^^^ 0x5c) ++ H.hash ((H.blockKey key).map (· ^^^ 0x36) ++ m))

@[simp] theorem length_hmac (key m : List UInt8) : (H.hmac key m).length = H.len :=
  H.length_hash _

/-- Zeros at the end of a key that fits make no difference. -/
theorem hmac_append_zeros {key : List UInt8} {n : Nat} (h : key.length + n ≤ H.block)
    (m : List UInt8) : H.hmac (key ++ List.replicate n 0) m = H.hmac key m := by
  have hlength : (key ++ List.replicate n (0 : UInt8)).length = key.length + n := by
    rw [List.length_append, List.length_replicate]
  have hkey : H.blockKey (key ++ List.replicate n 0) = H.blockKey key := by
    unfold blockKey
    rw [if_neg (by omega), if_neg (by omega)]
    dsimp only
    rw [hlength, List.append_assoc, List.replicate_append_replicate]
    congr 2
    omega
  rw [hmac, hmac, hkey]

/-! ## HKDF -/

/-- A salt that is not provided is as many zeros as the hash has bytes. -/
def hkdfExtract (salt ikm : List UInt8) : List UInt8 :=
  H.hmac (if salt = [] then List.replicate H.len 0 else salt) ikm

/-- `T(i)` -/
def hkdfBlock (prk info : List UInt8) : Nat → List UInt8
  | 0 => []
  | i + 1 => H.hmac prk (hkdfBlock prk info i ++ info ++ [UInt8.ofNat (i + 1)])

/-- `T(1) | ... | T(n)` -/
def hkdfBlocks (prk info : List UInt8) (n : Nat) : List UInt8 :=
  (List.range n).flatMap fun i => H.hkdfBlock prk info (i + 1)

/-- The index of a block is one byte: no output is longer than 255 blocks. -/
def hkdfExpand (prk info : List UInt8) (length : Nat) : Option (List UInt8) :=
  if length ≤ 255 * H.len then
    some ((H.hkdfBlocks prk info ((length + H.len - 1) / H.len)).take length)
  else none

def hkdf (salt ikm info : List UInt8) (length : Nat) : Option (List UInt8) :=
  H.hkdfExpand (H.hkdfExtract salt ikm) info length

variable {H} {prk info : List UInt8}

/-- An empty salt is none. -/
theorem hkdfExtract_eq (salt ikm : List UInt8) : H.hkdfExtract salt ikm = H.hmac salt ikm := by
  unfold hkdfExtract
  split
  · rename_i hsalt
    have hfits : ([] : List UInt8).length + H.len ≤ H.block := by
      rw [List.length_nil, Nat.zero_add]
      exact H.len_le_block
    rw [hsalt]
    exact H.hmac_append_zeros hfits ikm
  · rfl

theorem length_hkdfBlock (i : Nat) : (H.hkdfBlock prk info (i + 1)).length = H.len :=
  H.length_hmac _ _

theorem hkdfBlocks_succ (n : Nat) :
    H.hkdfBlocks prk info (n + 1) = H.hkdfBlocks prk info n ++ H.hkdfBlock prk info (n + 1) := by
  rw [hkdfBlocks, List.range_succ, List.flatMap_append, List.flatMap_singleton]
  rfl

theorem length_hkdfBlocks (n : Nat) : (H.hkdfBlocks prk info n).length = n * H.len := by
  induction n with
  | zero => rw [Nat.zero_mul]; rfl
  | succ n ih => rw [hkdfBlocks_succ, List.length_append, ih, length_hkdfBlock, Nat.succ_mul]

/-- More blocks begin with the same ones. -/
theorem hkdfBlocks_prefix {n n' : Nat} (h : n ≤ n') :
    H.hkdfBlocks prk info n <+: H.hkdfBlocks prk info n' := by
  induction h with
  | refl => exact List.prefix_refl _
  | step _ ih =>
    rw [hkdfBlocks_succ]
    exact ih.trans (List.prefix_append _ _)

/-- Any number of blocks that is enough gives the output. -/
theorem hkdfExpand_eq {length n : Nat} (hlength : length ≤ 255 * H.len)
    (hn : length ≤ n * H.len) :
    H.hkdfExpand prk info length = some ((H.hkdfBlocks prk info n).take length) := by
  have hpos := H.len_pos
  rw [hkdfExpand, if_pos hlength]
  have hleast : length ≤ (length + H.len - 1) / H.len * H.len := by
    have hdiv := Nat.div_add_mod (length + H.len - 1) H.len
    have hmod := Nat.mod_lt (length + H.len - 1) hpos
    rw [Nat.mul_comm] at hdiv
    omega
  have hle : (length + H.len - 1) / H.len ≤ n := by
    refine Nat.le_of_lt_succ ((Nat.div_lt_iff_lt_mul hpos).mpr ?_)
    rw [Nat.succ_mul]
    omega
  have hprefix : H.hkdfBlocks prk info _ <+: H.hkdfBlocks prk info n := hkdfBlocks_prefix hle
  obtain ⟨rest, hrest⟩ := hprefix
  rw [← hrest, List.take_append_of_le_length]
  rwa [length_hkdfBlocks]

end Hash

end ZiaCrypte.Lib

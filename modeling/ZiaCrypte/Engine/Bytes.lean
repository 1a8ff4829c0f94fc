import Mathlib.Data.List.GetD

/-!
# Byte buffers of the native engine

`FixedBytes n` is a `uint8_t[n]`: its length is part of the value, so no copy of
`n` bytes out of one can read past its end. Counters travel as four
little-endian bytes.
-/
namespace ZiaCrypte.Engine

abbrev Bytes := List UInt8

/-- A `uint8_t[n]`. -/
structure FixedBytes (n : Nat) where
  bytes : Bytes
  length_eq : bytes.length = n
  deriving DecidableEq

namespace FixedBytes

@[simp] theorem length_bytes {n : Nat} (b : FixedBytes n) : b.bytes.length = n := b.length_eq

theorem ext_bytes {n : Nat} {a b : FixedBytes n} (h : a.bytes = b.bytes) : a = b := by
  cases a; cases b; simpa using h

/-- `n` zero bytes. -/
def zero (n : Nat) : FixedBytes n := ⟨List.replicate n 0, List.length_replicate⟩

/-- `memcpy(out, data + offset, n)`. A buffer too short to copy from is read as
if it were followed by zeros; every caller checks the length first. -/
def copy (n : Nat) (data : Bytes) (offset : Nat) : FixedBytes n :=
  ⟨((data.drop offset).take n).rightpad n 0, by
    simp only [List.rightpad, List.length_append, List.length_replicate, List.length_take,
      List.length_drop]
    omega⟩

/-- Within bounds a copy is the slice itself. -/
theorem copy_append {n : Nat} (pre : Bytes) (b : FixedBytes n) (post : Bytes) (offset : Nat)
    (h : offset = pre.length) : copy n (pre ++ (b.bytes ++ post)) offset = b := by
  apply ext_bytes
  subst h
  simp [copy, List.rightpad]

theorem copy_bytes {n : Nat} (b : FixedBytes n) : copy n b.bytes 0 = b := by
  have hcopy := copy_append [] b [] 0 rfl
  rwa [List.append_nil] at hcopy

end FixedBytes

def writeU32Le (v : UInt32) : Bytes :=
  [v.toUInt8, (v >>> 8).toUInt8, (v >>> 16).toUInt8, (v >>> 24).toUInt8]

def readU32Le (data : Bytes) (offset : Nat) : UInt32 :=
  (data.getD offset 0).toUInt32 ||| ((data.getD (offset + 1) 0).toUInt32 <<< 8) |||
    ((data.getD (offset + 2) 0).toUInt32 <<< 16) |||
    ((data.getD (offset + 3) 0).toUInt32 <<< 24)

@[simp] theorem length_writeU32Le (v : UInt32) : (writeU32Le v).length = 4 := rfl

/-- One byte of a word, shifted out and back in, keeps exactly its own eight bits. -/
theorem byte_getLsbD (v k : UInt32) (i : Nat) (hk : k.toNat < 32) :
    ((v >>> k).toUInt8.toUInt32 <<< k).toBitVec.getLsbD i =
      (decide (k.toNat ≤ i ∧ i < k.toNat + 8) && v.toBitVec.getLsbD i) := by
  have hmod : (k.toBitVec % (32 : BitVec 32)).toNat = k.toNat := by
    rw [BitVec.toNat_umod]
    exact Nat.mod_eq_of_lt hk
  simp only [UInt32.toBitVec_shiftLeft, UInt8.toBitVec_toUInt32, UInt32.toBitVec_toUInt8,
    UInt32.toBitVec_shiftRight, BitVec.shiftLeft_eq', BitVec.ushiftRight_eq',
    BitVec.getLsbD_shiftLeft, BitVec.getLsbD_setWidth, BitVec.getLsbD_ushiftRight]
  rw [show (k.toBitVec % 32).toNat = k.toNat from hmod]
  clear hmod
  by_cases hle : k.toNat ≤ i
  · rw [show k.toNat + (i - k.toNat) = i by omega]
    cases hb : v.toBitVec.getLsbD i
    · simp
    · have hi : i < 32 := BitVec.lt_of_getLsbD hb
      have hin : i - k.toNat < 32 := by omega
      simp only [hi, hin, hle, decide_true, Nat.not_lt.mpr hle, decide_false, Bool.not_false,
        Bool.and_true, Bool.true_and, true_and, decide_eq_decide]
      omega
  · have hlt : i < k.toNat := Nat.lt_of_not_le hle
    simp [hle, hlt]

/-- The words of a word's little-endian bytes, put back together. -/
theorem ofBytes_writeU32Le (v : UInt32) :
    v.toUInt8.toUInt32 ||| ((v >>> 8).toUInt8.toUInt32 <<< 8) |||
      ((v >>> 16).toUInt8.toUInt32 <<< 16) ||| ((v >>> 24).toUInt8.toUInt32 <<< 24) = v := by
  have h0 : v.toUInt8.toUInt32 = (v >>> 0).toUInt8.toUInt32 <<< 0 := by simp
  apply UInt32.eq_of_toBitVec_eq
  apply BitVec.eq_of_getLsbD_eq
  intro i hi
  simp only [h0, UInt32.toBitVec_or, BitVec.getLsbD_or]
  rw [byte_getLsbD v 0 i (by decide), byte_getLsbD v 8 i (by decide),
    byte_getLsbD v 16 i (by decide), byte_getLsbD v 24 i (by decide)]
  cases v.toBitVec.getLsbD i
  · simp
  · simp
    omega

theorem readU32Le_append (pre : Bytes) (v : UInt32) (post : Bytes) (offset : Nat)
    (h : offset = pre.length) : readU32Le (pre ++ (writeU32Le v ++ post)) offset = v := by
  subst h
  have hget : ∀ j, (pre ++ (writeU32Le v ++ post)).getD (pre.length + j) 0 =
      (writeU32Le v ++ post).getD j 0 := by
    intro j
    rw [List.getD_append_right _ _ _ _ (by omega), Nat.add_sub_cancel_left]
  rw [readU32Le, hget 1, hget 2, hget 3, ← Nat.add_zero pre.length, hget 0]
  exact ofBytes_writeU32Le v

end ZiaCrypte.Engine

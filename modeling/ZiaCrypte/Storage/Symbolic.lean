import ZiaCrypte.Storage.EngineCalls
import ZiaCrypte.Engine.Symbolic

/-!
# A symbolic device

The primitives of the engine next to the symbolic handshake, and a stream whose
ciphertexts name the key they were sealed under.
-/
namespace ZiaCrypte.Storage

open ZiaCrypte.Lib ZiaCrypte.Engine

/-! ## The stream -/

/-- The keys it takes are told apart by their first sixteen bytes. -/
def shortKey (key : Key) : Bool := key.bytes.drop 16 == List.replicate 16 0

/-- The key where the tag would be, then the kind of message. -/
def namedStream : SecretStream where
  push key _ m := if shortKey key then some (key.bytes.take 16 ++ tagFinal :: m) else none
  pull key _ c :=
    if shortKey key && c.take 16 == key.bytes.take 16 then some (c.drop 17, c.getD 16 0) else none

theorem take_shortKey (key : Key) (rest : Bytes) :
    (key.bytes.take 16 ++ rest).take 16 = key.bytes.take 16 :=
  List.take_left' (by simp)

theorem shortKey_inj {key key' : Key} (h : shortKey key = true) (h' : shortKey key' = true)
    (htake : key.bytes.take 16 = key'.bytes.take 16) : key = key' := by
  apply FixedBytes.ext_bytes
  rw [shortKey, beq_iff_eq] at h h'
  rw [← List.take_append_drop 16 key.bytes, ← List.take_append_drop 16 key'.bytes, htake, h, h']

theorem namedStream_push {key : Key} {header m c : Bytes}
    (h : namedStream.push key header m = some c) :
    shortKey key = true ∧ c = key.bytes.take 16 ++ tagFinal :: m := by
  unfold namedStream at h
  dsimp only at h
  split at h
  · rename_i hkey
    exact ⟨hkey, (Option.some.inj h).symm⟩
  · cases h

theorem namedStream_sound : namedStream.Sound where
  pull key header m c h := by
    obtain ⟨hkey, rfl⟩ := namedStream_push h
    have hdrop : (key.bytes.take 16 ++ tagFinal :: m).drop 17 = m := by
      rw [show 17 = 16 + 1 from rfl, ← List.drop_drop, List.drop_left' (by simp)]
      rfl
    have htag : (key.bytes.take 16 ++ tagFinal :: m).getD 16 0 = tagFinal := by
      rw [List.getD_append_right _ _ _ _ (by simp)]
      simp
    unfold namedStream
    dsimp only
    rw [take_shortKey, hkey, beq_self_eq_true, Bool.and_self, if_pos rfl, hdrop, htag]
  length key header m c h := by
    obtain ⟨_, rfl⟩ := namedStream_push h
    simp [streamABytes]
    omega
  binds key key' header m c r h h' := by
    obtain ⟨hkey, rfl⟩ := namedStream_push h
    unfold namedStream at h'
    dsimp only at h'
    split at h'
    · rename_i hpull
      rw [take_shortKey, Bool.and_eq_true, beq_iff_eq] at hpull
      exact shortKey_inj hpull.1 hkey hpull.2.symm
    · cases h'

/-! ## The engine -/

/-- The secret key spells its seed twice, so that it converts to the seed. -/
def symbolicHost : EnginePrimitives where
  toX3dhPrimitives := symbolic
  ed25519Keypair seed := (symbolic.x25519Base seed.bytes, FixedBytes.copy 64 (seed.bytes ++ seed.bytes) 0)
  ed25519Sign _ _ := FixedBytes.zero 64
  mlkem768Keypair _ := some (FixedBytes.zero 1184, FixedBytes.zero 2400)

/-- A folder on which nothing can be saved. -/
def memoryOnly : Device := ⟨false, none, none, .empty⟩

/-- A use of the disk at which everything works. -/
def workingWrite : WriteUse := ⟨⟨true, true, true, keyZero⟩, true, some (FixedBytes.zero 24), true⟩

def workingRead : ReadUse := ⟨⟨true, true, true, keyZero⟩, true⟩

end ZiaCrypte.Storage

import ZiaCrypte.Engine.SessionStore

/-!
# An instance of the primitives that runs

`sample` runs on real 32-byte keys, with an additive checksum for each primitive:
it keeps the laws a session relies on and evaluates in the kernel.
-/
namespace ZiaCrypte.Engine

def checksum (b : Bytes) : UInt8 := b.foldl (· + ·) 0

def shiftKey (k : Key) (d : UInt8) : Key := ⟨k.bytes.map (· + d), by simp⟩

def pieceSum : Piece Key → UInt8
  | .key k => checksum k.bytes
  | .text s => UInt8.ofNat s.length
  | .byte b => b

def sampleTag (k : Key) (m ad : Bytes) : Bytes :=
  (k.bytes.take aeadABytes).map (· + (checksum m + 3 * checksum ad))

/-- A private key is its own public key; a shared secret is the sum of the two. -/
def sample : Primitives Key where
  hmac k ps := shiftKey k ((ps.map pieceSum).foldl (· + ·) 5)
  x25519Base k := k
  x25519Scalarmult k p := some ⟨List.zipWith (· + ·) k.bytes p.bytes, by simp⟩
  aeadEncrypt k _ m ad := some (m ++ sampleTag k m ad)
  aeadDecrypt k _ c ad :=
    let m := c.take (c.length - aeadABytes)
    if c.drop (c.length - aeadABytes) = sampleTag k m ad then some m else none

theorem sample_aeadCorrect : AeadCorrect sample := by
  intro key nonce m ad c h
  obtain rfl := Option.some.inj h
  have htag : (sampleTag key m ad).length = aeadABytes := by
    simp [sampleTag, aeadABytes]
  have hlen : (m ++ sampleTag key m ad).length - aeadABytes = m.length := by
    rw [List.length_append, htag, Nat.add_sub_cancel]
  refine ⟨?_, by rw [List.length_append, htag]; exact Nat.le_add_left _ _⟩
  simp only [sample, hlen, List.take_left', List.drop_left', if_true]

/-- A platform whose stream appends 17 zero bytes. -/
def sampleStore : StoreEnv where
  masterKey := some keyZero
  streamHeader := some (FixedBytes.zero 24)
  push _ _ m := some (m ++ List.replicate streamABytes 0)
  pull _ _ c := some (c.take (c.length - streamABytes))
  alloc := true

def sampleVault : Vault := by
  refine ⟨sampleStore, ?_⟩
  intro key header plaintext ciphertext h
  obtain rfl := Option.some.inj h
  simp [sampleStore]

def sampleKey (b : UInt8) : Key := ⟨List.replicate 32 b, List.length_replicate⟩

/-- A call environment whose fresh private key is `sampleKey b`. -/
def sampleEnv (b : UInt8) : CallEnv Key := ⟨sampleKey b, keyZero, keyZero, true⟩

def sampleAd : FixedBytes 64 := ⟨List.replicate 64 7, List.length_replicate⟩

/-- An initiator stored right after `zia_session_from_bundle`. -/
def storedInitiator : ZiaSession Key :=
  initAsInitiator sample (sampleEnv 2) sampleAd (sampleKey 3) (sampleKey 1)

def forgedHeader : Bytes := encodeHeader ⟨0, 0, sampleKey 1⟩

/-- Sealed without any secret. -/
def forgedCiphertext : Bytes :=
  [112] ++ sampleTag (messageKey sample keyZero) [112] (sampleAd.bytes ++ forgedHeader)

end ZiaCrypte.Engine

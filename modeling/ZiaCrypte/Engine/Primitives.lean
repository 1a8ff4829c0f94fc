import ZiaCrypte.Engine.Bytes

/-!
# The primitives the engine orchestrates

HMAC-SHA256, X25519 and ChaCha20-Poly1305 come from libsodium and are parameters
here. HKDF is the engine's own loop over HMAC, so it is defined.

Secrets are values of a type `K` of 32-byte keys. An HMAC input is kept as the
list of pieces the code feeds to `update`, so that both readings of `K` exist:
actual bytes, where the pieces are concatenated, and symbolic terms, where HMAC
may be injective.
-/
namespace ZiaCrypte.Engine

/-- One `crypto_auth_hmacsha256_update`. -/
inductive Piece (K : Type) where
  | key (k : K)
  | text (s : String)
  | byte (b : UInt8)
  deriving DecidableEq

abbrev PublicKey := FixedBytes 32

structure Primitives (K : Type) where
  /-- HMAC-SHA256 under a 32-byte key. -/
  hmac : K → List (Piece K) → K
  /-- The public half `crypto_box_keypair` writes beside a private one. -/
  x25519Base : K → PublicKey
  /-- `crypto_scalarmult`; `none` is its failure on a low-order point. -/
  x25519Scalarmult : K → PublicKey → Option K
  /-- Key, nonce, plaintext, associated data. -/
  aeadEncrypt : K → Bytes → Bytes → Bytes → Option Bytes
  /-- Key, nonce, ciphertext, associated data. -/
  aeadDecrypt : K → Bytes → Bytes → Bytes → Option Bytes

namespace Primitives

variable {K : Type} (P : Primitives K)

/-- The expand loop of RFC 5869: `T(i) = HMAC(PRK, T(i-1) || info || i)`. -/
def hkdfExpand (prk : K) (info : String) : Nat → Option K → UInt8 → List K
  | 0, _, _ => []
  | blocks + 1, prev, counter =>
      let cur := P.hmac prk (prev.toList.map .key ++ [.text info, .byte counter])
      cur :: hkdfExpand prk info blocks (some cur) (counter + 1)

/-- `hkdf_sha256` with an output of `blocks` times 32 bytes. -/
def hkdfSha256 (salt : K) (ikm : List K) (info : String) (blocks : Nat) : List K :=
  P.hkdfExpand (P.hmac salt (ikm.map .key)) info blocks none 1

end Primitives

/-- `SecureBuffer`: empty (a null `data()`), or 32 bytes. -/
abbrev SecureBuffer (K : Type) := Option K

/-- The twelve zero bytes every ratchet message uses as its nonce. -/
def zeroNonce : Bytes := List.replicate 12 0

/-- `crypto_aead_chacha20poly1305_ietf_ABYTES` -/
def aeadABytes : Nat := 16

/-- AEAD correctness: what was sealed opens again, and carries a tag. -/
def AeadCorrect {K : Type} (P : Primitives K) : Prop :=
  ∀ key nonce m ad c, P.aeadEncrypt key nonce m ad = some c →
    P.aeadDecrypt key nonce c ad = some m ∧ aeadABytes ≤ c.length

/-- The ideal AEAD: a ciphertext opens only under the key and the associated data
it was sealed with. -/
structure AeadIdeal {K : Type} (P : Primitives K) : Prop where
  sealed : ∀ key nonce c ad m, P.aeadDecrypt key nonce c ad = some m →
    P.aeadEncrypt key nonce m ad = some c
  binds : ∀ key key' nonce m m' ad ad' c, P.aeadEncrypt key nonce m ad = some c →
    P.aeadEncrypt key' nonce m' ad' = some c → key = key' ∧ ad = ad'

theorem AeadIdeal.key_unique {K : Type} {P : Primitives K} (h : AeadIdeal P) {key key' : K}
    {nonce c ad ad' m m' : Bytes} (hopen : P.aeadDecrypt key nonce c ad = some m)
    (hopen' : P.aeadDecrypt key' nonce c ad' = some m') : key = key' :=
  (h.binds _ _ _ _ _ _ _ _ (h.sealed _ _ _ _ _ hopen) (h.sealed _ _ _ _ _ hopen')).1

/-- Every `ZiaStatus` other than `ZIA_OK` that the modelled calls return. -/
inductive ZiaError where
  | invalidArg
  | outOfMemory
  | notInitialized
  | alreadyInitialized
  | storageIo
  | cryptoFailure
  | sessionNotFound
  | signatureInvalid
  | replayDetected
  | skippedKeyLimit
  | bundleExhausted
  deriving DecidableEq, Repr

end ZiaCrypte.Engine

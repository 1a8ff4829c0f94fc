import ZiaCrypte.Engine.GroupReads
import ZiaCrypte.Engine.KeySchedule

/-!
# `channel.cpp`: the reading key of a channel

The distribution of the owner's sender key is sealed under a key that is derived from the
secret of the link. The sealed bytes are a parameter, with the nonce in front.
-/
namespace ZiaCrypte.Channels

open ZiaCrypte.Lib ZiaCrypte.Engine ZiaCrypte.Engine.SenderKeys

/-- XChaCha20-Poly1305 beside the primitives of the sender keys. -/
structure ChannelPrimitives (K B : Type) extends SenderKeyPrimitives K where
  /-- Key, nonce, plaintext. -/
  xchachaEncrypt : K → Bytes → Distribution K → Option B
  xchachaDecrypt : K → B → Option (Distribution K)

/-- What was sealed opens under its key, and under no other one. -/
structure SealIdeal {K B : Type} (P : ChannelPrimitives K B) : Prop where
  opens : ∀ key nonce d b, P.xchachaEncrypt key nonce d = some b → P.xchachaDecrypt key b = some d
  binds : ∀ key key' nonce d d' b, P.xchachaEncrypt key nonce d = some b →
    P.xchachaDecrypt key' b = some d' → key' = key

variable {K B : Type} (P : ChannelPrimitives K B)

/-- `derive_wrap_key` -/
def deriveWrapKey (linkSecret : K) : K :=
  (P.hkdfSha256 P.zero [linkSecret] "ZiaCrypteChannelKeyWrap" 1).getD 0 P.zero

def ziaChannelSealKey (alloc : Bool) (nonce : Bytes) (linkSecret : K)
    (distribution : Distribution K) : Except ZiaError B :=
  if !alloc then .error .outOfMemory
  else
    match P.xchachaEncrypt (deriveWrapKey P linkSecret) nonce distribution with
    | none => .error .cryptoFailure
    | some b => .ok b

def ziaChannelOpenKey (alloc : Bool) (linkSecret : K) (b : B) :
    Except ZiaError (Distribution K) :=
  if !alloc then .error .outOfMemory
  else
    match P.xchachaDecrypt (deriveWrapKey P linkSecret) b with
    | none => .error .cryptoFailure
    | some distribution => .ok distribution

/-- The bytes hold this distribution under this secret. -/
def SealedWith (secret : K) (d : Distribution K) (b : B) : Prop :=
  ∃ nonce, P.xchachaEncrypt (deriveWrapKey P secret) nonce d = some b

variable {P}

theorem deriveWrapKey_injective (hkdf : HmacInjective P.toPrimitives) :
    Function.Injective (deriveWrapKey P) := by
  intro a b h
  have hexpand := (hkdf _ _ _ _ (show P.hmac _ _ = P.hmac _ _ from h)).1
  have hpieces := (hkdf _ _ _ _ hexpand).2
  cases hpieces
  rfl

theorem sealedWith_of_sealKey {alloc : Bool} {nonce : Bytes} {secret : K} {d : Distribution K}
    {b : B} (h : ziaChannelSealKey P alloc nonce secret d = .ok b) : SealedWith P secret d b := by
  unfold ziaChannelSealKey at h
  split at h
  · cases h
  · split at h
    · cases h
    · rename_i b' hseal
      obtain rfl := Except.ok.inj h
      exact ⟨nonce, hseal⟩

/-- The link opens what was sealed under its secret. -/
theorem SealedWith.open (hseal : SealIdeal P) {secret : K} {d : Distribution K} {b : B}
    (h : SealedWith P secret d b) : ziaChannelOpenKey P true secret b = .ok d := by
  obtain ⟨nonce, hb⟩ := h
  unfold ziaChannelOpenKey
  rw [hseal.opens _ _ _ _ hb]
  rfl

/-- What a link opens was sealed under its secret. -/
theorem SealedWith.of_open (hkdf : HmacInjective P.toPrimitives) (hseal : SealIdeal P)
    {alloc : Bool} {secret secret' : K} {d d' : Distribution K} {b : B}
    (h : SealedWith P secret d b) (hopen : ziaChannelOpenKey P alloc secret' b = .ok d') :
    secret' = secret ∧ d' = d := by
  obtain ⟨nonce, hb⟩ := h
  unfold ziaChannelOpenKey at hopen
  split at hopen
  · cases hopen
  · split at hopen
    · cases hopen
    · rename_i d₀ hd₀
      obtain rfl := Except.ok.inj hopen
      obtain rfl := deriveWrapKey_injective hkdf (hseal.binds _ _ _ _ _ _ hb hd₀)
      exact ⟨rfl, Option.some.inj (hd₀.symm.trans (hseal.opens _ _ _ _ hb))⟩

/-! ## The symbolic instance -/

/-- Sealed bytes spell their key, their nonce and what they hold. -/
abbrev SymbolicSealed := Bytes × Bytes × Distribution Bytes

def symbolicChannel : ChannelPrimitives Bytes SymbolicSealed where
  toSenderKeyPrimitives := symbolicSender
  xchachaEncrypt key nonce d := some (key, nonce, d)
  xchachaDecrypt key b := if b.1 = key then some b.2.2 else none

theorem symbolicChannel_sealIdeal : SealIdeal symbolicChannel where
  opens key nonce d b h := by
    obtain rfl := Option.some.inj h
    exact if_pos rfl
  binds key key' nonce d d' b h h' := by
    obtain rfl := Option.some.inj h
    by_cases heq : key = key'
    · exact heq.symm
    · exact absurd ((if_neg heq).symm.trans h') (by simp)

theorem symbolicChannel_signatureIdeal :
    SignatureIdeal symbolicChannel.toSenderKeyPrimitives := by
  intro pk k m h
  have hbytes : (symbolicSender.ed25519Sign (some k) m).bytes =
      pk.bytes ++ (FixedBytes.copy 32 m 0).bytes := beq_iff_eq.mp h
  have hprefix := List.append_inj_left' (show (FixedBytes.copy 32 k 0).bytes ++ _ = _ from hbytes)
    rfl
  obtain ⟨bytes, hlength⟩ := pk
  subst hprefix
  rfl

end ZiaCrypte.Channels

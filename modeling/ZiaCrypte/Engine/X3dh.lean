import ZiaCrypte.Engine.SessionRun

/-!
# `x3dh.cpp`: opening a session on both sides

`zia_session_from_bundle` and `zia_session_accept_handshake`, with the
post-quantum component. Both end in a ratchet initialiser on a shared secret that
HKDF derives under a label of its own.
-/
namespace ZiaCrypte.Engine

variable {K : Type}

/-- What the handshake uses beside the ratchet's primitives. -/
structure X3dhPrimitives (K : Type) extends Primitives K where
  /-- 32 zero bytes, the salt of `derive_shared_secret`. -/
  zero : K
  /-- Public key, message, signature. -/
  ed25519Verify : PublicKey → Bytes → Bytes → Bool
  ed25519ToX25519Public : PublicKey → Option PublicKey
  ed25519ToX25519Private : K → Option K
  /-- Public key and randomness to a ciphertext and a secret. -/
  mlkem768Encapsulate : Bytes → K → Option (Bytes × K)
  mlkem768Decapsulate : K → Bytes → Option K

structure ZiaSignedPrekey (K : Type) where
  publicKey : PublicKey
  privateKey : K
  signature : Bytes

structure ZiaPqPrekey (K : Type) where
  publicKey : Bytes
  privateKey : K
  signature : Bytes

structure ZiaOneTimePrekey (K : Type) where
  publicKey : PublicKey
  privateKey : K
  consumed : Bool
  deriving DecidableEq

/-- The fields of `ZiaEngine` the handshake reads; the identity is present. -/
structure ZiaEngine (K : Type) where
  identityPublic : PublicKey
  identityPrivate : K
  signedPrekey : Option (ZiaSignedPrekey K)
  pqPrekey : Option (ZiaPqPrekey K)
  oneTimePrekeys : List (ZiaOneTimePrekey K)
  requirePq : Bool

structure ZiaPrekeyBundle where
  identityKey : PublicKey
  signedPrekey : PublicKey
  signedPrekeySignature : Bytes
  oneTimePrekey : Option PublicKey
  pqPrekey : Option (Bytes × Bytes)

structure ZiaHandshakeMaterial where
  initiatorIdentityKey : PublicKey
  initiatorEphemeralKey : PublicKey
  usedOneTimePrekey : Option PublicKey
  pqCiphertext : Option Bytes
  deriving DecidableEq

variable (X : X3dhPrimitives K)

/-- `derive_shared_secret`: the label tells the hybrid handshake from the plain one. -/
def deriveSharedSecret (dh1 dh2 dh3 : K) (dh4 ss : Option K) : K :=
  let ikm := [dh1, dh2, dh3] ++ dh4.toList ++ ss.toList
  let info := if ss.isSome then "ZiaCryptePQXDH" else "ZiaCrypteX3DH"
  (X.hkdfSha256 X.zero ikm info 1).getD 0 X.zero

/-- What one handshake draws: the ephemeral key and the encapsulation randomness. -/
structure HandshakeEnv (K : Type) where
  ephemeral : K
  pqSeed : K
  ratchet : CallEnv K

def adOf (initiator responder : PublicKey) : FixedBytes 64 :=
  ⟨initiator.bytes ++ responder.bytes, by simp⟩

/-- The encapsulation of `zia_session_from_bundle`: its ciphertext and secret. -/
def encapsulateFor (env : HandshakeEnv K) (engine : ZiaEngine K) (bundle : ZiaPrekeyBundle) :
    Except ZiaError (Option (Bytes × K)) :=
  match bundle.pqPrekey with
  | some (pk, signature) =>
      if !X.ed25519Verify bundle.identityKey pk signature then .error .signatureInvalid
      else
        match X.mlkem768Encapsulate pk env.pqSeed with
        | none => .error .cryptoFailure
        | some out => .ok (some out)
  | none => if engine.requirePq then .error .signatureInvalid else .ok none

def ziaSessionFromBundle (env : HandshakeEnv K) (engine : ZiaEngine K)
    (bundle : ZiaPrekeyBundle) : Except ZiaError (ZiaSession K × ZiaHandshakeMaterial) :=
  if !X.ed25519Verify bundle.identityKey bundle.signedPrekey.bytes bundle.signedPrekeySignature
  then .error .signatureInvalid
  else
    match X.ed25519ToX25519Public engine.identityPublic,
        X.ed25519ToX25519Private engine.identityPrivate,
        X.ed25519ToX25519Public bundle.identityKey with
    | some _, some ikPriv, some ikBPub =>
        match X.x25519Scalarmult ikPriv bundle.signedPrekey,
            X.x25519Scalarmult env.ephemeral ikBPub,
            X.x25519Scalarmult env.ephemeral bundle.signedPrekey with
        | some dh1, some dh2, some dh3 =>
            match bundle.oneTimePrekey.map (X.x25519Scalarmult env.ephemeral) with
            | some none => .error .cryptoFailure
            | dh4 =>
                match encapsulateFor X env engine bundle with
                | .error rc => .error rc
                | .ok pq =>
                    let sk := deriveSharedSecret X dh1 dh2 dh3 dh4.join (pq.map (·.2))
                    let ad := adOf engine.identityPublic bundle.identityKey
                    .ok (initAsInitiator X.toPrimitives env.ratchet ad sk bundle.signedPrekey,
                      { initiatorIdentityKey := engine.identityPublic
                        initiatorEphemeralKey := X.x25519Base env.ephemeral
                        usedOneTimePrekey := bundle.oneTimePrekey
                        pqCiphertext := pq.map (·.1) })
        | _, _, _ => .error .cryptoFailure
    | _, _, _ => .error .cryptoFailure

/-- `consumed = true` on the first prekey that is still available under this key. -/
def consumePrekey (used : PublicKey) : List (ZiaOneTimePrekey K) → List (ZiaOneTimePrekey K)
  | [] => []
  | k :: ks =>
      if !k.consumed && k.publicKey == used then { k with consumed := true } :: ks
      else k :: consumePrekey used ks

theorem length_consumePrekey (used : PublicKey) (otpks : List (ZiaOneTimePrekey K)) :
    (consumePrekey used otpks).length = otpks.length := by
  induction otpks with
  | nil => rfl
  | cons k otpks ih =>
    rw [consumePrekey]
    split
    · rfl
    · rw [List.length_cons, ih, List.length_cons]

/-- What is left is a prekey of before, consumed or not. -/
theorem mem_consumePrekey {used : PublicKey} {otpks : List (ZiaOneTimePrekey K)}
    {k : ZiaOneTimePrekey K} (h : k ∈ consumePrekey used otpks) :
    ∃ k' ∈ otpks, k'.publicKey = k.publicKey ∧ k'.privateKey = k.privateKey := by
  induction otpks with
  | nil => cases h
  | cons k₀ otpks ih =>
    rw [consumePrekey] at h
    split at h
    · rcases List.mem_cons.mp h with rfl | hk
      · exact ⟨k₀, List.mem_cons_self, rfl, rfl⟩
      · exact ⟨k, List.mem_cons_of_mem _ hk, rfl, rfl⟩
    · rcases List.mem_cons.mp h with rfl | hk
      · exact ⟨k, List.mem_cons_self, rfl, rfl⟩
      · obtain ⟨k', hk', hsame⟩ := ih hk
        exact ⟨k', List.mem_cons_of_mem _ hk', hsame⟩

/-- A prekey that is consumed takes no other with it. -/
theorem mem_consumePrekey_of_ne {used : PublicKey} {otpks : List (ZiaOneTimePrekey K)}
    {k : ZiaOneTimePrekey K} (hk : k ∈ otpks) (hne : k.publicKey ≠ used) :
    k ∈ consumePrekey used otpks := by
  induction otpks with
  | nil => cases hk
  | cons k₀ otpks ih =>
    rw [consumePrekey]
    split
    · rename_i hmatch
      rw [Bool.and_eq_true, beq_iff_eq] at hmatch
      rcases List.mem_cons.mp hk with rfl | hrest
      · exact absurd hmatch.2 hne
      · exact List.mem_cons_of_mem _ hrest
    · rcases List.mem_cons.mp hk with rfl | hrest
      · exact List.mem_cons_self
      · exact List.mem_cons_of_mem _ (ih hrest)

/-- DH4 on the responder's side: the prekey must still be available. -/
def responderDh4 (engine : ZiaEngine K) (handshake : ZiaHandshakeMaterial) :
    Except ZiaError (Option K) :=
  match handshake.usedOneTimePrekey with
  | none => .ok none
  | some used =>
      match engine.oneTimePrekeys.find? fun k => !k.consumed && k.publicKey == used with
      | none => .error .bundleExhausted
      | some otpk =>
          match X.x25519Scalarmult otpk.privateKey handshake.initiatorEphemeralKey with
          | none => .error .cryptoFailure
          | some dh4 => .ok (some dh4)

def decapsulateFor (engine : ZiaEngine K) (handshake : ZiaHandshakeMaterial) :
    Except ZiaError (Option K) :=
  match handshake.pqCiphertext with
  | some ct =>
      match engine.pqPrekey with
      | none => .error .notInitialized
      | some pq =>
          match X.mlkem768Decapsulate pq.privateKey ct with
          | none => .error .cryptoFailure
          | some ss => .ok (some ss)
  | none => if engine.requirePq then .error .signatureInvalid else .ok none

def ziaSessionAcceptHandshake (engine : ZiaEngine K) (handshake : ZiaHandshakeMaterial) :
    Except ZiaError (ZiaSession K × ZiaEngine K) :=
  match engine.signedPrekey with
  | none => .error .notInitialized
  | some spk =>
      match X.ed25519ToX25519Public engine.identityPublic,
          X.ed25519ToX25519Private engine.identityPrivate,
          X.ed25519ToX25519Public handshake.initiatorIdentityKey with
      | some _, some ikPriv, some ikAPub =>
          match X.x25519Scalarmult spk.privateKey ikAPub,
              X.x25519Scalarmult ikPriv handshake.initiatorEphemeralKey,
              X.x25519Scalarmult spk.privateKey handshake.initiatorEphemeralKey with
          | some dh1, some dh2, some dh3 =>
              match responderDh4 X engine handshake, decapsulateFor X engine handshake with
              | .error rc, _ => .error rc
              | .ok _, .error rc => .error rc
              | .ok dh4, .ok ss =>
                  let sk := deriveSharedSecret X dh1 dh2 dh3 dh4 ss
                  let ad := adOf handshake.initiatorIdentityKey engine.identityPublic
                  .ok (initAsResponder ad sk spk.publicKey spk.privateKey,
                    { engine with
                      oneTimePrekeys :=
                        match handshake.usedOneTimePrekey with
                        | none => engine.oneTimePrekeys
                        | some used => consumePrekey used engine.oneTimePrekeys })
          | _, _, _ => .error .cryptoFailure
      | _, _, _ => .error .cryptoFailure

/-! ## Sessions of the handshake -/

/-- The shared secret of the start is one that X3DH or PQXDH derives. -/
def SessionStart.FromX3dh (start : SessionStart K) : Prop :=
  ∃ dh1 dh2 dh3 dh4 ss, deriveSharedSecret X dh1 dh2 dh3 dh4 ss =
    match start with
    | .initiator _ _ sk _ => sk
    | .responder _ sk _ _ => sk

/-- `zia_session_from_bundle` hands out an initiator session. -/
theorem ziaSessionFromBundle_start {env : HandshakeEnv K} {engine : ZiaEngine K}
    {bundle : ZiaPrekeyBundle} {s : ZiaSession K} {handshake : ZiaHandshakeMaterial}
    (h : ziaSessionFromBundle X env engine bundle = .ok (s, handshake)) :
    ∃ start : SessionStart K, start.FromX3dh X ∧ s = start.session X.toPrimitives := by
  unfold ziaSessionFromBundle at h
  split at h
  · cases h
  split at h
  · split at h
    · rename_i dh1 dh2 dh3 _ _ _
      split at h
      · cases h
      · rename_i dh4 _
        split at h
        · cases h
        · rename_i pq _
          obtain ⟨rfl, rfl⟩ := Prod.mk.inj (Except.ok.inj h)
          exact ⟨.initiator env.ratchet _ _ bundle.signedPrekey,
            ⟨dh1, dh2, dh3, _, _, rfl⟩, rfl⟩
    · cases h
  · cases h

/-- `zia_session_accept_handshake` hands out a responder session. -/
theorem ziaSessionAcceptHandshake_start {engine engine' : ZiaEngine K}
    {handshake : ZiaHandshakeMaterial} {s : ZiaSession K}
    (h : ziaSessionAcceptHandshake X engine handshake = .ok (s, engine')) :
    ∃ start : SessionStart K, start.FromX3dh X ∧ s = start.session X.toPrimitives := by
  unfold ziaSessionAcceptHandshake at h
  split at h
  · cases h
  rename_i spk _
  split at h
  · split at h
    · rename_i dh1 dh2 dh3 _ _ _
      split at h
      · cases h
      · cases h
      · rename_i dh4 ss _ _
        obtain ⟨rfl, rfl⟩ := Prod.mk.inj (Except.ok.inj h)
        exact ⟨.responder _ _ spk.publicKey spk.privateKey, ⟨dh1, dh2, dh3, dh4, ss, rfl⟩, rfl⟩
    · cases h
  · cases h

end ZiaCrypte.Engine

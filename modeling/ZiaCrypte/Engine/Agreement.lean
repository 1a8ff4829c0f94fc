import ZiaCrypte.Engine.Handshake
import ZiaCrypte.Engine.Epochs

/-!
# Two honest sides agree

The responder reads the key agreements of the initiator from the other end, in
the same order, and mixes in the same optional parts. Both then start a ratchet
on one secret, and the first message across opens.
-/
namespace ZiaCrypte.Engine

variable {K : Type} (X : X3dhPrimitives K)

/-- The Ed25519 pair becomes an X25519 pair. -/
def Converts (pub : PublicKey) (priv : K) : Prop :=
  ∃ k, X.ed25519ToX25519Private priv = some k ∧
    X.ed25519ToX25519Public pub = some (X.x25519Base k)

/-- The signed prekey of the bundle is the one `spk` is the pair of. -/
structure SignedFor (bundle : ZiaPrekeyBundle) (spk : ZiaSignedPrekey K) : Prop where
  announced : bundle.signedPrekey = spk.publicKey
  pair : spk.publicKey = X.x25519Base spk.privateKey
  signed : X.ed25519Verify bundle.identityKey bundle.signedPrekey.bytes
    bundle.signedPrekeySignature = true

/-- A one-time prekey of the bundle is available, and what is available is a pair. -/
structure AvailableFor (bundle : ZiaPrekeyBundle) (otpks : List (ZiaOneTimePrekey K)) : Prop where
  held : ∀ used, bundle.oneTimePrekey = some used →
    ∃ k ∈ otpks, k.consumed = false ∧ k.publicKey = used
  pairs : ∀ k ∈ otpks, k.publicKey = X.x25519Base k.privateKey

/-- The KEM part is signed and can be opened with the prekey `bob` holds, or is
left out where neither side asks for it. -/
def HybridFor (env : HandshakeEnv K) (alice bob : ZiaEngine K) (bundle : ZiaPrekeyBundle) : Prop :=
  (bundle.pqPrekey = none ∧ alice.requirePq = false ∧ bob.requirePq = false) ∨
  ∃ pk signature pq ct ss, bundle.pqPrekey = some (pk, signature) ∧
    X.ed25519Verify bundle.identityKey pk signature = true ∧ bob.pqPrekey = some pq ∧
    X.mlkem768Encapsulate pk env.pqSeed = some (ct, ss) ∧
    X.mlkem768Decapsulate pq.privateKey ct = some ss

variable {X}

theorem HybridFor.agrees {env : HandshakeEnv K} {alice bob : ZiaEngine K}
    {bundle : ZiaPrekeyBundle} (h : HybridFor X env alice bob bundle) :
    ∃ ct ss, (∃ pq, encapsulateFor X env alice bundle = .ok pq ∧ pq.map (·.1) = ct ∧
        pq.map (·.2) = ss) ∧
      decapsulateFor X bob (handshakeMaterial X env alice bundle ct) = .ok ss := by
  rcases h with ⟨hnone, halice, hbob⟩ | ⟨pk, signature, pq, ct, ss, hsome, hsig, hpq, henc, hdec⟩
  · refine ⟨none, none, ⟨none, ?_, rfl, rfl⟩, ?_⟩
    · simp [encapsulateFor, hnone, halice]
    · simp [decapsulateFor, handshakeMaterial, hbob]
  · refine ⟨some ct, some ss, ⟨some (ct, ss), ?_, rfl, rfl⟩, ?_⟩
    · simp [encapsulateFor, hsome, hsig, henc]
    · simp [decapsulateFor, handshakeMaterial, hpq, hdec]

/-- DH4 is computed from both ends, or by neither side. -/
theorem AvailableFor.agrees (hdh : DhAgreement X.toPrimitives) {bob : ZiaEngine K}
    {bundle : ZiaPrekeyBundle} (h : AvailableFor X bundle bob.oneTimePrekeys)
    (env : HandshakeEnv K) (alice : ZiaEngine K) (ct : Option Bytes) :
    ∃ dh4, bundle.oneTimePrekey.map (X.x25519Scalarmult env.ephemeral) = dh4.map some ∧
      responderDh4 X bob (handshakeMaterial X env alice bundle ct) = .ok dh4 := by
  cases hused : bundle.oneTimePrekey with
  | none => exact ⟨none, rfl, by simp [responderDh4, handshakeMaterial, hused]⟩
  | some used =>
    obtain ⟨k, hk, havailable, hpub⟩ := h.held used hused
    have hfind : (bob.oneTimePrekeys.find? fun k => !k.consumed && k.publicKey == used).isSome :=
      List.find?_isSome.mpr ⟨k, hk, by simp [havailable, hpub]⟩
    obtain ⟨otpk, hotpk⟩ := Option.isSome_iff_exists.mp hfind
    have hmatch := List.find?_some hotpk
    simp only [Bool.and_eq_true, beq_iff_eq] at hmatch
    have hpair := h.pairs otpk (List.mem_of_find?_eq_some hotpk)
    obtain ⟨dh, hmine, htheirs⟩ := hdh env.ephemeral otpk.privateKey
    rw [← hpair, hmatch.2] at hmine
    refine ⟨some dh, by rw [Option.map_some, hmine, Option.map_some], ?_⟩
    simp only [responderDh4, handshakeMaterial, hused, hotpk, htheirs]

/-- The initiator and the responder feed the same secrets to the derivation. -/
theorem honest_agree (hdh : DhAgreement X.toPrimitives) (env : HandshakeEnv K)
    {alice bob : ZiaEngine K} {bundle : ZiaPrekeyBundle} {spk : ZiaSignedPrekey K}
    (halice : Converts X alice.identityPublic alice.identityPrivate)
    (hbob : Converts X bob.identityPublic bob.identityPrivate)
    (hidentity : bundle.identityKey = bob.identityPublic)
    (hspk : bob.signedPrekey = some spk) (hsigned : SignedFor X bundle spk)
    (havailable : AvailableFor X bundle bob.oneTimePrekeys)
    (hhybrid : HybridFor X env alice bob bundle) :
    ∃ x ct, InitiatorAgrees X env alice bundle x ct ∧
      ResponderAgrees X bob (handshakeMaterial X env alice bundle ct) spk x := by
  obtain ⟨a, hapriv, hapub⟩ := halice
  obtain ⟨b, hbpriv, hbpub⟩ := hbob
  obtain ⟨dh1, h1, h1'⟩ := hdh a spk.privateKey
  obtain ⟨dh2, h2, h2'⟩ := hdh env.ephemeral b
  obtain ⟨dh3, h3, h3'⟩ := hdh env.ephemeral spk.privateKey
  obtain ⟨ct, ss, henc, hdec⟩ := hhybrid.agrees
  obtain ⟨dh4, h4, h4'⟩ := havailable.agrees hdh env alice ct
  have hannounced : bundle.signedPrekey = X.x25519Base spk.privateKey :=
    hsigned.announced.trans hsigned.pair
  refine ⟨⟨dh1, dh2, dh3, dh4, ss⟩, ct, ?_, ?_⟩
  · exact {
      signed := hsigned.signed
      own := ⟨_, hapub⟩
      dh1 := ⟨a, hapriv, by rw [hannounced]; exact h1⟩
      dh2 := ⟨_, by rw [hidentity]; exact hbpub, h2⟩
      dh3 := by rw [hannounced]; exact h3
      dh4 := h4
      kem := henc }
  · exact {
      prekey := hspk
      own := ⟨_, hbpub⟩
      dh1 := ⟨_, hapub, h1'⟩
      dh2 := ⟨b, hbpriv, h2'⟩
      dh3 := h3'
      dh4 := h4'
      kem := hdec }

/-- On one secret and one associated data, the first message across opens. -/
theorem firstMessage_opens {P : Primitives K} (hP : AeadCorrect P) (hdh : DhAgreement P)
    {env env' : CallEnv K} {ad : FixedBytes 64} {sk priv : K} {plaintext : Bytes}
    {m : EncryptedMessage} {s : ZiaSession K}
    (hsend : ziaSessionEncrypt P env' (initAsInitiator P env ad sk (P.x25519Base priv)) plaintext =
      .ok m s) {env'' : CallEnv K} (halloc : env''.alloc = true) :
    ∃ t, ziaSessionDecrypt P env'' (initAsResponder ad sk (P.x25519Base priv) priv)
      m.header m.ciphertext = .ok plaintext t := by
  obtain ⟨hheader, hseal⟩ := firstMessage_sealed hsend
  obtain ⟨hopen, hlen⟩ := hP _ _ _ _ _ hseal
  obtain ⟨k, hmine, htheirs⟩ := hdh env.fresh priv
  rw [hmine, Option.getD_some] at hopen
  have hdecode : decodeHeader m.header = ⟨0, 0, P.x25519Base env.fresh⟩ := by
    rw [hheader, decodeHeader_encodeHeader]
  have hreach : reachesRecvChain (initAsResponder ad sk (P.x25519Base priv) priv)
      m.header m.ciphertext = true := by
    refine reachesRecvChain_iff.mpr ⟨?_, hlen, rfl, rfl⟩
    rw [hheader, length_encodeHeader]
  have hchain : newRecvChain P env'' (initAsResponder ad sk (P.x25519Base priv) priv)
      (P.x25519Base env.fresh) = chainOf P sk k := by
    simp only [newRecvChain, initAsResponder, htheirs, Option.getD_some]
    rfl
  have hwf : WellFormed (initAsResponder ad sk (P.x25519Base priv) priv) :=
    wellFormed_start P (.responder ad sk (P.x25519Base priv) priv)
  rw [decrypt_newChain P env'' hwf hreach rfl (by rw [hdecode]; rfl)
    (by rw [hdecode]; exact Nat.zero_le _), hdecode, hchain]
  exact ⟨_, openMessage_opens P halloc hopen⟩

end ZiaCrypte.Engine

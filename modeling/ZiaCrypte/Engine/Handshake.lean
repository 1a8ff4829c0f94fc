import ZiaCrypte.Engine.Replay

/-!
# What the two calls of the handshake do

Each call succeeds exactly when its checks and its key agreements do, and then
starts a ratchet on the secret derived from them. The inputs of that derivation
are kept together, so that the two sides can be compared.
-/
namespace ZiaCrypte.Engine

variable {K : Type}

/-- What one side feeds to `derive_shared_secret`. -/
structure HandshakeSecrets (K : Type) where
  dh1 : K
  dh2 : K
  dh3 : K
  dh4 : Option K
  ss : Option K
  deriving DecidableEq

variable (X : X3dhPrimitives K)

def HandshakeSecrets.derive (x : HandshakeSecrets K) : K :=
  deriveSharedSecret X x.dh1 x.dh2 x.dh3 x.dh4 x.ss

/-- The initiator's checks and key agreements, and the ciphertext it sends. -/
structure InitiatorAgrees (env : HandshakeEnv K) (engine : ZiaEngine K)
    (bundle : ZiaPrekeyBundle) (x : HandshakeSecrets K) (ct : Option Bytes) : Prop where
  signed : X.ed25519Verify bundle.identityKey bundle.signedPrekey.bytes
    bundle.signedPrekeySignature = true
  own : ∃ pub, X.ed25519ToX25519Public engine.identityPublic = some pub
  dh1 : ∃ priv, X.ed25519ToX25519Private engine.identityPrivate = some priv ∧
    X.x25519Scalarmult priv bundle.signedPrekey = some x.dh1
  dh2 : ∃ pub, X.ed25519ToX25519Public bundle.identityKey = some pub ∧
    X.x25519Scalarmult env.ephemeral pub = some x.dh2
  dh3 : X.x25519Scalarmult env.ephemeral bundle.signedPrekey = some x.dh3
  dh4 : bundle.oneTimePrekey.map (X.x25519Scalarmult env.ephemeral) = x.dh4.map some
  kem : ∃ pq, encapsulateFor X env engine bundle = .ok pq ∧ pq.map (·.1) = ct ∧
    pq.map (·.2) = x.ss

/-- The material the initiator sends along with its first message. -/
def handshakeMaterial (env : HandshakeEnv K) (engine : ZiaEngine K) (bundle : ZiaPrekeyBundle)
    (ct : Option Bytes) : ZiaHandshakeMaterial where
  initiatorIdentityKey := engine.identityPublic
  initiatorEphemeralKey := X.x25519Base env.ephemeral
  usedOneTimePrekey := bundle.oneTimePrekey
  pqCiphertext := ct

/-- The responder's checks and key agreements. -/
structure ResponderAgrees (engine : ZiaEngine K) (handshake : ZiaHandshakeMaterial)
    (spk : ZiaSignedPrekey K) (x : HandshakeSecrets K) : Prop where
  prekey : engine.signedPrekey = some spk
  own : ∃ pub, X.ed25519ToX25519Public engine.identityPublic = some pub
  dh1 : ∃ pub, X.ed25519ToX25519Public handshake.initiatorIdentityKey = some pub ∧
    X.x25519Scalarmult spk.privateKey pub = some x.dh1
  dh2 : ∃ priv, X.ed25519ToX25519Private engine.identityPrivate = some priv ∧
    X.x25519Scalarmult priv handshake.initiatorEphemeralKey = some x.dh2
  dh3 : X.x25519Scalarmult spk.privateKey handshake.initiatorEphemeralKey = some x.dh3
  dh4 : responderDh4 X engine handshake = .ok x.dh4
  kem : decapsulateFor X engine handshake = .ok x.ss

/-- The engine once the one-time prekey of the handshake is consumed. -/
def consumedBy (engine : ZiaEngine K) (handshake : ZiaHandshakeMaterial) : ZiaEngine K :=
  { engine with
    oneTimePrekeys :=
      match handshake.usedOneTimePrekey with
      | none => engine.oneTimePrekeys
      | some used => consumePrekey used engine.oneTimePrekeys }

/-- The session and the material an initiator gets out of `x`. -/
def OpensWith (env : HandshakeEnv K) (engine : ZiaEngine K) (bundle : ZiaPrekeyBundle)
    (s : ZiaSession K) (handshake : ZiaHandshakeMaterial) (x : HandshakeSecrets K) : Prop :=
  ∃ ct, InitiatorAgrees X env engine bundle x ct ∧
    s = initAsInitiator X.toPrimitives env.ratchet
      (adOf engine.identityPublic bundle.identityKey) (x.derive X) bundle.signedPrekey ∧
    handshake = handshakeMaterial X env engine bundle ct

/-- The session and the engine a responder gets out of `x`. -/
def AcceptsWith (engine : ZiaEngine K) (handshake : ZiaHandshakeMaterial) (s : ZiaSession K)
    (engine' : ZiaEngine K) (x : HandshakeSecrets K) : Prop :=
  ∃ spk, ResponderAgrees X engine handshake spk x ∧
    s = initAsResponder (adOf handshake.initiatorIdentityKey engine.identityPublic)
      (x.derive X) spk.publicKey spk.privateKey ∧
    engine' = consumedBy engine handshake

/-! ## When the calls succeed -/

theorem ziaSessionFromBundle_ok_iff {env : HandshakeEnv K} {engine : ZiaEngine K}
    {bundle : ZiaPrekeyBundle} {s : ZiaSession K} {handshake : ZiaHandshakeMaterial} :
    ziaSessionFromBundle X env engine bundle = .ok (s, handshake) ↔
      ∃ x, OpensWith X env engine bundle s handshake x := by
  constructor
  · intro h
    unfold ziaSessionFromBundle at h
    split at h
    · cases h
    rename_i hsigned
    split at h
    · rename_i pub ikPriv ikPub hown hpriv hpub
      split at h
      · rename_i dh1 dh2 dh3 h1 h2 h3
        split at h
        · cases h
        · rename_i _ hne
          split at h
          · cases h
          · rename_i pq hpq
            obtain ⟨rfl, rfl⟩ := Prod.mk.inj (Except.ok.inj h)
            refine ⟨⟨dh1, dh2, dh3,
              (bundle.oneTimePrekey.map (X.x25519Scalarmult env.ephemeral)).join,
              pq.map (·.2)⟩, pq.map (·.1), ?_,
              by simp only [HandshakeSecrets.derive], by simp only [handshakeMaterial]⟩
            refine ⟨by simpa using hsigned, ⟨pub, hown⟩, ⟨ikPriv, hpriv, h1⟩, ⟨ikPub, hpub, h2⟩,
              h3, ?_, ⟨pq, hpq, rfl, rfl⟩⟩
            generalize bundle.oneTimePrekey.map (X.x25519Scalarmult env.ephemeral) = dh4 at hne
            cases dh4 with
            | none => rfl
            | some r =>
              cases r with
              | none => exact (hne rfl).elim
              | some k => rfl
      · cases h
    · cases h
  · rintro ⟨x, ct, hx, rfl, rfl⟩
    obtain ⟨pub, hown⟩ := hx.own
    obtain ⟨ikPriv, hpriv, h1⟩ := hx.dh1
    obtain ⟨ikPub, hpub, h2⟩ := hx.dh2
    obtain ⟨pq, hpq, hct, hss⟩ := hx.kem
    have h4 := hx.dh4
    unfold ziaSessionFromBundle
    rw [if_neg (by simp [hx.signed]), hown, hpriv, hpub]
    simp only [h1, h2, hx.dh3, h4, hpq]
    subst hct
    cases hdh4 : x.dh4 <;> simp [HandshakeSecrets.derive, handshakeMaterial, hss, hdh4]

theorem ziaSessionAcceptHandshake_ok_iff {engine engine' : ZiaEngine K}
    {handshake : ZiaHandshakeMaterial} {s : ZiaSession K} :
    ziaSessionAcceptHandshake X engine handshake = .ok (s, engine') ↔
      ∃ x, AcceptsWith X engine handshake s engine' x := by
  constructor
  · intro h
    unfold ziaSessionAcceptHandshake at h
    split at h
    · cases h
    rename_i spk hspk
    split at h
    · rename_i pub ikPriv ikPub hown hpriv hpub
      split at h
      · rename_i dh1 dh2 dh3 h1 h2 h3
        split at h
        · cases h
        · cases h
        · rename_i dh4 ss h4 hss
          obtain ⟨rfl, rfl⟩ := Prod.mk.inj (Except.ok.inj h)
          exact ⟨⟨dh1, dh2, dh3, dh4, ss⟩, spk,
            ⟨hspk, ⟨pub, hown⟩, ⟨ikPub, hpub, h1⟩, ⟨ikPriv, hpriv, h2⟩, h3, h4, hss⟩, rfl, rfl⟩
      · cases h
    · cases h
  · rintro ⟨x, spk, hx, rfl, rfl⟩
    obtain ⟨pub, hown⟩ := hx.own
    obtain ⟨ikPub, hpub, h1⟩ := hx.dh1
    obtain ⟨ikPriv, hpriv, h2⟩ := hx.dh2
    have hengine : consumedBy engine handshake = { engine with
        signedPrekey := some spk
        oneTimePrekeys := (consumedBy engine handshake).oneTimePrekeys } := by
      rw [← hx.prekey]
      rfl
    unfold ziaSessionAcceptHandshake
    rw [hx.prekey]
    dsimp only
    rw [hown, hpriv, hpub]
    dsimp only
    rw [h1, h2, hx.dh3]
    dsimp only
    rw [hx.dh4, hx.kem, hengine]
    rfl

/-! ## Equal secrets come from equal inputs -/

variable {X}

theorem derive_inj (hkdf : HmacInjective X.toPrimitives) {x y : HandshakeSecrets K}
    (h : x.derive X = y.derive X) : x = y := by
  have heq : ∀ z : HandshakeSecrets K, z.derive X =
      X.hmac (X.hmac X.zero (([z.dh1, z.dh2, z.dh3] ++ z.dh4.toList ++ z.ss.toList).map .key))
        [.text (if z.ss.isSome then "ZiaCryptePQXDH" else "ZiaCrypteX3DH"), .byte 1] :=
    fun _ => rfl
  rw [heq, heq] at h
  obtain ⟨hprk, hlabel⟩ := hkdf _ _ _ _ h
  have hikm := List.map_injective_iff.mpr (fun _ _ he => Piece.key.inj he) (hkdf _ _ _ _ hprk).2
  obtain ⟨x1, x2, x3, x4, xs⟩ := x
  obtain ⟨y1, y2, y3, y4, ys⟩ := y
  -- The label tells whether `ss` is there, the length whether `dh4` is.
  cases xs <;> cases ys <;> simp at hlabel <;>
    cases x4 <;> cases y4 <;> simp_all

/-! ## A message sealed under another secret -/

/-- What a session accepts opens under a key derived from its shared secret. -/
theorem accepted_stamped {P : Primitives K} (h : HmacInjective P) {sk : K}
    (hsk : NotRatchetRoot P sk) (calls : List (RatchetCall K)) {s : ZiaSession K}
    {spent : List K} (hs : SpendInv P sk s spent) {m : EncryptedMessage}
    (hm : m ∈ accepted P calls s) : ∃ key n j, OpensUnder P m key ∧ Stamped P sk n j key := by
  induction calls generalizing s spent with
  | nil => exact absurd hm List.not_mem_nil
  | cons c calls ih =>
    rw [accepted] at hm
    cases ht : RatchetCall.step P c s with
    | none =>
      rw [ht, acceptedBy_of_fault ht] at hm
      exact absurd hm List.not_mem_nil
    | some t =>
      obtain ⟨more, keys, hmoves, hopen, hsub⟩ := call_spends ht
      have hinv := hs.moves h hsk hmoves
      rw [ht] at hm
      rcases List.mem_append.mp hm with hm | hm
      · obtain ⟨i, hi, rfl⟩ := List.getElem_of_mem hm
        have hi' : i < keys.length := hopen.length_eq ▸ hi
        have hheld : keys[i] ∈ heldKeys t (spent ++ more) :=
          List.mem_append_right _ (List.mem_append_right _ (hsub.subset (List.getElem_mem hi')))
        cases hflag : t.hasRecvChain with
        | false =>
          rw [(hinv.noChain hflag).2] at hheld
          exact absurd hheld List.not_mem_nil
        | true =>
          obtain ⟨_, _, hchain⟩ := hinv.chain
          obtain ⟨_, _, _, _, _, _, _, hbefore⟩ := hchain hflag
          obtain ⟨n, j, hstamp, _⟩ := hbefore _ hheld
          exact ⟨keys[i], n, j, hopen.get hi hi', hstamp⟩
      · exact ih hinv hm

/-- The first message of an initiator is sealed under its first chain. -/
theorem firstMessage_sealed {P : Primitives K} {env env' : CallEnv K} {ad : FixedBytes 64}
    {sk : K} {theirs : PublicKey} {plaintext : Bytes} {m : EncryptedMessage} {t : ZiaSession K}
    (h : ziaSessionEncrypt P env' (initAsInitiator P env ad sk theirs) plaintext = .ok m t) :
    m.header = encodeHeader ⟨0, 0, P.x25519Base env.fresh⟩ ∧
      P.aeadEncrypt
        (chainMessageKey P sk ((P.x25519Scalarmult env.fresh theirs).getD env.stack₁) 0)
        zeroNonce plaintext (ad.bytes ++ m.header) = some m.ciphertext := by
  obtain ⟨ck, _, hck, hheader, hseal, _⟩ := encrypt_ok_cases P h
  have hck' : ck = chainOf P sk ((P.x25519Scalarmult env.fresh theirs).getD env.stack₁) :=
    (Option.some.inj hck).symm
  subst hck'
  rw [hheader]
  exact ⟨rfl, hseal⟩

/-- A responder whose secret differs from the initiator's accepts its first
message at no point of any run. -/
theorem firstMessage_not_accepted (hkdf : HmacInjective X.toPrimitives)
    (haead : AeadIdeal X.toPrimitives) {x y : HandshakeSecrets K} (hne : x ≠ y)
    {env env' : CallEnv K} {ad ad' : FixedBytes 64} {theirs : PublicKey} {plaintext : Bytes}
    {m : EncryptedMessage} {t : ZiaSession K}
    (hsend : ziaSessionEncrypt X.toPrimitives env'
      (initAsInitiator X.toPrimitives env ad (x.derive X) theirs) plaintext = .ok m t)
    (myPub : PublicKey) (myPriv : K) (calls : List (RatchetCall K)) :
    ∀ m' ∈ accepted X.toPrimitives calls (initAsResponder ad' (y.derive X) myPub myPriv),
      m'.ciphertext ≠ m.ciphertext := by
  intro m' hm' hct
  have hx := deriveSharedSecret_notRatchetRoot X hkdf x.dh1 x.dh2 x.dh3 x.dh4 x.ss
  have hy := deriveSharedSecret_notRatchetRoot X hkdf y.dh1 y.dh2 y.dh3 y.dh4 y.ss
  obtain ⟨key, n, j, ⟨ad'', pt, hopen⟩, rk, dh, hroot, rfl⟩ := accepted_stamped hkdf hy calls
    (spendInv_start (.responder ad' (y.derive X) myPub myPriv)) hm'
  obtain ⟨_, hseal⟩ := firstMessage_sealed hsend
  rw [hct] at hopen
  have hkey := (haead.binds _ _ _ _ _ _ _ _ (haead.sealed _ _ _ _ _ hopen) hseal).1
  obtain ⟨_, hrk, _⟩ := chainMessageKey_inj hkdf hkey
  cases hroot with
  | zero => exact hne (derive_inj hkdf hrk.symm)
  | succ dh' _ => exact hx _ _ hrk

/-! ## An altered handshake -/

variable (X)

/-- Decapsulating a ciphertext other than the one sent gives an unrelated secret. -/
def KemUnrelated : Prop :=
  ∀ pk seed ct ss sk ct', X.mlkem768Encapsulate pk seed = some (ct, ss) → ct' ≠ ct →
    X.mlkem768Decapsulate sk ct' ≠ some ss

/-- The one-time prekey was added or taken away, or the KEM part was added, taken
away or replaced. -/
def Diverted (sent given : ZiaHandshakeMaterial) : Prop :=
  sent.usedOneTimePrekey.isSome ≠ given.usedOneTimePrekey.isSome ∨
    sent.pqCiphertext ≠ given.pqCiphertext

/-- The secret was encapsulated to a prekey the bundle's identity signed. -/
def HybridOpening (env : HandshakeEnv K) (bundle : ZiaPrekeyBundle) (x : HandshakeSecrets K) :
    Prop :=
  ∃ pk signature ct ss, bundle.pqPrekey = some (pk, signature) ∧
    X.ed25519Verify bundle.identityKey pk signature = true ∧
    X.mlkem768Encapsulate pk env.pqSeed = some (ct, ss) ∧ x.ss = some ss

/-- The secret was decapsulated with the engine's own prekey. -/
def HybridAcceptance (engine : ZiaEngine K) (handshake : ZiaHandshakeMaterial)
    (x : HandshakeSecrets K) : Prop :=
  ∃ pq ct ss, engine.pqPrekey = some pq ∧ handshake.pqCiphertext = some ct ∧
    X.mlkem768Decapsulate pq.privateKey ct = some ss ∧ x.ss = some ss

variable {X}

/-- The two ways an encapsulation succeeds. -/
theorem encapsulateFor_ok_cases {env : HandshakeEnv K} {engine : ZiaEngine K}
    {bundle : ZiaPrekeyBundle} {pq : Option (Bytes × K)}
    (h : encapsulateFor X env engine bundle = .ok pq) :
    (bundle.pqPrekey = none ∧ engine.requirePq = false ∧ pq = none) ∨
    ∃ pk signature ct ss, bundle.pqPrekey = some (pk, signature) ∧
      X.ed25519Verify bundle.identityKey pk signature = true ∧
      X.mlkem768Encapsulate pk env.pqSeed = some (ct, ss) ∧ pq = some (ct, ss) := by
  unfold encapsulateFor at h
  split at h
  · rename_i pk signature hpq
    split at h
    · cases h
    rename_i hsigned
    split at h
    · cases h
    · rename_i out hout
      obtain rfl := Except.ok.inj h
      exact Or.inr ⟨pk, signature, out.1, out.2, hpq, by simpa using hsigned, hout, rfl⟩
  · rename_i hpq
    split at h
    · cases h
    · rename_i hreq
      obtain rfl := Except.ok.inj h
      exact Or.inl ⟨hpq, by simpa using hreq, rfl⟩

theorem decapsulateFor_ok_cases {engine : ZiaEngine K} {handshake : ZiaHandshakeMaterial}
    {ss : Option K} (h : decapsulateFor X engine handshake = .ok ss) :
    (handshake.pqCiphertext = none ∧ engine.requirePq = false ∧ ss = none) ∨
    ∃ pq ct k, engine.pqPrekey = some pq ∧ handshake.pqCiphertext = some ct ∧
      X.mlkem768Decapsulate pq.privateKey ct = some k ∧ ss = some k := by
  unfold decapsulateFor at h
  split at h
  · rename_i ct hct
    split at h
    · cases h
    rename_i pq hpq
    split at h
    · cases h
    · rename_i k hk
      obtain rfl := Except.ok.inj h
      exact Or.inr ⟨pq, ct, k, hpq, hct, hk, rfl⟩
  · rename_i hct
    split at h
    · cases h
    · rename_i hreq
      obtain rfl := Except.ok.inj h
      exact Or.inl ⟨hct, by simpa using hreq, rfl⟩

theorem responderDh4_isSome {engine : ZiaEngine K} {handshake : ZiaHandshakeMaterial}
    {dh4 : Option K} (h : responderDh4 X engine handshake = .ok dh4) :
    dh4.isSome = handshake.usedOneTimePrekey.isSome := by
  unfold responderDh4 at h
  split at h
  · rename_i hused
    obtain rfl := Except.ok.inj h
    rw [hused]
    rfl
  · rename_i used hused
    split at h
    · cases h
    · split at h
      · cases h
      · obtain rfl := Except.ok.inj h
        rw [hused]
        rfl

theorem InitiatorAgrees.dh4_isSome {env : HandshakeEnv K} {engine : ZiaEngine K}
    {bundle : ZiaPrekeyBundle} {x : HandshakeSecrets K} {ct : Option Bytes}
    (h : InitiatorAgrees X env engine bundle x ct) :
    x.dh4.isSome = bundle.oneTimePrekey.isSome := by
  have hsome := congrArg Option.isSome h.dh4
  rw [Option.isSome_map, Option.isSome_map] at hsome
  exact hsome.symm

theorem InitiatorAgrees.hybrid_iff {env : HandshakeEnv K} {engine : ZiaEngine K}
    {bundle : ZiaPrekeyBundle} {x : HandshakeSecrets K} {ct : Option Bytes}
    (h : InitiatorAgrees X env engine bundle x ct) :
    (bundle.pqPrekey = none ∧ engine.requirePq = false ∧ ct = none ∧ x.ss = none) ∨
    HybridOpening X env bundle x ∧ ct.isSome = true := by
  obtain ⟨pq, hpq, hct, hss⟩ := h.kem
  rcases encapsulateFor_ok_cases hpq with ⟨hnone, hreq, rfl⟩ | ⟨pk, sig, c, k, hsome, hsig, henc, rfl⟩
  · exact Or.inl ⟨hnone, hreq, hct.symm, hss.symm⟩
  · refine Or.inr ⟨⟨pk, sig, c, k, hsome, hsig, henc, hss.symm⟩, ?_⟩
    rw [← hct]
    rfl

theorem ResponderAgrees.hybrid_iff {engine : ZiaEngine K} {handshake : ZiaHandshakeMaterial}
    {spk : ZiaSignedPrekey K} {x : HandshakeSecrets K}
    (h : ResponderAgrees X engine handshake spk x) :
    (handshake.pqCiphertext = none ∧ engine.requirePq = false ∧ x.ss = none) ∨
    HybridAcceptance X engine handshake x := by
  rcases decapsulateFor_ok_cases h.kem with ⟨hnone, hreq, hss⟩ | ⟨pq, ct, k, hpq, hct, hdec, hss⟩
  · exact Or.inl ⟨hnone, hreq, hss⟩
  · exact Or.inr ⟨pq, ct, k, hpq, hct, hdec, hss⟩

/-- Both sides on the same inputs were given the same optional parts. -/
theorem agrees_of_eq {env : HandshakeEnv K} {alice bob : ZiaEngine K} {bundle : ZiaPrekeyBundle}
    {given : ZiaHandshakeMaterial} {spk : ZiaSignedPrekey K} {x : HandshakeSecrets K}
    {ct : Option Bytes} (hx : InitiatorAgrees X env alice bundle x ct)
    (hy : ResponderAgrees X bob given spk x) :
    bundle.oneTimePrekey.isSome = given.usedOneTimePrekey.isSome ∧
      bundle.pqPrekey.isSome = given.pqCiphertext.isSome := by
  refine ⟨hx.dh4_isSome.symm.trans (responderDh4_isSome hy.dh4), ?_⟩
  rcases hx.hybrid_iff with ⟨hpq, _, _, hss⟩ | ⟨⟨pk, sig, _, k, hpq, _, _, hss⟩, _⟩ <;>
    rcases hy.hybrid_iff with ⟨hct, _, hss'⟩ | ⟨_, c, k', _, hct, _, hss'⟩ <;>
      rw [hss] at hss'
  · rw [hpq, hct]
    rfl
  · cases hss'
  · cases hss'
  · rw [hpq, hct]
    rfl

/-- A diverted handshake leaves the two sides on different inputs. -/
theorem ne_of_diverted (hkem : KemUnrelated X) {env : HandshakeEnv K} {alice bob : ZiaEngine K}
    {bundle : ZiaPrekeyBundle} {given : ZiaHandshakeMaterial} {spk : ZiaSignedPrekey K}
    {x y : HandshakeSecrets K} {ct : Option Bytes}
    (hx : InitiatorAgrees X env alice bundle x ct) (hy : ResponderAgrees X bob given spk y)
    (hdiv : Diverted (handshakeMaterial X env alice bundle ct) given) : x ≠ y := by
  rintro rfl
  obtain ⟨hotpk, hpq⟩ := agrees_of_eq hx hy
  rcases hdiv with hne | hne
  · exact hne hotpk
  obtain ⟨pq, henc, hct, hss⟩ := hx.kem
  rcases encapsulateFor_ok_cases henc with
    ⟨hnone, _, rfl⟩ | ⟨pk, sig, c, k, hsome, _, hcap, rfl⟩
  · rw [hnone, Option.isSome_none] at hpq
    have hgiven := Option.isSome_eq_false_iff.mp hpq.symm
    rw [Option.isNone_iff_eq_none] at hgiven
    exact hne (hct.symm.trans hgiven.symm)
  · rcases hy.hybrid_iff with ⟨_, _, hss'⟩ | ⟨pq', c', k', _, hc', hdec, hss'⟩
    · rw [hss'] at hss
      cases hss
    · have hk := Option.some.inj (hss.trans hss')
      subst hk
      refine hkem pk env.pqSeed c k pq'.privateKey c' hcap ?_ hdec
      rintro rfl
      exact hne (hct.symm.trans hc'.symm)

/-- Whatever an attacker makes of the handshake: sides that derive the same secret
agree on every input of it, a diverted handshake opens no first message, and an
engine that requires the post-quantum part never gets a secret without it. -/
theorem handshake_binds (X : X3dhPrimitives K) (hkdf : HmacInjective X.toPrimitives)
    (haead : AeadIdeal X.toPrimitives) (hkem : KemUnrelated X) :
    (∀ env alice bundle s sent bob given t bob',
      ziaSessionFromBundle X env alice bundle = .ok (s, sent) →
      ziaSessionAcceptHandshake X bob given = .ok (t, bob') →
      ∃ x y, OpensWith X env alice bundle s sent x ∧ AcceptsWith X bob given t bob' y ∧
        (x.derive X = y.derive X →
          bundle.oneTimePrekey.isSome = given.usedOneTimePrekey.isSome ∧
          bundle.pqPrekey.isSome = given.pqCiphertext.isSome ∧ x = y) ∧
        (Diverted sent given → ∀ env' plaintext m s',
          ziaSessionEncrypt X.toPrimitives env' s plaintext = .ok m s' → ∀ calls,
          ∀ m' ∈ accepted X.toPrimitives calls t, m'.ciphertext ≠ m.ciphertext)) ∧
    (∀ env engine bundle s sent, engine.requirePq = true →
      ziaSessionFromBundle X env engine bundle = .ok (s, sent) →
      ∃ x, OpensWith X env engine bundle s sent x ∧ HybridOpening X env bundle x) ∧
    (∀ engine given t engine', engine.requirePq = true →
      ziaSessionAcceptHandshake X engine given = .ok (t, engine') →
      ∃ x, AcceptsWith X engine given t engine' x ∧ HybridAcceptance X engine given x) := by
  refine ⟨?_, ?_, ?_⟩
  · intro env alice bundle s sent bob given t bob' hopen haccept
    obtain ⟨x, ct, hx, hs, hsent⟩ := (ziaSessionFromBundle_ok_iff X).mp hopen
    obtain ⟨y, spk, hy, ht, hbob⟩ := (ziaSessionAcceptHandshake_ok_iff X).mp haccept
    refine ⟨x, y, ⟨ct, hx, hs, hsent⟩, ⟨spk, hy, ht, hbob⟩, ?_, ?_⟩
    · intro heq
      obtain rfl := derive_inj hkdf heq
      obtain ⟨hotpk, hpq⟩ := agrees_of_eq hx hy
      exact ⟨hotpk, hpq, rfl⟩
    · intro hdiv env' plaintext m s' hsend calls
      rw [hsent] at hdiv
      rw [hs] at hsend
      rw [ht]
      exact firstMessage_not_accepted hkdf haead (ne_of_diverted hkem hx hy hdiv) hsend _ _ calls
  · intro env engine bundle s sent hreq hopen
    obtain ⟨x, ct, hx, hs, hsent⟩ := (ziaSessionFromBundle_ok_iff X).mp hopen
    refine ⟨x, ⟨ct, hx, hs, hsent⟩, ?_⟩
    rcases hx.hybrid_iff with ⟨_, hreq', _⟩ | ⟨hybrid, _⟩
    · rw [hreq] at hreq'
      cases hreq'
    · exact hybrid
  · intro engine given t engine' hreq haccept
    obtain ⟨x, spk, hx, ht, hengine⟩ := (ziaSessionAcceptHandshake_ok_iff X).mp haccept
    refine ⟨x, ⟨spk, hx, ht, hengine⟩, ?_⟩
    rcases hx.hybrid_iff with ⟨_, hreq', _⟩ | hybrid
    · rw [hreq] at hreq'
      cases hreq'
    · exact hybrid

/-! ## A stripped ciphertext -/

theorem symbolic_kemUnrelated : KemUnrelated symbolic := by
  intro pk seed ct ss sk ct' henc hne hdec
  obtain ⟨rfl, rfl⟩ := Prod.mk.inj (Option.some.inj henc)
  exact hne (Option.some.inj hdec)

/-- An engine of the symbolic instance, with the prekeys of a bundle. -/
def symbolicEngine (identity : Bytes) : ZiaEngine Bytes where
  identityPublic := symbolic.x25519Base identity
  identityPrivate := identity
  signedPrekey := some ⟨symbolic.x25519Base [5], [5], []⟩
  pqPrekey := some ⟨[6], [6], []⟩
  oneTimePrekeys := [⟨symbolic.x25519Base [7], [7], false⟩]
  requirePq := false

def symbolicBundle (identity : Bytes) : ZiaPrekeyBundle where
  identityKey := symbolic.x25519Base identity
  signedPrekey := symbolic.x25519Base [5]
  signedPrekeySignature := []
  oneTimePrekey := some (symbolic.x25519Base [7])
  pqPrekey := some ([6], [])

def symbolicHandshakeEnv : HandshakeEnv Bytes := ⟨[8], [9], ⟨[10], [], [], true⟩⟩

/-- The handshake with its KEM ciphertext stripped is accepted, and never opens
the first message. -/
theorem symbolic_downgrade_closed : ∃ s sent t bob',
    ziaSessionFromBundle symbolic symbolicHandshakeEnv (symbolicEngine [1]) (symbolicBundle [2]) =
      .ok (s, sent) ∧
    ziaSessionAcceptHandshake symbolic (symbolicEngine [2]) { sent with pqCiphertext := none } =
      .ok (t, bob') ∧
    ∀ plaintext m s', ziaSessionEncrypt symbolic.toPrimitives symbolicEnv s plaintext = .ok m s' →
      ∀ calls, ∀ m' ∈ accepted symbolic.toPrimitives calls t, m'.ciphertext ≠ m.ciphertext := by
  obtain ⟨hpair, _, _⟩ :=
    handshake_binds symbolic symbolic_hmacInjective symbolic_aeadIdeal symbolic_kemUnrelated
  obtain ⟨s, sent, hopen, hct, t, bob', haccept⟩ : ∃ s sent,
      ziaSessionFromBundle symbolic symbolicHandshakeEnv (symbolicEngine [1])
        (symbolicBundle [2]) = .ok (s, sent) ∧ sent.pqCiphertext = some [9] ∧
      ∃ t bob', ziaSessionAcceptHandshake symbolic (symbolicEngine [2])
        { sent with pqCiphertext := none } = .ok (t, bob') := ⟨_, _, rfl, rfl, _, _, rfl⟩
  refine ⟨s, sent, t, bob', hopen, haccept, ?_⟩
  obtain ⟨_, _, _, _, _, hclosed⟩ := hpair _ _ _ _ _ _ _ _ _ hopen haccept
  intro plaintext m s' hsend
  refine hclosed (Or.inr ?_) symbolicEnv plaintext m s' hsend
  rw [hct]
  exact Option.some_ne_none _

end ZiaCrypte.Engine

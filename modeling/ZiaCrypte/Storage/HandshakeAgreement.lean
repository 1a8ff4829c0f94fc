import ZiaCrypte.Storage.EngineRuns
import ZiaCrypte.Storage.Symbolic
import ZiaCrypte.Engine.Agreement
import ZiaCrypte.Engine.Delivery

/-!
# A handshake from a served bundle

A bundle an engine hands out opens a session with that engine for as long as it
holds the prekeys the bundle refers to, whichever of the optional ones the server
left out.
-/
namespace ZiaCrypte.Storage

open ZiaCrypte.Lib ZiaCrypte.Engine

/-- What the handshake needs of its primitives, on honest keys. -/
structure EnginePrimitives.Correct (X : EnginePrimitives) : Prop where
  dh : DhAgreement X.toPrimitives
  aead : AeadCorrect X.toPrimitives
  converts : ∀ seed, Converts X.toX3dhPrimitives (X.ed25519Keypair seed).1
    (X.ed25519Keypair seed).2.bytes
  verifies : ∀ seed m, X.ed25519Verify (X.ed25519Keypair seed).1 m
    (X.ed25519Sign (X.ed25519Keypair seed).2 m).bytes = true
  kem : ∀ seed pair, X.mlkem768Keypair seed = some pair → ∀ r, ∃ ct ss,
    X.mlkem768Encapsulate pair.1.bytes r = some (ct, ss) ∧
    X.mlkem768Decapsulate pair.2.bytes ct = some ss

/-- The bundle as the server passes it on, with its optional prekeys or without. -/
def servedBundle (withOneTime withPq : Bool) (bundle : ZiaPrekeyBundle) : ZiaPrekeyBundle :=
  { bundle with
    oneTimePrekey := if withOneTime then bundle.oneTimePrekey else none
    pqPrekey := if withPq then bundle.pqPrekey else none }

/-- The engine still holds the prekeys the bundle refers to: none was rotated, and
the one-time prekey was not consumed. -/
structure Holds (e : ZiaEngine) (bundle : ZiaPrekeyBundle) : Prop where
  identity : e.identityPublic = bundle.identityKey
  signed : ∃ spk, e.signedPrekey = some spk ∧ spk.publicKey = bundle.signedPrekey
  pq : ∀ pk signature, bundle.pqPrekey = some (pk, signature) →
    ∃ pq, e.pqPrekey = some pq ∧ pq.publicKey.bytes = pk
  oneTime : ∀ used, bundle.oneTimePrekey = some used →
    ∃ k ∈ e.oneTimePrekeys, k.consumed = false ∧ k.publicKey = used

/-- The signatures of the bundle are by its identity. -/
structure Authentic (X : EnginePrimitives) (bundle : ZiaPrekeyBundle) : Prop where
  signed : X.ed25519Verify bundle.identityKey bundle.signedPrekey.bytes
    bundle.signedPrekeySignature = true
  pq : ∀ pk signature, bundle.pqPrekey = some (pk, signature) →
    X.ed25519Verify bundle.identityKey pk signature = true

variable {S : SecretStream} {X : EnginePrimitives}

theorem Authentic.served {bundle : ZiaPrekeyBundle} (h : Authentic X bundle)
    (withOneTime withPq : Bool) : Authentic X (servedBundle withOneTime withPq bundle) := by
  refine ⟨h.signed, ?_⟩
  intro pk signature hpq
  cases withPq with
  | true => exact h.pq pk signature hpq
  | false => cases hpq

/-- What an honest engine publishes is authentic. -/
theorem publishedBundle_authentic (hX : X.Correct) {e : ZiaEngine} (he : Honest X e)
    {otpk : ZiaOneTimePrekey} {bundle : ZiaPrekeyBundle}
    (h : publishedBundle e otpk = .ok bundle) : Authentic X bundle := by
  unfold publishedBundle at h
  split at h
  · rename_i spk pq hspk hpq
    obtain rfl := Except.ok.inj h
    obtain ⟨hflag, priv, fresh, hpriv, rfl⟩ := he.signed spk hspk
    obtain ⟨_, priv', _, _, hpriv', _, rfl⟩ := he.pq pq hpq
    obtain ⟨seed, hpub, hpriv''⟩ := he.identity hflag
    obtain rfl := Option.some.inj (hpriv.symm.trans hpriv'')
    obtain rfl := Option.some.inj (hpriv'.symm.trans hpriv'')
    refine ⟨?_, ?_⟩
    · rw [hpub]
      exact hX.verifies seed _
    · intro pk signature hsome
      obtain ⟨rfl, rfl⟩ := Prod.mk.inj (Option.some.inj hsome)
      rw [hpub]
      exact hX.verifies seed _
  · cases h

/-- What an engine hands out has a post-quantum prekey. -/
theorem bundleGenerate_hybrid {env : BundleEnv} {h h' : Host} {bundle : ZiaPrekeyBundle}
    (hcall : ziaPrekeyBundleGenerate S X env h = some (.ok bundle, h')) :
    ∃ pk signature, bundle.pqPrekey = some (pk, signature) := by
  rcases ziaPrekeyBundleGenerate_cases hcall with
    ⟨_, hrc, _⟩ | ⟨_, _, _, _, ⟨_, _, hrc, _⟩ | ⟨e, _, _, _, _, hrc, _, _⟩⟩
  · cases hrc
  · cases hrc
  · unfold publishedBundle at hrc
    split at hrc
    · obtain rfl := Except.ok.inj hrc
      exact ⟨_, _, rfl⟩
    · cases hrc

theorem bundleGenerate_authentic (hS : S.Sound) (hX : X.Correct) {env : BundleEnv} {h h' : Host}
    (hh : HonestHost S X h) {bundle : ZiaPrekeyBundle}
    (hcall : ziaPrekeyBundleGenerate S X env h = some (.ok bundle, h')) : Authentic X bundle := by
  have hh' := hh.bundleGenerate hS hcall
  rcases ziaPrekeyBundleGenerate_cases hcall with
    ⟨_, hrc, _⟩ | ⟨_, _, _, _, ⟨_, _, hrc, _⟩ | ⟨e, _, _, _, _, hrc, _, rfl⟩⟩
  · cases hrc
  · cases hrc
  · exact publishedBundle_authentic hX hh'.engine hrc.symm

/-- An honest identity converts. -/
theorem Honest.converts (hX : X.Correct) {e : ZiaEngine} (he : Honest X e)
    (hflag : e.hasIdentity = true) :
    Converts X.toX3dhPrimitives e.handshakeKeys.identityPublic e.handshakeKeys.identityPrivate := by
  obtain ⟨seed, hpub, hpriv⟩ := he.identity hflag
  have hbytes : e.handshakeKeys.identityPrivate = (X.ed25519Keypair seed).2.bytes := by
    rw [ZiaEngine.handshakeKeys, hpriv]
    rfl
  rw [hbytes]
  change Converts X.toX3dhPrimitives e.identityPublic _
  rw [hpub]
  exact hX.converts seed

theorem Honest.keyPresent {e : ZiaEngine} (he : Honest X e) : e.KeyPresent := by
  intro hflag
  obtain ⟨_, _, hpriv⟩ := he.identity hflag
  rw [hpriv]
  rfl

theorem Honest.availableFor {e : ZiaEngine} (he : Honest X e) {bundle : ZiaPrekeyBundle}
    (hholds : Holds e bundle) :
    AvailableFor X.toX3dhPrimitives bundle e.handshakeKeys.oneTimePrekeys := by
  constructor
  · intro used hused
    obtain ⟨k, hk, havailable, hpub⟩ := hholds.oneTime used hused
    exact ⟨_, List.mem_map.mpr ⟨k, hk, rfl⟩, havailable, hpub⟩
  · intro k hk
    obtain ⟨k', hk', rfl⟩ := List.mem_map.mp hk
    exact he.oneTime k' hk'

theorem Honest.hybridFor (hX : X.Correct) {env : HandshakeEnv Bytes} {alice bob : ZiaEngine}
    (hbob : Honest X bob) {bundle : ZiaPrekeyBundle} (hauth : Authentic X bundle)
    (hholds : Holds bob bundle)
    (hclassic : bundle.pqPrekey = none → alice.requirePq = false ∧ bob.requirePq = false) :
    HybridFor X.toX3dhPrimitives env alice.handshakeKeys bob.handshakeKeys bundle := by
  cases hpq : bundle.pqPrekey with
  | none => exact Or.inl ⟨hpq, hclassic hpq⟩
  | some published =>
    obtain ⟨pk, signature⟩ := published
    obtain ⟨pq, hheld, hpub⟩ := hholds.pq pk signature hpq
    obtain ⟨_, priv, seed, pair, _, hpair, rfl⟩ := hbob.pq pq hheld
    obtain ⟨ct, ss, henc, hdec⟩ := hX.kem seed pair hpair env.pqSeed
    refine Or.inr ⟨pk, signature, ⟨pair.1.bytes, pair.2.bytes,
      (newPqPrekey X priv pair).signature.bytes⟩, ct, ss, hpq,
      hauth.pq pk signature hpq, ?_, ?_, hdec⟩
    · rw [ZiaEngine.handshakeKeys, hheld]
      rfl
    · rw [← hpub]
      exact henc

/-- Both calls succeed, on the same secret and the same associated data, and the
initiator's first message opens. -/
def Agrees (S : SecretStream) (X : EnginePrimitives) (env : HandshakeEnv Bytes)
    (save : WriteUse) (alice bob : Host) (bundle : ZiaPrekeyBundle) : Prop :=
  ∃ s sent t bob' ad sk spk,
    ziaSessionFromBundle X env alice bundle = .ok (s, sent) ∧
    ziaSessionAcceptHandshake S X save sent bob = some (.ok t, bob') ∧
    bob.engine.signedPrekey = some spk ∧
    s = initAsInitiator X.toPrimitives env.ratchet ad sk bundle.signedPrekey ∧
    t = initAsResponder ad sk spk.publicKey spk.privateKey.bytes ∧
    ∀ env' plaintext m s', ziaSessionEncrypt X.toPrimitives env' s plaintext = .ok m s' →
      ∀ env'', env''.alloc = true → ∃ t',
        ziaSessionDecrypt X.toPrimitives env'' t m.header m.ciphertext = .ok plaintext t'

/-- An accepted handshake is handed out whatever becomes of the save. -/
theorem ziaSessionAcceptHandshake_returns {h : Host} (hkey : h.engine.KeyPresent)
    (hflag : h.engine.hasIdentity = true) {handshake : ZiaHandshakeMaterial}
    {t : ZiaSession Bytes} {e' : Engine.ZiaEngine Bytes}
    (haccept : Engine.ziaSessionAcceptHandshake X.toX3dhPrimitives h.engine.handshakeKeys
      handshake = .ok (t, e')) (save : WriteUse) :
    ∃ h', ziaSessionAcceptHandshake S X save handshake h = some (.ok t, h') := by
  unfold ziaSessionAcceptHandshake
  rw [if_neg (by simp [hflag]), haccept]
  cases handshake.usedOneTimePrekey with
  | none => exact ⟨h, rfl⟩
  | some used =>
    obtain ⟨ok, d, hsave⟩ := saveIdentity_returns (S := S) (e := { h.engine with
      oneTimePrekeys := consumePrekey used h.engine.oneTimePrekeys }) hkey save h.device
    dsimp only
    rw [hsave]
    exact ⟨_, rfl⟩

theorem HonestHost.agrees (hX : X.Correct) {alice bob : Host} (halice : HonestHost S X alice)
    (hbob : HonestHost S X bob) (hidentity : alice.engine.hasIdentity = true)
    {bundle : ZiaPrekeyBundle} (hauth : Authentic X bundle) (hholds : Holds bob.engine bundle)
    (hclassic : bundle.pqPrekey = none →
      alice.engine.requirePq = false ∧ bob.engine.requirePq = false)
    (env : HandshakeEnv Bytes) (save : WriteUse) : Agrees S X env save alice bob bundle := by
  obtain ⟨spk, hspk, hannounced⟩ := hholds.signed
  obtain ⟨hflag, priv, fresh, _, hpair⟩ := hbob.engine.signed spk hspk
  have hpub : spk.publicKey = X.x25519Base spk.privateKey.bytes := by
    rw [hpair]
    rfl
  have hkeys : bob.engine.handshakeKeys.signedPrekey =
      some ⟨spk.publicKey, spk.privateKey.bytes, spk.signature.bytes⟩ := by
    rw [ZiaEngine.handshakeKeys, hspk]
    rfl
  obtain ⟨x, ct, hx, hy⟩ := honest_agree hX.dh env
    (halice.engine.converts hX hidentity) (hbob.engine.converts hX hflag)
    hholds.identity.symm hkeys ⟨hannounced.symm, hpub, hauth.signed⟩
    (hbob.engine.availableFor hholds) (hbob.engine.hybridFor hX hauth hholds hclassic)
  have hopen := (ziaSessionFromBundle_ok_iff X.toX3dhPrimitives).mpr ⟨x, ct, hx, rfl, rfl⟩
  have haccept := (ziaSessionAcceptHandshake_ok_iff X.toX3dhPrimitives).mpr ⟨x, _, hy, rfl, rfl⟩
  obtain ⟨bob', hbob'⟩ :=
    ziaSessionAcceptHandshake_returns (S := S) hbob.engine.keyPresent hflag haccept save
  have had : adOf alice.engine.identityPublic bundle.identityKey =
      adOf alice.engine.identityPublic bob.engine.identityPublic := by rw [hholds.identity]
  refine ⟨_, _, _, bob', adOf alice.engine.identityPublic bundle.identityKey,
    x.derive X.toX3dhPrimitives, spk, ?_, hbob', hspk, rfl, ?_, ?_⟩
  · rw [ziaSessionFromBundle, if_neg (by simp [hidentity])]
    exact hopen
  · rw [had]
    rfl
  · intro env' plaintext m s' hsend env'' halloc
    rw [had, ← hannounced, hpub] at hsend
    change ∃ t', ziaSessionDecrypt X.toPrimitives env'' (initAsResponder
      (adOf alice.engine.identityPublic bob.engine.identityPublic) _ spk.publicKey
      spk.privateKey.bytes) m.header m.ciphertext = .ok plaintext t'
    rw [hpub]
    exact firstMessage_opens hX.aead hX.dh hsend halloc

/-- Whatever both sides did since their folders were blank: a bundle that one of
them handed out, served with or without its optional prekeys, opens a session on
both sides for as long as the responder holds what it refers to. -/
theorem handshake_agrees (hS : S.Sound) (hX : X.Correct) {dAlice dBob : Device}
    (hAlice : dAlice.identityFile = none) (hBob : dBob.identityFile = none)
    {callsAlice callsBob later : List EngineCall} {alice bob₀ bob₁ bob : Host}
    (halice : run (EngineCall.step S X) callsAlice (.blank dAlice) = some alice)
    (hidentity : alice.engine.hasIdentity = true)
    (hbob : run (EngineCall.step S X) callsBob (.blank dBob) = some bob₀)
    {bundleEnv : BundleEnv} {bundle : ZiaPrekeyBundle}
    (hbundle : ziaPrekeyBundleGenerate S X bundleEnv bob₀ = some (.ok bundle, bob₁))
    (hlater : run (EngineCall.step S X) later bob₁ = some bob) (withOneTime withPq : Bool)
    (hholds : Holds bob.engine (servedBundle withOneTime withPq bundle))
    (hclassic : withPq = false → alice.engine.requirePq = false ∧ bob.engine.requirePq = false)
    (env : HandshakeEnv Bytes) (save : WriteUse) :
    Agrees S X env save alice bob (servedBundle withOneTime withPq bundle) := by
  have hh₀ := honest_run hS hBob hbob
  have hh := run_invariant (fun c s t => honestHost_step hS c s t)
    (hh₀.bundleGenerate hS hbundle) hlater
  have hauth := bundleGenerate_authentic hS hX hh₀ hbundle
  refine (honest_run hS hAlice halice).agrees hX hh hidentity (hauth.served _ _) hholds ?_ env save
  intro hnone
  cases withPq with
  | false => exact hclassic rfl
  | true =>
    obtain ⟨pk, signature, hsome⟩ := bundleGenerate_hybrid hbundle
    rw [servedBundle, if_pos rfl, hsome] at hnone
    cases hnone

/-! ## Two symbolic hosts -/

theorem symbolic_x25519Base (seed : Key) (rest : Bytes) :
    symbolic.x25519Base (seed.bytes ++ rest) = seed :=
  FixedBytes.copy_append [] seed rest 0 rfl

theorem symbolicHost_correct : symbolicHost.Correct where
  dh := symbolic_dhAgreement
  aead := symbolic_aeadCorrect
  converts seed := by
    have hcopy : (FixedBytes.copy 64 (seed.bytes ++ seed.bytes) 0).bytes =
        seed.bytes ++ seed.bytes := by
      simp [FixedBytes.copy, List.rightpad]
    have hpublic := symbolic_x25519Base seed []
    rw [List.append_nil] at hpublic
    refine ⟨_, rfl, ?_⟩
    change some (symbolic.x25519Base seed.bytes) =
      some (symbolic.x25519Base (FixedBytes.copy 64 (seed.bytes ++ seed.bytes) 0).bytes)
    rw [hcopy, symbolic_x25519Base, hpublic]
  verifies _ _ := rfl
  kem _ _ _ r := ⟨r, r, rfl, rfl⟩

def symbolicSeed (b : UInt8) : Key := FixedBytes.copy 32 [b] 0

def symbolicIdentity (b : UInt8) : Host :=
  ⟨{ ZiaEngine.new with
      hasIdentity := true
      identityPublic := (symbolicHost.ed25519Keypair (symbolicSeed b)).1
      identityPrivate := some (symbolicHost.ed25519Keypair (symbolicSeed b)).2 }, memoryOnly⟩

def symbolicBundleEnv : BundleEnv where
  rotate := ⟨symbolicSeed 3, FixedBytes.zero 64, workingWrite⟩
  oneTime := symbolicSeed 4
  save := workingWrite

/-- A bundle served without its one-time prekey opens a session. -/
theorem symbolicHosts_agree : ∃ bundle bob,
    ziaPrekeyBundleGenerate namedStream symbolicHost symbolicBundleEnv (symbolicIdentity 2) =
      some (.ok bundle, bob) ∧
    Agrees namedStream symbolicHost symbolicHandshakeEnv workingWrite (symbolicIdentity 1) bob
      (servedBundle false true bundle) := by
  obtain ⟨bundle, bob, hcall, hholds⟩ : ∃ bundle bob,
      ziaPrekeyBundleGenerate namedStream symbolicHost symbolicBundleEnv (symbolicIdentity 2) =
        some (.ok bundle, bob) ∧ Holds bob.engine (servedBundle false true bundle) := by
    refine ⟨_, _, rfl, rfl, ⟨_, rfl, rfl⟩, ?_, ?_⟩
    · intro pk signature hpq
      exact ⟨_, rfl, congrArg Prod.fst (Option.some.inj hpq)⟩
    · intro used hused
      cases hused
  have hblank : memoryOnly.identityFile = none := rfl
  have halice : run (EngineCall.step namedStream symbolicHost)
      [.identityGenerate workingWrite (symbolicSeed 1)] (.blank memoryOnly) =
      some (symbolicIdentity 1) := rfl
  have hbob : run (EngineCall.step namedStream symbolicHost)
      [.identityGenerate workingWrite (symbolicSeed 2)] (.blank memoryOnly) =
      some (symbolicIdentity 2) := rfl
  refine ⟨bundle, bob, hcall, ?_⟩
  exact handshake_agrees namedStream_sound symbolicHost_correct hblank hblank halice rfl hbob hcall
    (run_nil _ bob) false true hholds (fun h => absurd h.symm Bool.false_ne_true)
    symbolicHandshakeEnv workingWrite

end ZiaCrypte.Storage

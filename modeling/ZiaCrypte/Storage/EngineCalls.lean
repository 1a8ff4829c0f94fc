import ZiaCrypte.Storage.Device
import ZiaCrypte.Engine.Handshake

/-!
# `engine.cpp`, `identity.cpp`, `x3dh.cpp`: the calls that use the stored identity

An engine and the device it runs on. Every call that changes the identity or the
prekeys saves them and goes on whatever the save returns. A call returns with a
status and the host as it left it, or faults on the null pointer of an empty
`SecureBuffer`.
-/
namespace ZiaCrypte.Storage

open ZiaCrypte.Lib ZiaCrypte.Engine

/-- The handshake's primitives, with those that make keys and signatures. -/
structure EnginePrimitives extends X3dhPrimitives Bytes where
  /-- Seed to public and secret key. -/
  ed25519Keypair : Key → PublicKey × FixedBytes 64
  ed25519Sign : FixedBytes 64 → Bytes → Signature
  /-- `none` when the source of randomness fails. -/
  mlkem768Keypair : FixedBytes 64 → Option (FixedBytes 1184 × FixedBytes 2400)

structure Host where
  engine : ZiaEngine
  device : Device

variable (S : SecretStream) (X : EnginePrimitives)

/-! ## `engine.cpp`, `identity.cpp` -/

/-- `zia_engine_init`, which ignores what `load_identity` returns. -/
def ziaEngineInit (use : ReadUse) (d : Device) : Host :=
  let r := loadIdentity S use .new d
  ⟨r.2.1, r.2.2⟩

def ziaIdentityGenerate (save : WriteUse) (seed : Key) (h : Host) :
    Option (Except ZiaError PublicKey × Host) :=
  if h.engine.hasIdentity then some (.error .alreadyInitialized, h)
  else do
    let pair := X.ed25519Keypair seed
    let e := { h.engine with
      hasIdentity := true, identityPublic := pair.1, identityPrivate := some pair.2 }
    let r ← saveIdentity S save e h.device
    pure (.ok pair.1, ⟨e, r.2⟩)

def ziaIdentityGetPublicKey (h : Host) : Except ZiaError PublicKey :=
  if h.engine.hasIdentity then .ok h.engine.identityPublic else .error .notInitialized

/-! ## `x3dh.cpp`: prekeys -/

def ziaSessionRequirePq (required : Bool) (h : Host) : Host :=
  { h with engine := { h.engine with requirePq := required } }

def newSignedPrekey (identity : FixedBytes 64) (fresh : Key) : ZiaSignedPrekey where
  publicKey := X.x25519Base fresh.bytes
  privateKey := fresh
  signature := X.ed25519Sign identity (X.x25519Base fresh.bytes).bytes

def newPqPrekey (identity : FixedBytes 64) (pair : FixedBytes 1184 × FixedBytes 2400) :
    ZiaPqPrekey where
  publicKey := pair.1
  privateKey := pair.2
  signature := X.ed25519Sign identity pair.1.bytes

def newOneTimePrekey (fresh : Key) : ZiaOneTimePrekey where
  publicKey := X.x25519Base fresh.bytes
  privateKey := fresh
  consumed := false

structure RotateEnv where
  signedPrekey : Key
  pqSeed : FixedBytes 64
  save : WriteUse

/-- `zia_prekey_bundle_rotate`: the signed prekey is replaced before the
post-quantum one is drawn. -/
def ziaPrekeyBundleRotate (env : RotateEnv) (h : Host) : Option (Option ZiaError × Host) :=
  if !h.engine.hasIdentity then some (some .notInitialized, h)
  else do
    let identity ← h.engine.identityPrivate
    let e := { h.engine with signedPrekey := some (newSignedPrekey X identity env.signedPrekey) }
    match X.mlkem768Keypair env.pqSeed with
    | none => pure (some .cryptoFailure, { h with engine := e })
    | some pair =>
        let e := { e with pqPrekey := some (newPqPrekey X identity pair) }
        let r ← saveIdentity S env.save e h.device
        pure (none, ⟨e, r.2⟩)

structure BundleEnv where
  rotate : RotateEnv
  oneTime : Key
  save : WriteUse

/-- The bundle of an engine that has both prekeys. -/
def publishedBundle (e : ZiaEngine) (otpk : ZiaOneTimePrekey) : Except ZiaError ZiaPrekeyBundle :=
  match e.signedPrekey, e.pqPrekey with
  | some spk, some pq => .ok
      { identityKey := e.identityPublic
        signedPrekey := spk.publicKey
        signedPrekeySignature := spk.signature.bytes
        oneTimePrekey := some otpk.publicKey
        pqPrekey := some (pq.publicKey.bytes, pq.signature.bytes) }
  | _, _ => .error .notInitialized

/-- The rotation an engine without one of its prekeys makes first. -/
def ensurePrekeys (env : RotateEnv) (h : Host) : Option (Option ZiaError × Host) :=
  if h.engine.signedPrekey.isSome && h.engine.pqPrekey.isSome then some (none, h)
  else ziaPrekeyBundleRotate S X env h

def ziaPrekeyBundleGenerate (env : BundleEnv) (h : Host) :
    Option (Except ZiaError ZiaPrekeyBundle × Host) :=
  if !h.engine.hasIdentity then some (.error .notInitialized, h)
  else do
    let r ← ensurePrekeys S X env.rotate h
    match r with
    | (some rc, h) => pure (.error rc, h)
    | (none, h) =>
        let otpk := newOneTimePrekey X env.oneTime
        let e := { h.engine with oneTimePrekeys := h.engine.oneTimePrekeys ++ [otpk] }
        let r ← saveIdentity S env.save e h.device
        pure (publishedBundle e otpk, ⟨e, r.2⟩)

/-! ## `x3dh.cpp`: sessions -/

/-- The keys the handshake reads; an empty buffer reads as no bytes. -/
def ZiaEngine.handshakeKeys (e : ZiaEngine) : Engine.ZiaEngine Bytes where
  identityPublic := e.identityPublic
  identityPrivate := (e.identityPrivate.map (·.bytes)).getD []
  signedPrekey := e.signedPrekey.map fun spk =>
    ⟨spk.publicKey, spk.privateKey.bytes, spk.signature.bytes⟩
  pqPrekey := e.pqPrekey.map fun pq =>
    ⟨pq.publicKey.bytes, pq.privateKey.bytes, pq.signature.bytes⟩
  oneTimePrekeys := e.oneTimePrekeys.map fun k => ⟨k.publicKey, k.privateKey.bytes, k.consumed⟩
  requirePq := e.requirePq

def ziaSessionFromBundle (env : HandshakeEnv Bytes) (h : Host) (bundle : ZiaPrekeyBundle) :
    Except ZiaError (ZiaSession Bytes × ZiaHandshakeMaterial) :=
  if !h.engine.hasIdentity then .error .notInitialized
  else Engine.ziaSessionFromBundle X.toX3dhPrimitives env h.engine.handshakeKeys bundle

/-- `zia_session_accept_handshake`: the consumption of a one-time prekey is saved. -/
def ziaSessionAcceptHandshake (save : WriteUse) (handshake : ZiaHandshakeMaterial) (h : Host) :
    Option (Except ZiaError (ZiaSession Bytes) × Host) :=
  if !h.engine.hasIdentity then some (.error .notInitialized, h)
  else
    match Engine.ziaSessionAcceptHandshake X.toX3dhPrimitives h.engine.handshakeKeys handshake with
    | .error rc => some (.error rc, h)
    | .ok (session, _) =>
        match handshake.usedOneTimePrekey with
        | none => some (.ok session, h)
        | some used => do
            let e := { h.engine with oneTimePrekeys := consumePrekey used h.engine.oneTimePrekeys }
            let r ← saveIdentity S save e h.device
            pure (.ok session, ⟨e, r.2⟩)

/-! ## What each call does -/

variable {S X}

theorem ziaIdentityGenerate_cases {save : WriteUse} {seed : Key} {h h' : Host}
    {rc : Except ZiaError PublicKey} (hcall : ziaIdentityGenerate S X save seed h = some (rc, h')) :
    (h.engine.hasIdentity = true ∧ h' = h) ∨
    ∃ e ok d, h.engine.hasIdentity = false ∧
      e = { h.engine with
        hasIdentity := true
        identityPublic := (X.ed25519Keypair seed).1
        identityPrivate := some (X.ed25519Keypair seed).2 } ∧
      saveIdentity S save e h.device = some (ok, d) ∧ h' = ⟨e, d⟩ := by
  unfold ziaIdentityGenerate at hcall
  split at hcall
  · rename_i hflag
    obtain ⟨_, rfl⟩ := Prod.mk.inj (Option.some.inj hcall)
    exact Or.inl ⟨hflag, rfl⟩
  · rename_i hflag
    obtain ⟨⟨ok, d⟩, hsave, hret⟩ := Option.bind_eq_some_iff.mp hcall
    obtain ⟨_, rfl⟩ := Prod.mk.inj (Option.some.inj hret)
    exact Or.inr ⟨_, ok, d, Bool.eq_false_iff.mpr hflag, rfl, hsave, rfl⟩

theorem ziaPrekeyBundleRotate_cases {env : RotateEnv} {h h' : Host} {rc : Option ZiaError}
    (hcall : ziaPrekeyBundleRotate S X env h = some (rc, h')) :
    (h.engine.hasIdentity = false ∧ rc = some .notInitialized ∧ h' = h) ∨
    ∃ identity e, h.engine.hasIdentity = true ∧ h.engine.identityPrivate = some identity ∧
      e = { h.engine with
        signedPrekey := some (newSignedPrekey X identity env.signedPrekey) } ∧
      ((X.mlkem768Keypair env.pqSeed = none ∧ rc = some .cryptoFailure ∧
          h' = { h with engine := e }) ∨
        ∃ pair ok d, X.mlkem768Keypair env.pqSeed = some pair ∧ rc = none ∧
          saveIdentity S env.save { e with pqPrekey := some (newPqPrekey X identity pair) }
            h.device = some (ok, d) ∧
          h' = ⟨{ e with pqPrekey := some (newPqPrekey X identity pair) }, d⟩) := by
  unfold ziaPrekeyBundleRotate at hcall
  split at hcall
  · rename_i hflag
    obtain ⟨rfl, rfl⟩ := Prod.mk.inj (Option.some.inj hcall)
    exact Or.inl ⟨by simpa using hflag, rfl, rfl⟩
  · rename_i hflag
    obtain ⟨identity, hpriv, hrest⟩ := Option.bind_eq_some_iff.mp hcall
    refine Or.inr ⟨identity, _, by simpa using hflag, hpriv, rfl, ?_⟩
    split at hrest
    · rename_i hnone
      obtain ⟨rfl, rfl⟩ := Prod.mk.inj (Option.some.inj hrest)
      exact Or.inl ⟨hnone, rfl, rfl⟩
    · rename_i pair hpair
      obtain ⟨⟨ok, d⟩, hsave, hret⟩ := Option.bind_eq_some_iff.mp hrest
      obtain ⟨rfl, rfl⟩ := Prod.mk.inj (Option.some.inj hret)
      exact Or.inr ⟨pair, ok, d, hpair, rfl, hsave, rfl⟩

theorem ziaPrekeyBundleGenerate_cases {env : BundleEnv} {h h' : Host}
    {rc : Except ZiaError ZiaPrekeyBundle}
    (hcall : ziaPrekeyBundleGenerate S X env h = some (rc, h')) :
    (h.engine.hasIdentity = false ∧ rc = .error .notInitialized ∧ h' = h) ∨
    ∃ rc' h₁, h.engine.hasIdentity = true ∧ ensurePrekeys S X env.rotate h = some (rc', h₁) ∧
      ((∃ err, rc' = some err ∧ rc = .error err ∧ h' = h₁) ∨
        ∃ e ok d, rc' = none ∧
          e = { h₁.engine with
            oneTimePrekeys := h₁.engine.oneTimePrekeys ++ [newOneTimePrekey X env.oneTime] } ∧
          rc = publishedBundle e (newOneTimePrekey X env.oneTime) ∧
          saveIdentity S env.save e h₁.device = some (ok, d) ∧ h' = ⟨e, d⟩) := by
  unfold ziaPrekeyBundleGenerate at hcall
  split at hcall
  · rename_i hflag
    obtain ⟨rfl, rfl⟩ := Prod.mk.inj (Option.some.inj hcall)
    exact Or.inl ⟨by simpa using hflag, rfl, rfl⟩
  · rename_i hflag
    obtain ⟨⟨rc', h₁⟩, hensure, hrest⟩ := Option.bind_eq_some_iff.mp hcall
    refine Or.inr ⟨rc', h₁, by simpa using hflag, hensure, ?_⟩
    cases rc' with
    | some err =>
      obtain ⟨rfl, rfl⟩ := Prod.mk.inj (Option.some.inj hrest)
      exact Or.inl ⟨err, rfl, rfl, rfl⟩
    | none =>
      obtain ⟨⟨ok, d⟩, hsave, hret⟩ := Option.bind_eq_some_iff.mp hrest
      obtain ⟨rfl, rfl⟩ := Prod.mk.inj (Option.some.inj hret)
      exact Or.inr ⟨_, ok, d, rfl, rfl, rfl, hsave, rfl⟩

theorem ziaSessionAcceptHandshake_cases {save : WriteUse} {handshake : ZiaHandshakeMaterial}
    {h h' : Host} {rc : Except ZiaError (ZiaSession Bytes)}
    (hcall : ziaSessionAcceptHandshake S X save handshake h = some (rc, h')) :
    (∃ err, rc = .error err ∧ h' = h) ∨
    ∃ session e', h.engine.hasIdentity = true ∧ rc = .ok session ∧
      Engine.ziaSessionAcceptHandshake X.toX3dhPrimitives h.engine.handshakeKeys handshake =
        .ok (session, e') ∧
      ((handshake.usedOneTimePrekey = none ∧ h' = h) ∨
        ∃ used e ok d, handshake.usedOneTimePrekey = some used ∧
          e = { h.engine with oneTimePrekeys := consumePrekey used h.engine.oneTimePrekeys } ∧
          saveIdentity S save e h.device = some (ok, d) ∧ h' = ⟨e, d⟩) := by
  unfold ziaSessionAcceptHandshake at hcall
  split at hcall
  · obtain ⟨rfl, rfl⟩ := Prod.mk.inj (Option.some.inj hcall)
    exact Or.inl ⟨_, rfl, rfl⟩
  · rename_i hflag
    split at hcall
    · obtain ⟨rfl, rfl⟩ := Prod.mk.inj (Option.some.inj hcall)
      exact Or.inl ⟨_, rfl, rfl⟩
    · rename_i session e' haccept
      refine Or.inr ⟨session, e', by simpa using hflag, ?_⟩
      split at hcall
      · rename_i hused
        obtain ⟨rfl, rfl⟩ := Prod.mk.inj (Option.some.inj hcall)
        exact ⟨rfl, haccept, Or.inl ⟨hused, rfl⟩⟩
      · rename_i used hused
        obtain ⟨⟨ok, d⟩, hsave, hret⟩ := Option.bind_eq_some_iff.mp hcall
        obtain ⟨rfl, rfl⟩ := Prod.mk.inj (Option.some.inj hret)
        exact ⟨rfl, haccept, Or.inr ⟨used, _, ok, d, hused, rfl, hsave, rfl⟩⟩

end ZiaCrypte.Storage

import ZiaCrypte.Storage.Persistence
import ZiaCrypte.Lib.Run

/-!
# Runs of an engine on its device

The calls that change the identity or the prekeys, and restarts, in any order. In
every run from a folder without an identity file the keys an engine holds are
pairs it drew, signed by the identity it has.
-/
namespace ZiaCrypte.Storage

open ZiaCrypte.Lib ZiaCrypte.Engine

inductive EngineCall where
  | restart (use : ReadUse)
  | identityGenerate (save : WriteUse) (seed : Key)
  | requirePq (required : Bool)
  | rotate (env : RotateEnv)
  | bundleGenerate (env : BundleEnv)
  | accept (save : WriteUse) (handshake : ZiaHandshakeMaterial)

variable (S : SecretStream) (X : EnginePrimitives)

/-- The host after a call that returned. -/
def EngineCall.step : EngineCall → Host → Option Host
  | .restart use, h => some (ziaEngineInit S use h.device)
  | .identityGenerate save seed, h => (ziaIdentityGenerate S X save seed h).map (·.2)
  | .requirePq required, h => some (ziaSessionRequirePq required h)
  | .rotate env, h => (ziaPrekeyBundleRotate S X env h).map (·.2)
  | .bundleGenerate env, h => (ziaPrekeyBundleGenerate S X env h).map (·.2)
  | .accept save handshake, h => (ziaSessionAcceptHandshake S X save handshake h).map (·.2)

/-- A folder that no engine has written to. -/
def Host.blank (d : Device) : Host := ⟨.new, d⟩

/-- What the engine holds was drawn by it and signed with its identity. -/
structure Honest (e : ZiaEngine) : Prop where
  identity : e.hasIdentity = true → ∃ seed, e.identityPublic = (X.ed25519Keypair seed).1 ∧
    e.identityPrivate = some (X.ed25519Keypair seed).2
  signed : ∀ spk, e.signedPrekey = some spk → e.hasIdentity = true ∧
    ∃ priv fresh, e.identityPrivate = some priv ∧ spk = newSignedPrekey X priv fresh
  pq : ∀ pq, e.pqPrekey = some pq → e.hasIdentity = true ∧
    ∃ priv seed pair, e.identityPrivate = some priv ∧ X.mlkem768Keypair seed = some pair ∧
      pq = newPqPrekey X priv pair
  oneTime : ∀ k ∈ e.oneTimePrekeys, k.publicKey = X.x25519Base k.privateKey.bytes

variable {S X}

theorem honest_new : Honest X .new := by
  constructor
  · intro hflag
    cases hflag
  · intro spk hspk
    cases hspk
  · intro pq hpq
    cases hpq
  · intro k hk
    cases hk

/-- What an honest engine reads back of itself is honest. -/
theorem Honest.restored {e : ZiaEngine} (h : Honest X e) :
    Honest X (e.announced.restoredInto .new) := by
  have hpriv : ∀ priv, e.hasIdentity = true → e.identityPrivate = some priv →
      (e.announced.restoredInto .new).identityPrivate = some priv := by
    intro priv hflag hpriv
    exact (if_pos hflag).trans hpriv
  constructor
  · intro hflag
    obtain ⟨seed, hpub, hsome⟩ := h.identity hflag
    exact ⟨seed, hpub, hpriv _ hflag hsome⟩
  · intro spk hspk
    obtain ⟨hflag, priv, fresh, hsome, heq⟩ := h.signed spk hspk
    exact ⟨hflag, priv, fresh, hpriv _ hflag hsome, heq⟩
  · intro pq hpq
    obtain ⟨hflag, priv, seed, pair, hsome, hpair, heq⟩ := h.pq pq hpq
    exact ⟨hflag, priv, seed, pair, hpriv _ hflag hsome, hpair, heq⟩
  · intro k hk
    exact h.oneTime k (List.mem_of_mem_take hk)

theorem Honest.generated {e : ZiaEngine} (h : Honest X e) (hflag : e.hasIdentity = false)
    (seed : Key) : Honest X { e with
      hasIdentity := true
      identityPublic := (X.ed25519Keypair seed).1
      identityPrivate := some (X.ed25519Keypair seed).2 } := by
  constructor
  · exact fun _ => ⟨seed, rfl, rfl⟩
  · intro spk hspk
    obtain ⟨htrue, _⟩ := h.signed spk hspk
    rw [hflag] at htrue
    cases htrue
  · intro pq hpq
    obtain ⟨htrue, _⟩ := h.pq pq hpq
    rw [hflag] at htrue
    cases htrue
  · exact h.oneTime

theorem Honest.rotatedSigned {e : ZiaEngine} (h : Honest X e) (hflag : e.hasIdentity = true)
    {priv : FixedBytes 64} (hpriv : e.identityPrivate = some priv) (fresh : Key) :
    Honest X { e with signedPrekey := some (newSignedPrekey X priv fresh) } := by
  refine ⟨h.identity, ?_, h.pq, h.oneTime⟩
  intro spk hspk
  obtain rfl := Option.some.inj hspk
  exact ⟨hflag, priv, fresh, hpriv, rfl⟩

theorem Honest.rotatedPq {e : ZiaEngine} (h : Honest X e) (hflag : e.hasIdentity = true)
    {priv : FixedBytes 64} (hpriv : e.identityPrivate = some priv) {seed : FixedBytes 64}
    {pair : FixedBytes 1184 × FixedBytes 2400} (hpair : X.mlkem768Keypair seed = some pair) :
    Honest X { e with pqPrekey := some (newPqPrekey X priv pair) } := by
  refine ⟨h.identity, h.signed, ?_, h.oneTime⟩
  intro pq hpq
  obtain rfl := Option.some.inj hpq
  exact ⟨hflag, priv, seed, pair, hpriv, hpair, rfl⟩

theorem Honest.oneTimePrekeys {e : ZiaEngine} (h : Honest X e) {otpks : List ZiaOneTimePrekey}
    (hpairs : ∀ k ∈ otpks, k.publicKey = X.x25519Base k.privateKey.bytes) :
    Honest X { e with oneTimePrekeys := otpks } :=
  ⟨h.identity, h.signed, h.pq, hpairs⟩

/-- The engine is honest, and so is all a restart can come up with. -/
structure HonestHost (S : SecretStream) (X : EnginePrimitives) (h : Host) : Prop where
  engine : Honest X h.engine
  file : FileInv S (Honest X) h.device

/-- The call left an honest engine, and saved it or an honest engine before it. -/
theorem HonestHost.saved (hS : S.Sound) {h : Host} (hh : FileInv S (Honest X) h.device)
    {e : ZiaEngine} (he : Honest X e) {use : WriteUse} {ok : Bool} {d : Device}
    (hsave : saveIdentity S use e h.device = some (ok, d)) : HonestHost S X ⟨e, d⟩ :=
  ⟨he, hh.save hS hsave he.restored⟩

theorem HonestHost.rotate (hS : S.Sound) {env : RotateEnv} {h h' : Host}
    {rc : Option ZiaError} (hh : HonestHost S X h)
    (hcall : ziaPrekeyBundleRotate S X env h = some (rc, h')) : HonestHost S X h' := by
  rcases ziaPrekeyBundleRotate_cases hcall with ⟨_, _, rfl⟩ | ⟨identity, e, hflag, hpriv, rfl, hrest⟩
  · exact hh
  have hsigned := hh.engine.rotatedSigned hflag hpriv env.signedPrekey
  rcases hrest with ⟨_, _, rfl⟩ | ⟨pair, ok, d, hpair, _, hsave, rfl⟩
  · exact ⟨hsigned, hh.file⟩
  · exact HonestHost.saved hS hh.file (hsigned.rotatedPq hflag hpriv hpair) hsave

theorem HonestHost.ensurePrekeys (hS : S.Sound) {env : RotateEnv} {h h' : Host}
    {rc : Option ZiaError} (hh : HonestHost S X h)
    (hcall : ensurePrekeys S X env h = some (rc, h')) : HonestHost S X h' := by
  unfold Storage.ensurePrekeys at hcall
  split at hcall
  · obtain ⟨_, rfl⟩ := Prod.mk.inj (Option.some.inj hcall)
    exact hh
  · exact hh.rotate hS hcall

theorem HonestHost.bundleGenerate (hS : S.Sound) {env : BundleEnv} {h h' : Host}
    {rc : Except ZiaError ZiaPrekeyBundle} (hh : HonestHost S X h)
    (hcall : ziaPrekeyBundleGenerate S X env h = some (rc, h')) : HonestHost S X h' := by
  rcases ziaPrekeyBundleGenerate_cases hcall with
    ⟨_, _, rfl⟩ | ⟨rc', h₁, _, hensure, ⟨_, _, _, rfl⟩ | ⟨e, ok, d, _, rfl, _, hsave, rfl⟩⟩
  · exact hh
  · exact hh.ensurePrekeys hS hensure
  · have hh₁ := hh.ensurePrekeys hS hensure
    refine HonestHost.saved hS hh₁.file (hh₁.engine.oneTimePrekeys ?_) hsave
    intro k hk
    rcases List.mem_append.mp hk with hold | hnew
    · exact hh₁.engine.oneTime k hold
    · obtain rfl := List.mem_singleton.mp hnew
      rfl

theorem HonestHost.accept (hS : S.Sound) {save : WriteUse} {handshake : ZiaHandshakeMaterial}
    {h h' : Host} {rc : Except ZiaError (ZiaSession Bytes)} (hh : HonestHost S X h)
    (hcall : ziaSessionAcceptHandshake S X save handshake h = some (rc, h')) :
    HonestHost S X h' := by
  rcases ziaSessionAcceptHandshake_cases hcall with
    ⟨_, _, rfl⟩ | ⟨_, _, _, _, _, ⟨_, rfl⟩ | ⟨used, e, ok, d, _, rfl, hsave, rfl⟩⟩
  · exact hh
  · exact hh
  · refine HonestHost.saved hS hh.file (hh.engine.oneTimePrekeys ?_) hsave
    intro k hk
    obtain ⟨k', hk', hpub, hpriv⟩ := mem_consumePrekey hk
    rw [← hpub, ← hpriv]
    exact hh.engine.oneTime k' hk'

/-- Every call and every restart keeps the engine honest. -/
theorem honestHost_step (hS : S.Sound) (c : EngineCall) (h h' : Host) (hh : HonestHost S X h)
    (hstep : c.step S X h = some h') : HonestHost S X h' := by
  cases c with
  | restart use =>
    obtain rfl := Option.some.inj hstep
    obtain ⟨hloads, stored, hdevice⟩ := ziaEngineInit_loads (S := S) use h.device
    exact ⟨hh.file _ hloads, by rw [hdevice]; exact hh.file.masterKey stored⟩
  | requirePq required =>
    obtain rfl := Option.some.inj hstep
    exact ⟨⟨hh.engine.identity, hh.engine.signed, hh.engine.pq, hh.engine.oneTime⟩, hh.file⟩
  | identityGenerate save seed =>
    obtain ⟨⟨rc, _⟩, hcall, rfl⟩ := Option.map_eq_some_iff.mp hstep
    rcases ziaIdentityGenerate_cases hcall with ⟨_, rfl⟩ | ⟨e, ok, d, hflag, rfl, hsave, rfl⟩
    · exact hh
    · exact HonestHost.saved hS hh.file (hh.engine.generated hflag seed) hsave
  | rotate env =>
    obtain ⟨⟨rc, _⟩, hcall, rfl⟩ := Option.map_eq_some_iff.mp hstep
    exact hh.rotate hS hcall
  | bundleGenerate env =>
    obtain ⟨⟨rc, _⟩, hcall, rfl⟩ := Option.map_eq_some_iff.mp hstep
    exact hh.bundleGenerate hS hcall
  | accept save handshake =>
    obtain ⟨⟨rc, _⟩, hcall, rfl⟩ := Option.map_eq_some_iff.mp hstep
    exact hh.accept hS hcall

/-- From a folder without an identity file every run is honest. -/
theorem honest_run (hS : S.Sound) {d : Device} (hd : d.identityFile = none)
    {calls : List EngineCall} {h : Host}
    (hrun : run (EngineCall.step S X) calls (.blank d) = some h) : HonestHost S X h := by
  refine run_invariant (fun c s t => honestHost_step hS c s t) ⟨honest_new, ?_⟩ hrun
  rintro e (rfl | ⟨raw, _, _, _, hraw, _⟩)
  · exact honest_new
  · rw [Host.blank, hd] at hraw
    cases hraw

end ZiaCrypte.Storage

import ZiaCrypte.Storage.PublishedPrekeys

/-!
# Runs of a client that publishes its prekeys

A client registers in a new folder, or was left by version 1 of the program with a
file in the old format. A bundle generated on an engine that lacks a prekey, as one
read from such a file does, replaces the signed prekey the server goes on serving.
-/
namespace ZiaCrypte.Storage

open ZiaCrypte.Lib ZiaCrypte.Engine ZiaCrypte.Server

variable {S : SecretStream} {X : EnginePrimitives}

/-! ## Starting and registering -/

/-- A start that reads the file comes up with an engine the file holds. -/
theorem ziaEngineInit_reads {use : ReadUse} {d : Device} (h : ReadsFile S use d)
    {P : ZiaEngine → Prop} (hfile : FileHolds S P d) : P (ziaEngineInit S use d).engine := by
  obtain ⟨hpath, hread⟩ := h
  unfold ziaEngineInit loadIdentity
  rw [hpath, Bool.not_true, if_neg Bool.false_ne_true]
  split
  · rename_i d' hnone
    rw [hnone] at hread
    cases hread
  · rename_i plain d' hsome
    obtain ⟨_, _, hopen⟩ := sealedRead_cases hsome
    obtain ⟨raw, key, hraw, hplain⟩ := hopen plain rfl
    exact hfile raw key plain hraw hplain

/-- A gateway that opens is a start, or a start that found no identity and drew one. -/
theorem openGateway_cases {use : ReadUse} {save : WriteUse} {seed : Key} {d : Device} {h : Host}
    (hopen : PrekeyClient.openGateway S X use save seed d = some h) :
    ((ziaEngineInit S use d).engine.hasIdentity = true ∧ h = ziaEngineInit S use d) ∨
    ((ziaEngineInit S use d).engine.hasIdentity = false ∧
      ∃ rc, ziaIdentityGenerate S X save seed (ziaEngineInit S use d) = some (rc, h)) := by
  unfold PrekeyClient.openGateway ziaIdentityGetPublicKey at hopen
  cases hflag : (ziaEngineInit S use d).engine.hasIdentity with
  | true =>
    simp only [hflag, if_true] at hopen
    exact Or.inl ⟨rfl, (Option.some.inj hopen).symm⟩
  | false =>
    simp only [hflag, Bool.false_eq_true, if_false] at hopen
    obtain ⟨⟨rc, _⟩, hcall, rfl⟩ := Option.map_eq_some_iff.mp hopen
    exact Or.inr ⟨rfl, rc, hcall⟩

theorem ClientInv.openGateway (hS : S.Sound) {id : Uuid} {σ : PrekeyClient}
    (h : ClientInv S X id σ) {use : ReadUse} {save : WriteUse} {seed : Key}
    (hsaved : σ.unsaved = false) (hread : ReadsFile S use σ.host.device)
    (hlen : σ.host.engine.oneTimePrekeys.length < UInt32.size) {h' : Host}
    (hopen : PrekeyClient.openGateway S X use save seed σ.host.device = some h') :
    ClientInv S X id { σ with host := h', replenishing := none } := by
  have hfile := h.saved hsaved hlen
  have hpublishes := ziaEngineInit_reads hread hfile
  rcases openGateway_cases hopen with ⟨_, rfl⟩ | ⟨hnone, _⟩
  · obtain ⟨_, stored, hdevice⟩ := ziaEngineInit_loads (S := S) use σ.host.device
    refine ⟨h.registered, honestHost_step hS (.restart use) σ.host _ h.honest rfl, hpublishes,
      ?_, fun r hr => by cases hr⟩
    intro _ _
    dsimp only
    rw [hdevice]
    exact hfile.masterKey stored
  · rw [hpublishes.present] at hnone
    cases hnone

/-- In a new folder an engine comes up with an identity of its own. -/
theorem openGateway_fresh (hS : S.Sound) {use : ReadUse} {save : WriteUse} {seed : Key}
    {d : Device} {h : Host}
    (hopen : PrekeyClient.openGateway S X use save seed (PrekeyClient.freshFolder d) = some h) :
    HonestHost S X h ∧ h.engine.requirePq = false := by
  have hloads : ∀ e, Loadable S (PrekeyClient.freshFolder d) e → e = .new := by
    rintro e (rfl | ⟨raw, _, _, _, hraw, _⟩)
    · rfl
    · cases hraw
  have hstart : HonestHost S X (ziaEngineInit S use (PrekeyClient.freshFolder d)) := by
    refine honestHost_step hS (.restart use) (.blank (PrekeyClient.freshFolder d)) _
      ⟨honest_new, ?_⟩ rfl
    intro e he
    rw [hloads e he]
    exact honest_new
  have hnew : (ziaEngineInit S use (PrekeyClient.freshFolder d)).engine = .new :=
    hloads _ (ziaEngineInit_loads use (PrekeyClient.freshFolder d)).1
  rcases openGateway_cases hopen with ⟨hflag, _⟩ | ⟨_, rc, hcall⟩
  · rw [hnew] at hflag
    cases hflag
  · refine ⟨honestHost_step hS (.identityGenerate save seed) _ _ hstart
      (Option.map_eq_some_iff.mpr ⟨_, hcall, rfl⟩), ?_⟩
    rcases ziaIdentityGenerate_cases hcall with ⟨_, rfl⟩ | ⟨_, _, _, _, rfl, _, rfl⟩
    · rw [hnew]
      rfl
    · rw [hnew]
      rfl

/-- The prekeys an engine draws first leave its identity and its hybrid switch. -/
theorem ensurePrekeys_frame {env : RotateEnv} {h h₁ : Host} {rc : Option ZiaError}
    (hcall : ensurePrekeys S X env h = some (rc, h₁)) :
    h₁.engine.hasIdentity = h.engine.hasIdentity ∧ h₁.engine.requirePq = h.engine.requirePq := by
  unfold ensurePrekeys at hcall
  split at hcall
  · obtain ⟨_, rfl⟩ := Prod.mk.inj (Option.some.inj hcall)
    exact ⟨rfl, rfl⟩
  · rcases ziaPrekeyBundleRotate_cases hcall with
      ⟨_, _, rfl⟩ | ⟨_, _, _, _, rfl, ⟨_, _, rfl⟩ | ⟨_, _, _, _, _, _, rfl⟩⟩
    · exact ⟨rfl, rfl⟩
    · exact ⟨rfl, rfl⟩
    · exact ⟨rfl, rfl⟩

/-- The rows of a new device are the keys of its bundle. -/
theorem createDevice_publishes {env : RegisterEnv} {e : ZiaEngine} {otpk : ZiaOneTimePrekey}
    {bundle : ZiaPrekeyBundle} {t t' : PrekeyTables}
    (hbundle : publishedBundle e otpk = .ok bundle) (hmem : otpk ∈ e.oneTimePrekeys)
    (hfree : otpk.consumed = false) (hflag : e.hasIdentity = true) (hclassic : e.requirePq = false)
    (hcreate : PrekeyClient.createDevice env bundle t = some t') :
    Publishes env.deviceId t' e := by
  obtain ⟨spk, pq, hspk, _, rfl⟩ := publishedBundle_eq_ok hbundle
  unfold PrekeyClient.createDevice at hcreate
  split at hcreate
  · obtain ⟨hdevice, hsigned, honeTime⟩ := PrekeyTables.createDevice_some hcreate
    refine ⟨⟨_, hdevice, rfl⟩, ⟨_, spk, hsigned, hspk, rfl, rfl⟩, ?_, hflag, hclassic⟩
    intro k hk hown _
    obtain ⟨k', hk', hpub⟩ := honeTime k hk hown
    obtain rfl := List.mem_singleton.mp hk'
    exact ⟨otpk, hmem, hfree, hpub⟩
  · cases hcreate

/-- A client that gets a device published what its engine holds. -/
theorem registerAndConnect_inv (hS : S.Sound) {env : RegisterEnv} {σ σ' : PrekeyClient}
    (hnone : σ.deviceId = none) (hstep : σ.registerAndConnect S X env = some σ') :
    σ'.deviceId = none ∨ ∃ id, ClientInv S X id σ' := by
  obtain ⟨h₀, hopen, hrest⟩ := Option.bind_eq_some_iff.mp hstep
  obtain ⟨hhonest, hclassic⟩ := openGateway_fresh hS hopen
  obtain ⟨⟨rc, h⟩, hcall, hrest⟩ := Option.bind_eq_some_iff.mp hrest
  have hhonest' := hhonest.bundleGenerate hS hcall
  cases rc with
  | error err =>
    obtain rfl := Option.some.inj hrest
    exact Or.inl hnone
  | ok bundle =>
    dsimp only at hrest
    split at hrest
    · obtain rfl := Option.some.inj hrest
      exact Or.inl hnone
    rename_i tables htables
    obtain rfl := Option.some.inj hrest
    obtain ⟨h₁, hflag, hensure, hengine, hbundle, hsave⟩ := ziaPrekeyBundleGenerate_ok hcall
    obtain ⟨hflag₁, hclassic₁⟩ := ensurePrekeys_frame hensure
    have hpublishes : Publishes env.deviceId tables h.engine := by
      refine createDevice_publishes hbundle ?_ rfl ?_ ?_ htables
      · rw [hengine]
        exact List.mem_append_right _ (List.mem_singleton_self _)
      · rw [hengine]
        exact hflag₁.trans hflag
      · rw [hengine]
        exact hclassic₁.trans hclassic
    refine Or.inr ⟨env.deviceId, rfl, hhonest', hpublishes, ?_, fun r hr => by cases hr⟩
    intro hsaved hlen
    rw [Bool.not_eq_false'] at hsaved
    rw [hsaved] at hsave
    exact fileHolds_engine hS hsave hlen hpublishes.present hpublishes.classic hpublishes

/-! ## Runs -/

/-- A client whose account version 1 of the program made: its identity file is still
in that format. -/
structure LeftByV1 (S : SecretStream) (X : EnginePrimitives) (id : Uuid) (σ : PrekeyClient) :
    Prop where
  registered : σ.deviceId = some id
  honest : Honest X σ.host.engine
  noPq : σ.host.engine.pqPrekey = none
  publishes : Publishes id σ.tables σ.host.engine
  length : σ.host.engine.oneTimePrekeys.length < UInt32.size
  file : ∃ plain key header file, serializeIdentityV1 σ.host.engine = some plain ∧
    sealFile S key header plain = some file ∧ σ.host.device.identityFile = some file
  idle : σ.replenishing = none

theorem LeftByV1.inv (hS : S.Sound) {id : Uuid} {σ : PrekeyClient} (h : LeftByV1 S X id σ) :
    ClientInv S X id σ := by
  have hfile : FileHolds S (· = σ.host.engine) σ.host.device := by
    obtain ⟨plain, key, header, file, hplain, hseal, hon⟩ := h.file
    intro raw key' plain' hraw hopen
    obtain rfl := Option.some.inj (hon.symm.trans hraw)
    obtain ⟨_, rfl⟩ := openFile_sealFile_key hS hseal hopen
    have hsame : σ.host.engine.withoutPq = σ.host.engine := by
      rw [ZiaEngine.withoutPq, ← h.noPq]
    have hself := restored_eq h.length h.publishes.present h.publishes.classic
    rw [σ.host.engine.announced_eq h.length] at hself
    rw [deserializeIdentity_serializeIdentityV1 hplain h.length, hsame]
    exact hself
  refine ⟨h.registered, ⟨h.honest, ?_⟩, h.publishes, ?_, ?_⟩
  · exact (hfile.imp fun e he => by rw [he]; exact h.honest).fileInv honest_new
  · exact fun _ _ => hfile.imp fun e he => by rw [he]; exact h.publishes
  · intro r hr
    rw [h.idle] at hr
    cases hr

/-- A client without a device has one after a registration only. -/
theorem unregistered_step (hS : S.Sound) {c : ClientCall} {σ σ' : PrekeyClient}
    (hnone : σ.deviceId = none) (hstep : PrekeyClient.step S X c σ = some σ') :
    σ'.deviceId = none ∨ ∃ id, ClientInv S X id σ' := by
  cases c with
  | openGateway use save seed =>
    obtain ⟨h', _, rfl⟩ := Option.map_eq_some_iff.mp hstep
    exact Or.inl hnone
  | registerAndConnect env =>
    rw [PrekeyClient.step, hnone, Option.isSome_none, if_neg Bool.false_ne_true] at hstep
    exact registerAndConnect_inv hS hnone hstep
  | generatePrekeyBundle env =>
    obtain ⟨⟨rc, h'⟩, _, rfl⟩ := Option.map_eq_some_iff.mp hstep
    exact Or.inl hnone
  | countPrekeys =>
    obtain ⟨id, hid, _⟩ := Option.bind_eq_some_iff.mp hstep
    rw [hnone] at hid
    cases hid
  | replenishOne env =>
    obtain ⟨r, _, hrest⟩ := Option.bind_eq_some_iff.mp hstep
    split at hrest
    · cases hrest
    obtain ⟨⟨rc, h'⟩, _, hrest⟩ := Option.bind_eq_some_iff.mp hrest
    cases rc with
    | error err =>
      obtain rfl := Option.some.inj hrest
      exact Or.inl hnone
    | ok bundle =>
      obtain rfl := Option.some.inj hrest
      exact Or.inl hnone
  | uploadPrekeys ids now arrived =>
    obtain ⟨id, hid, _⟩ := Option.bind_eq_some_iff.mp hstep
    rw [hnone] at hid
    cases hid
  | serve now =>
    obtain ⟨id, hid, _⟩ := Option.bind_eq_some_iff.mp hstep
    rw [hnone] at hid
    cases hid
  | accept save handshake =>
    obtain ⟨⟨rc, h'⟩, _, hrest⟩ := Option.bind_eq_some_iff.mp hstep
    cases rc with
    | error err =>
      obtain rfl := Option.some.inj hrest
      exact Or.inl hnone
    | ok session =>
      obtain rfl := Option.some.inj hrest
      exact Or.inl hnone

/-- A safe call keeps the invariant of a registered client. -/
theorem clientInv_step (hS : S.Sound) {c : ClientCall} {id : Uuid} {σ σ' : PrekeyClient}
    (h : ClientInv S X id σ) (hsafe : c.Safe S σ)
    (hstep : PrekeyClient.step S X c σ = some σ') : ClientInv S X id σ' := by
  have hsome : σ.deviceId.isSome = true := by
    rw [h.registered]
    rfl
  cases c with
  | openGateway use save seed =>
    obtain ⟨h', hopen, rfl⟩ := Option.map_eq_some_iff.mp hstep
    obtain ⟨hsaved, hread, hlen⟩ := hsafe hsome
    exact h.openGateway hS hsaved hread hlen hopen
  | registerAndConnect env =>
    rw [PrekeyClient.step, hsome, if_pos rfl] at hstep
    cases hstep
  | generatePrekeyBundle env =>
    obtain ⟨⟨rc, h'⟩, hcall, rfl⟩ := Option.map_eq_some_iff.mp hstep
    obtain ⟨hspk, hpq⟩ := hsafe hsome
    obtain ⟨_, _, _, _, _, hafter⟩ := h.generate hS hspk hpq hcall
    exact hafter
  | countPrekeys => exact h.countPrekeys hstep
  | replenishOne env =>
    obtain ⟨hspk, hpq⟩ := hsafe hsome
    exact h.replenishOne hS hspk hpq hstep
  | uploadPrekeys ids now arrived => exact h.uploadPrekeys hstep
  | serve now => exact h.serve hstep
  | accept save handshake => exact h.accept hS hsafe hstep

theorem client_run (hS : S.Sound) {σ₀ σ : PrekeyClient} {calls : List ClientCall}
    (hstart : σ₀.deviceId = none ∨ ∃ id, LeftByV1 S X id σ₀)
    (hsafe : Always (PrekeyClient.step S X) (ClientCall.Safe S) calls σ₀)
    (hrun : run (PrekeyClient.step S X) calls σ₀ = some σ) :
    σ.deviceId = none ∨ ∃ id, ClientInv S X id σ := by
  refine run_invariant_of_always (fun σ => σ.deviceId = none ∨ ∃ id, ClientInv S X id σ)
    ?_ (hstart.imp_right ?_) hsafe hrun
  · rintro c s t (hnone | ⟨id, h⟩) hsafe hstep
    · exact unregistered_step hS hnone hstep
    · exact Or.inr ⟨id, clientInv_step hS h hsafe hstep⟩
  · rintro ⟨id, h⟩
    exact ⟨id, h.inv hS⟩

/-! ## The bundle the server serves -/

/-- An honest engine's signature on its own prekey verifies. -/
theorem Honest.signs (hX : X.Correct) {e : ZiaEngine} (he : Honest X e) {spk : ZiaSignedPrekey}
    (hspk : e.signedPrekey = some spk) :
    X.ed25519Verify e.identityPublic spk.publicKey.bytes spk.signature.bytes = true ∧
      spk.publicKey = X.x25519Base spk.privateKey.bytes := by
  obtain ⟨hflag, priv, fresh, hpriv, rfl⟩ := he.signed spk hspk
  obtain ⟨seed, hpub, hpriv'⟩ := he.identity hflag
  obtain rfl := Option.some.inj (hpriv.symm.trans hpriv')
  rw [hpub]
  exact ⟨hX.verifies seed _, rfl⟩

/-- What a peer is served, field by field. -/
theorem ClientInv.bundle {id : Uuid} {σ : PrekeyClient} (h : ClientInv S X id σ) :
    ∃ bundle spk, σ.currentBundle = some bundle ∧ σ.host.engine.signedPrekey = some spk ∧
      bundle.identityKey = σ.host.engine.identityPublic ∧
      bundle.signedPrekey = spk.publicKey ∧
      bundle.signedPrekeySignature = spk.signature.bytes ∧ bundle.pqPrekey = none ∧
      HoldsKeys bundle.oneTimePrekey.toList σ.host.engine := by
  obtain ⟨d, hdevice, hidentity⟩ := h.publishes.identity
  obtain ⟨s, spk, hsigned, hspk, hpub, hsignature⟩ := h.publishes.signed
  refine ⟨PrekeyClient.receivedBundle (handedBundle d s (σ.tables.nextOneTime id)), spk, ?_, hspk,
    ?_, ?_, hsignature, rfl, ?_⟩
  · rw [PrekeyClient.currentBundle, h.registered, Option.bind_eq_bind, Option.bind_some, hdevice,
      Option.bind_eq_bind, Option.bind_some, hsigned]
    rfl
  · change FixedBytes.copy 32 d.identityPublicKey 0 = _
    rw [hidentity, FixedBytes.copy_bytes]
  · change FixedBytes.copy 32 s.publicKey 0 = _
    rw [hpub, FixedBytes.copy_bytes]
  · intro key hkey
    rw [Option.mem_toList] at hkey
    obtain ⟨k, hk, rfl⟩ := Option.map_eq_some_iff.mp hkey
    obtain ⟨hmem, hfree⟩ := PrekeyTables.nextOneTime_mem hk
    obtain ⟨o, ho, havailable, hpublic⟩ :=
      h.publishes.oneTime k hmem (PrekeyTables.nextOneTime_deviceId hk) hfree
    exact ⟨o, ho, havailable, by rw [hpublic, FixedBytes.copy_bytes]⟩

theorem ClientInv.holds {id : Uuid} {σ : PrekeyClient} (h : ClientInv S X id σ)
    {bundle : ZiaPrekeyBundle} (hbundle : σ.currentBundle = some bundle) :
    Holds σ.host.engine bundle := by
  obtain ⟨bundle', spk, hserved, hspk, hidentity, hsigned, _, hpq, hkeys⟩ := h.bundle
  obtain rfl := Option.some.inj (hbundle.symm.trans hserved)
  refine ⟨hidentity.symm, ⟨spk, hspk, hsigned.symm⟩, ?_, ?_⟩
  · intro pk signature hsome
    rw [hpq] at hsome
    cases hsome
  · intro used hused
    exact hkeys used (by rw [hused]; exact List.mem_singleton_self used)

theorem ClientInv.agrees (hX : X.Correct) {id : Uuid} {σ : PrekeyClient}
    (h : ClientInv S X id σ) {bundle : ZiaPrekeyBundle} (hbundle : σ.currentBundle = some bundle)
    {alice : Host} (halice : HonestHost S X alice) (hidentity : alice.engine.hasIdentity = true)
    (hclassic : alice.engine.requirePq = false) (env : HandshakeEnv Bytes) (save : WriteUse) :
    Agrees S X env save alice σ.host bundle := by
  have hholds := h.holds hbundle
  obtain ⟨bundle', spk, hserved, hspk, hkey, hsigned, hsignature, hpq, _⟩ := h.bundle
  obtain rfl := Option.some.inj (hbundle.symm.trans hserved)
  have hauth : Authentic X bundle := by
    refine ⟨?_, ?_⟩
    · rw [hkey, hsigned, hsignature]
      exact (h.honest.engine.signs hX hspk).1
    · intro pk signature hsome
      rw [hpq] at hsome
      cases hsome
  exact halice.agrees hX h.honest hidentity hauth hholds (fun _ => ⟨hclassic, h.publishes.classic⟩)
    env save

/-- In a run of safe calls of a client that registers, or that version 1 left behind,
the server serves a bundle whose private halves the engine has, and any peer that
does not insist on a post-quantum part opens a session from it. -/
theorem published_held (hS : S.Sound) (hX : X.Correct) {σ₀ σ : PrekeyClient}
    {calls : List ClientCall} (hstart : σ₀.deviceId = none ∨ ∃ id, LeftByV1 S X id σ₀)
    (hsafe : Always (PrekeyClient.step S X) (ClientCall.Safe S) calls σ₀)
    (hrun : run (PrekeyClient.step S X) calls σ₀ = some σ) (hdevice : σ.deviceId.isSome = true) :
    ∃ bundle, σ.currentBundle = some bundle ∧ Holds σ.host.engine bundle ∧
      (∃ spk, σ.host.engine.signedPrekey = some spk ∧
        X.x25519Base spk.privateKey.bytes = bundle.signedPrekey) ∧
      ∀ alice env save, HonestHost S X alice → alice.engine.hasIdentity = true →
        alice.engine.requirePq = false → Agrees S X env save alice σ.host bundle := by
  rcases client_run hS hstart hsafe hrun with hnone | ⟨id, h⟩
  · rw [hnone] at hdevice
    cases hdevice
  · obtain ⟨bundle, spk, hserved, hspk, _, hsigned, _⟩ := h.bundle
    refine ⟨bundle, hserved, h.holds hserved, ⟨spk, hspk, ?_⟩, ?_⟩
    · rw [hsigned]
      exact (h.honest.engine.signs hX hspk).2.symm
    · intro alice env save halice hidentity hclassic
      exact h.agrees hX hserved halice hidentity hclassic env save

/-- An engine without one of its prekeys draws a new signed one, whatever becomes of
the rest. -/
theorem ensurePrekeys_rotates {env : RotateEnv} {h h₁ : Host} {rc : Option ZiaError}
    (hflag : h.engine.hasIdentity = true)
    (hlacks : ¬ (h.engine.signedPrekey.isSome = true ∧ h.engine.pqPrekey.isSome = true))
    (hcall : ensurePrekeys S X env h = some (rc, h₁)) :
    ∃ identity, h₁.engine.signedPrekey = some (newSignedPrekey X identity env.signedPrekey) := by
  rw [ensurePrekeys, if_neg (by simpa using hlacks)] at hcall
  rcases ziaPrekeyBundleRotate_cases hcall with
    ⟨hnone, _⟩ | ⟨identity, _, _, _, rfl, ⟨_, _, rfl⟩ | ⟨_, _, _, _, _, _, rfl⟩⟩
  · rw [hflag] at hnone
    cases hnone
  · exact ⟨identity, rfl⟩
  · exact ⟨identity, rfl⟩

/-- A bundle that is generated leaves the served one usable exactly when the engine
had both prekeys. -/
theorem generate_keeps_iff (hS : S.Sound) {id : Uuid} {σ : PrekeyClient}
    (h : ClientInv S X id σ) {env : BundleEnv} {h' : Host} {rc : Except ZiaError ZiaPrekeyBundle}
    (hcall : ziaPrekeyBundleGenerate S X env σ.host = some (rc, h'))
    (hfresh : ∀ spk, σ.host.engine.signedPrekey = some spk →
      X.x25519Base env.rotate.signedPrekey.bytes ≠ spk.publicKey) :
    (∃ bundle, σ.currentBundle = some bundle ∧ Holds h'.engine bundle) ↔
      σ.host.engine.signedPrekey.isSome = true ∧ σ.host.engine.pqPrekey.isSome = true := by
  constructor
  · rintro ⟨bundle, hbundle, hholds⟩
    by_contra hlacks
    obtain ⟨bundle', spk, hserved, hspk, _, hsigned, _⟩ := h.bundle
    obtain rfl := Option.some.inj (hbundle.symm.trans hserved)
    have hnew : ∃ identity, h'.engine.signedPrekey =
        some (newSignedPrekey X identity env.rotate.signedPrekey) := by
      rcases ziaPrekeyBundleGenerate_cases hcall with
        ⟨hnone, _⟩ | ⟨_, h₁, hflag, hensure, ⟨_, _, _, rfl⟩ | ⟨_, _, _, _, rfl, _, _, rfl⟩⟩
      · rw [h.publishes.present] at hnone
        cases hnone
      · exact ensurePrekeys_rotates hflag hlacks hensure
      · obtain ⟨identity, hnew⟩ := ensurePrekeys_rotates hflag hlacks hensure
        exact ⟨identity, hnew⟩
    obtain ⟨identity, hnew⟩ := hnew
    obtain ⟨spk', hspk', hpub⟩ := hholds.signed
    obtain rfl := Option.some.inj (hnew.symm.trans hspk')
    exact hfresh spk hspk (hpub.trans hsigned)
  · rintro ⟨hspk, hpq⟩
    obtain ⟨_, _, _, _, _, hafter⟩ := h.generate hS hspk hpq hcall
    obtain ⟨bundle, _, hserved, _⟩ := hafter.bundle
    exact ⟨bundle, hserved, hafter.holds hserved⟩

/-! ## Two symbolic clients -/

/-- The next signed prekey of a symbolic host, and the next one-time prekey. -/
def rotatingEnv : BundleEnv where
  rotate := ⟨symbolicSeed 5, FixedBytes.zero 64, workingWrite⟩
  oneTime := symbolicSeed 6
  save := workingWrite

def symbolicRegister : RegisterEnv where
  read := workingRead
  save := workingWrite
  seed := symbolicSeed 2
  bundle := symbolicBundleEnv
  deviceId := 1
  userId := 1
  signedPrekeyId := 1
  oneTimePrekeyId := 1
  now := 0
  arrived := true

/-- A folder without an account, and a server without devices. -/
def newClient : PrekeyClient where
  host := .blank ⟨true, none, none, .empty⟩
  tables := ⟨[], [], []⟩
  deviceId := none
  replenishing := none
  unsaved := false

def newClientCalls : List ClientCall :=
  [.registerAndConnect symbolicRegister, .openGateway workingRead workingWrite (symbolicSeed 9),
    .countPrekeys, .replenishOne rotatingEnv, .serve 1]

/-- Registered, restarted, and with a replenishment under way it is served a bundle
that works. -/
theorem newClient_published : ∃ σ bundle,
    run (PrekeyClient.step namedStream symbolicHost) newClientCalls newClient = some σ ∧
    σ.currentBundle = some bundle ∧ Holds σ.host.engine bundle ∧
    Agrees namedStream symbolicHost symbolicHandshakeEnv workingWrite (symbolicIdentity 1) σ.host
      bundle := by
  have hend : (run (PrekeyClient.step namedStream symbolicHost) newClientCalls newClient).map
      (·.deviceId.isSome) = some true := by
    decide +kernel
  have hfile : (PrekeyClient.step namedStream symbolicHost (.registerAndConnect symbolicRegister)
      newClient).map (fun σ => (σ.unsaved, σ.host.device.hasPath,
        (sealedRead namedStream workingRead σ.host.device.identityFile σ.host.device).1.isSome,
        σ.host.engine.oneTimePrekeys.length)) = some (false, true, true, 1) := by
    decide +kernel
  have hprekeys : (run (PrekeyClient.step namedStream symbolicHost) (newClientCalls.take 3)
      newClient).map (fun σ =>
        (σ.host.engine.signedPrekey.isSome, σ.host.engine.pqPrekey.isSome)) =
      some (true, true) := by
    decide +kernel
  have hsafe : Always (PrekeyClient.step namedStream symbolicHost) (ClientCall.Safe namedStream)
      newClientCalls newClient := by
    refine ⟨trivial, fun σ₁ h₁ => ⟨fun _ => ?_, fun σ₂ h₂ => ⟨trivial, fun σ₃ h₃ =>
      ⟨fun _ => ?_, fun _ _ => ⟨trivial, fun _ _ => trivial⟩⟩⟩⟩⟩
    · rw [h₁, Option.map_some] at hfile
      simp only [Option.some.injEq, Prod.mk.injEq] at hfile
      obtain ⟨hsaved, hpath, hread, hlen⟩ := hfile
      exact ⟨hsaved, ⟨hpath, hread⟩, by rw [hlen]; decide⟩
    · have hrun : run (PrekeyClient.step namedStream symbolicHost) (newClientCalls.take 3)
          newClient = some σ₃ := by
        rw [newClientCalls, List.take_succ_cons, List.take_succ_cons, List.take_succ_cons,
          List.take_zero, run_cons, h₁, Option.bind_some, run_cons, h₂, Option.bind_some, run_cons,
          h₃, Option.bind_some, run_nil]
      rw [hrun, Option.map_some] at hprekeys
      exact Prod.mk.inj (Option.some.inj hprekeys)
  obtain ⟨σ, hσ, hdevice⟩ := Option.map_eq_some_iff.mp hend
  obtain ⟨bundle, hserved, hholds, _, hpeers⟩ := published_held namedStream_sound
    symbolicHost_correct (Or.inl rfl) hsafe hσ hdevice
  have halice : run (EngineCall.step namedStream symbolicHost)
      [.identityGenerate workingWrite (symbolicSeed 1)] (.blank memoryOnly) =
      some (symbolicIdentity 1) := rfl
  exact ⟨σ, bundle, hσ, hserved, hholds,
    hpeers _ _ _ (honest_run namedStream_sound rfl halice) rfl rfl⟩

/-- The account of `servingHost`, from before there was a post-quantum prekey. -/
def v1Client : PrekeyClient where
  host :=
    { engine := servingEngine
      device := { servingHost.device with
        identityFile := (serializeIdentityV1 servingEngine).bind
          (sealFile namedStream keyZero (FixedBytes.zero 24)) } }
  tables :=
    { devices := [⟨⟨1, 1, true⟩, servingEngine.identityPublic.bytes, 0⟩]
      signedPrekeys := [⟨1, 1, (symbolicSeed 3).bytes, (FixedBytes.zero 64).bytes, true⟩]
      oneTimePrekeys := [⟨1, 1, (symbolicSeed 4).bytes, none, 0⟩] }
  deviceId := some 1
  replenishing := none
  unsaved := false

theorem v1Client_left : LeftByV1 namedStream symbolicHost 1 v1Client := by
  have hspk : servingEngine.signedPrekey = some (newSignedPrekey symbolicHost
      (symbolicHost.ed25519Keypair (symbolicSeed 2)).2 (symbolicSeed 3)) := rfl
  have hpub : ∀ b, symbolicHost.x25519Base (symbolicSeed b).bytes = symbolicSeed b := by
    intro b
    exact FixedBytes.copy_bytes (symbolicSeed b)
  refine ⟨rfl, ⟨fun _ => ⟨symbolicSeed 2, rfl, rfl⟩, ?_, ?_, ?_⟩, rfl,
    ⟨⟨_, rfl, rfl⟩, ⟨_, _, rfl, hspk, ?_, rfl⟩, ?_, rfl, rfl⟩, by decide, ?_, rfl⟩
  · intro spk h
    obtain rfl := Option.some.inj (hspk.symm.trans h)
    exact ⟨rfl, _, symbolicSeed 3, rfl, rfl⟩
  · intro pq hpq
    cases hpq
  · intro k hk
    obtain rfl := List.mem_singleton.mp hk
    rfl
  · exact congrArg FixedBytes.bytes (hpub 3).symm
  · intro k hk _ _
    obtain rfl := List.mem_singleton.mp hk
    exact ⟨_, List.mem_singleton_self _, rfl, congrArg FixedBytes.bytes (hpub 4).symm⟩
  · exact ⟨_, keyZero, FixedBytes.zero 24, _, rfl, rfl, rfl⟩

/-- After a restart its first replenishment draws a signed prekey that no one uploads. -/
theorem v1Client_lost : LeftByV1 namedStream symbolicHost 1 v1Client ∧ ∃ σ bundle,
    run (PrekeyClient.step namedStream symbolicHost)
      [.openGateway workingRead workingWrite (symbolicSeed 9), .countPrekeys,
        .replenishOne rotatingEnv] v1Client = some σ ∧
    σ.currentBundle = some bundle ∧ ¬ Holds σ.host.engine bundle := by
  have hkeys : (run (PrekeyClient.step namedStream symbolicHost)
      [.openGateway workingRead workingWrite (symbolicSeed 9), .countPrekeys,
        .replenishOne rotatingEnv] v1Client).map (fun σ =>
          (σ.currentBundle.map (·.signedPrekey), σ.host.engine.signedPrekey.map (·.publicKey))) =
      some (some (symbolicSeed 3), some (symbolicSeed 5)) := by
    decide +kernel
  obtain ⟨σ, hσ, hpair⟩ := Option.map_eq_some_iff.mp hkeys
  obtain ⟨hserved, hheld⟩ := Prod.mk.inj hpair
  obtain ⟨bundle, hbundle, hsigned⟩ := Option.map_eq_some_iff.mp hserved
  obtain ⟨spk, hspk, hpub⟩ := Option.map_eq_some_iff.mp hheld
  refine ⟨v1Client_left, σ, bundle, hσ, hbundle, ?_⟩
  intro hholds
  obtain ⟨spk', hspk', hsame⟩ := hholds.signed
  obtain rfl := Option.some.inj (hspk.symm.trans hspk')
  rw [hpub, hsigned] at hsame
  revert hsame
  decide

end ZiaCrypte.Storage

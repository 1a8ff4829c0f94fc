import ZiaCrypte.Storage.PrekeyClient

/-!
# What the server publishes and what the engine holds

A registered client is followed through its calls by what the engine and the
identity file hold of the keys that were uploaded, or are about to be.
-/
namespace ZiaCrypte.Storage

open ZiaCrypte.Lib ZiaCrypte.Engine ZiaCrypte.Server

variable {S : SecretStream} {X : EnginePrimitives}

/-! ## What an engine holds -/

/-- Each of the one-time prekeys can still be used. -/
def HoldsKeys (keys : List PublicKey) (e : ZiaEngine) : Prop :=
  ∀ key ∈ keys, ∃ o ∈ e.oneTimePrekeys, o.consumed = false ∧ o.publicKey = key

/-- The keys the tables have for the device are those of the engine. -/
structure Publishes (id : Uuid) (t : PrekeyTables) (e : ZiaEngine) : Prop where
  identity : ∃ d, t.devices.find? (·.id == id) = some d ∧
    d.identityPublicKey = e.identityPublic.bytes
  signed : ∃ s spk, t.currentSigned id = some s ∧ e.signedPrekey = some spk ∧
    s.publicKey = spk.publicKey.bytes ∧ s.signature = spk.signature.bytes
  oneTime : ∀ k ∈ t.oneTimePrekeys, k.deviceId = id → k.consumedAt = none →
    ∃ o ∈ e.oneTimePrekeys, o.consumed = false ∧ k.publicKey = o.publicKey.bytes
  present : e.hasIdentity = true
  classic : e.requirePq = false

/-- An engine with fewer than 2^32 one-time prekeys reads itself back. -/
theorem restored_eq {e : ZiaEngine} (hlen : e.oneTimePrekeys.length < UInt32.size)
    (hflag : e.hasIdentity = true) (hclassic : e.requirePq = false) :
    e.announced.restoredInto .new = e := by
  rw [e.announced_eq hlen]
  obtain ⟨flag, pub, priv, spk, pq, otpks, req⟩ := e
  obtain rfl : flag = true := hflag
  obtain rfl : req = false := hclassic
  rfl

theorem HoldsKeys.more {keys : List PublicKey} {e : ZiaEngine} (h : HoldsKeys keys e)
    (otpks : List ZiaOneTimePrekey) :
    HoldsKeys keys { e with oneTimePrekeys := e.oneTimePrekeys ++ otpks } := by
  intro key hkey
  obtain ⟨o, ho, hfree, hpub⟩ := h key hkey
  exact ⟨o, List.mem_append_left _ ho, hfree, hpub⟩

theorem Publishes.more {id : Uuid} {t : PrekeyTables} {e : ZiaEngine} (h : Publishes id t e)
    (otpks : List ZiaOneTimePrekey) :
    Publishes id t { e with oneTimePrekeys := e.oneTimePrekeys ++ otpks } := by
  refine ⟨h.identity, h.signed, ?_, h.present, h.classic⟩
  intro k hk hown hfree
  obtain ⟨o, ho, havailable, hpub⟩ := h.oneTime k hk hown hfree
  exact ⟨o, List.mem_append_left _ ho, havailable, hpub⟩

theorem HoldsKeys.consumed {keys : List PublicKey} {e : ZiaEngine} (h : HoldsKeys keys e)
    {used : PublicKey} (hused : used ∉ keys) :
    HoldsKeys keys { e with oneTimePrekeys := consumePrekey used e.oneTimePrekeys } := by
  intro key hkey
  obtain ⟨o, ho, hfree, rfl⟩ := h key hkey
  refine ⟨o, mem_consumePrekey_of_ne ho ?_, hfree, rfl⟩
  rintro rfl
  exact hused hkey

theorem Publishes.consumed {id : Uuid} {t : PrekeyTables} {e : ZiaEngine} (h : Publishes id t e)
    {used : PublicKey} (hused : ∀ k ∈ t.oneTimePrekeys, k.deviceId = id → k.consumedAt = none →
      k.publicKey ≠ used.bytes) :
    Publishes id t { e with oneTimePrekeys := consumePrekey used e.oneTimePrekeys } := by
  refine ⟨h.identity, h.signed, ?_, h.present, h.classic⟩
  intro k hk hown hfree
  obtain ⟨o, ho, havailable, hpub⟩ := h.oneTime k hk hown hfree
  refine ⟨o, mem_consumePrekey_of_ne ho ?_, havailable, hpub⟩
  rintro rfl
  exact hused k hk hown hfree hpub

/-- The server marks a row. -/
theorem Publishes.served {id : Uuid} {t : PrekeyTables} {e : ZiaEngine} (h : Publishes id t e)
    (rowId : Uuid) (now : Nat) : Publishes id (t.consume rowId now) e := by
  refine ⟨h.identity, h.signed, ?_, h.present, h.classic⟩
  intro k hk hown hfree
  rcases PrekeyTables.mem_consume hk with hmarked | ⟨_, hold⟩
  · exact absurd hfree hmarked
  · exact h.oneTime k hold hown hfree

/-- An upload without a signed prekey adds one-time prekeys of the engine. -/
theorem Publishes.uploaded {id : Uuid} {t : PrekeyTables} {e : ZiaEngine}
    (h : Publishes id t e) {keys : List PublicKey} (hkeys : HoldsKeys keys e) (ids : Nat → Uuid)
    (now : Nat) :
    Publishes id (t.uploadPrekeys
      ⟨id, none, keys.mapIdx fun i key => oneTimeRow id (ids i) now key⟩) e := by
  obtain ⟨hdevices, hsigned⟩ := PrekeyTables.uploadPrekeys_oneTimeOnly t id
    (keys.mapIdx fun i key => oneTimeRow id (ids i) now key)
  refine ⟨?_, ?_, ?_, h.present, h.classic⟩
  · rw [hdevices]
    exact h.identity
  · unfold PrekeyTables.currentSigned
    rw [hsigned]
    exact h.signed
  · intro k hk hown hfree
    rcases PrekeyTables.oneTimePrekeys_uploadPrekeys t _ with hsame | ⟨_, hadded⟩
    · rw [hsame] at hk
      exact h.oneTime k hk hown hfree
    · rw [hadded] at hk
      rcases List.mem_append.mp hk with hold | hnew
      · exact h.oneTime k hold hown hfree
      · obtain ⟨row, hrow, rfl⟩ := List.mem_map.mp hnew
        obtain ⟨i, hi, rfl⟩ := List.mem_mapIdx.mp hrow
        obtain ⟨o, ho, havailable, hpub⟩ := hkeys keys[i] (List.getElem_mem hi)
        exact ⟨o, ho, havailable, by rw [hpub]; rfl⟩

/-! ## Generating a bundle -/

theorem publishedBundle_eq_ok {e : ZiaEngine} {otpk : ZiaOneTimePrekey}
    {bundle : ZiaPrekeyBundle} (h : publishedBundle e otpk = .ok bundle) :
    ∃ spk pq, e.signedPrekey = some spk ∧ e.pqPrekey = some pq ∧ bundle =
      { identityKey := e.identityPublic
        signedPrekey := spk.publicKey
        signedPrekeySignature := spk.signature.bytes
        oneTimePrekey := some otpk.publicKey
        pqPrekey := some (pq.publicKey.bytes, pq.signature.bytes) } := by
  unfold publishedBundle at h
  split at h
  · rename_i spk pq hspk hpq
    exact ⟨spk, pq, hspk, hpq, (Except.ok.inj h).symm⟩
  · cases h

/-- A bundle is what the engine holds after the call, and the call saved that. -/
theorem ziaPrekeyBundleGenerate_ok {env : BundleEnv} {h h' : Host} {bundle : ZiaPrekeyBundle}
    (hcall : ziaPrekeyBundleGenerate S X env h = some (.ok bundle, h')) :
    ∃ h₁, h.engine.hasIdentity = true ∧ ensurePrekeys S X env.rotate h = some (none, h₁) ∧
      h'.engine = { h₁.engine with
        oneTimePrekeys := h₁.engine.oneTimePrekeys ++ [newOneTimePrekey X env.oneTime] } ∧
      publishedBundle h'.engine (newOneTimePrekey X env.oneTime) = .ok bundle ∧
      saveIdentity S env.save h'.engine h₁.device = some (bundleSaved S X env h, h'.device) := by
  rcases ziaPrekeyBundleGenerate_cases hcall with
    ⟨_, hrc, _⟩ | ⟨_, h₁, hflag, hensure, ⟨_, _, hrc, _⟩ | ⟨e, ok, d, rfl, rfl, hrc, hsave, rfl⟩⟩
  · cases hrc
  · cases hrc
  · have hsaved : bundleSaved S X env h = ok := by
      rw [bundleSaved, hflag, hensure]
      exact saveSucceeds_eq hsave
    exact ⟨h₁, hflag, hensure, rfl, hrc.symm, by rw [hsaved]; exact hsave⟩

/-- On an engine that has both prekeys the call leaves them. -/
theorem ziaPrekeyBundleGenerate_ready {env : BundleEnv} {h h' : Host}
    {rc : Except ZiaError ZiaPrekeyBundle} (hflag : h.engine.hasIdentity = true)
    (hspk : h.engine.signedPrekey.isSome = true) (hpq : h.engine.pqPrekey.isSome = true)
    (hcall : ziaPrekeyBundleGenerate S X env h = some (rc, h')) :
    ∃ bundle, rc = .ok bundle ∧ bundle.oneTimePrekey = some (X.x25519Base env.oneTime.bytes) ∧
      h'.engine = { h.engine with
        oneTimePrekeys := h.engine.oneTimePrekeys ++ [newOneTimePrekey X env.oneTime] } ∧
      saveIdentity S env.save h'.engine h.device = some (bundleSaved S X env h, h'.device) := by
  have hensure : ensurePrekeys S X env.rotate h = some (none, h) := by
    rw [ensurePrekeys, hspk, hpq, Bool.and_self, if_pos rfl]
  obtain ⟨spk, hspk⟩ := Option.isSome_iff_exists.mp hspk
  obtain ⟨pq, hpq⟩ := Option.isSome_iff_exists.mp hpq
  have hok : ∃ bundle, rc = .ok bundle := by
    rcases ziaPrekeyBundleGenerate_cases hcall with
      ⟨hnone, _⟩ | ⟨rc', h₁, _, hensure', ⟨_, rfl, _⟩ | ⟨e, _, _, _, rfl, hrc, _⟩⟩
    · rw [hflag] at hnone
      cases hnone
    · rw [hensure] at hensure'
      obtain ⟨hnone, _⟩ := Prod.mk.inj (Option.some.inj hensure')
      cases hnone
    · rw [hensure] at hensure'
      obtain ⟨_, rfl⟩ := Prod.mk.inj (Option.some.inj hensure')
      unfold publishedBundle at hrc
      dsimp only at hrc
      rw [hspk, hpq] at hrc
      exact ⟨_, hrc⟩
  obtain ⟨bundle, rfl⟩ := hok
  obtain ⟨h₁, _, hensure', hengine, hbundle, hsave⟩ := ziaPrekeyBundleGenerate_ok hcall
  rw [hensure] at hensure'
  obtain ⟨_, rfl⟩ := Prod.mk.inj (Option.some.inj hensure')
  obtain ⟨_, _, _, _, rfl⟩ := publishedBundle_eq_ok hbundle
  exact ⟨_, rfl, rfl, hengine, hsave⟩

/-! ## The invariant -/

/-- The host of a registered client holds what is published, and so does its
identity file unless a save failed. -/
structure ClientInv (S : SecretStream) (X : EnginePrimitives) (id : Uuid) (σ : PrekeyClient) :
    Prop where
  registered : σ.deviceId = some id
  honest : HonestHost S X σ.host
  publishes : Publishes id σ.tables σ.host.engine
  saved : σ.unsaved = false → σ.host.engine.oneTimePrekeys.length < UInt32.size →
    FileHolds S (Publishes id σ.tables) σ.host.device
  pending : ∀ r, σ.replenishing = some r → HoldsKeys r.keys σ.host.engine ∧
    (r.unsaved = false → σ.host.engine.oneTimePrekeys.length < UInt32.size →
      FileHolds S (HoldsKeys r.keys) σ.host.device)

/-- The file holds what the engine held when it was saved. -/
theorem fileHolds_engine (hS : S.Sound) {P : ZiaEngine → Prop} {save : WriteUse} {e : ZiaEngine}
    {d d' : Device} (hsave : saveIdentity S save e d = some (true, d'))
    (hlen : e.oneTimePrekeys.length < UInt32.size) (hflag : e.hasIdentity = true)
    (hclassic : e.requirePq = false) (he : P e) : FileHolds S P d' := by
  refine fileHolds_saved hS hsave ?_
  rw [restored_eq hlen hflag hclassic]
  exact he

/-- What a file holds after a save, whether it succeeds or not. -/
theorem fileHolds_save (hS : S.Sound) {P : ZiaEngine → Prop} {unsaved : Bool} {save : WriteUse}
    {e : ZiaEngine} {d d' : Device} {ok : Bool} (hsave : saveIdentity S save e d = some (ok, d'))
    (hflag : e.hasIdentity = true) (hclassic : e.requirePq = false)
    (hlen : e.oneTimePrekeys.length < UInt32.size) (he : P e)
    (hold : unsaved = false → FileHolds S P d) (h : (unsaved && !ok) = false) :
    FileHolds S P d' := by
  cases ok with
  | true => exact fileHolds_engine hS hsave hlen hflag hclassic he
  | false =>
    rw [Bool.not_false, Bool.and_true] at h
    exact (hold h).unsaved hsave

/-- A call that keeps the prekeys and saves the engine. -/
theorem ClientInv.afterSave (hS : S.Sound) {id : Uuid} {σ : PrekeyClient}
    (h : ClientInv S X id σ) {h' : Host} {ok : Bool} {save : WriteUse}
    (hhonest : HonestHost S X h') (hpublishes : Publishes id σ.tables h'.engine)
    (hpending : ∀ r, σ.replenishing = some r → HoldsKeys r.keys h'.engine)
    (hgrows : σ.host.engine.oneTimePrekeys.length ≤ h'.engine.oneTimePrekeys.length)
    (hsave : saveIdentity S save h'.engine σ.host.device = some (ok, h'.device)) :
    ClientInv S X id (σ.afterSave ok h') := by
  refine ⟨h.registered, hhonest, hpublishes, ?_, ?_⟩
  · intro hsaved hlen
    exact fileHolds_save hS hsave hpublishes.present hpublishes.classic hlen hpublishes
      (fun hold => h.saved hold (Nat.lt_of_le_of_lt hgrows hlen)) hsaved
  · intro r hr
    obtain ⟨r₀, hr₀, rfl⟩ := Option.map_eq_some_iff.mp hr
    refine ⟨hpending r₀ hr₀, fun hsaved hlen => ?_⟩
    exact fileHolds_save hS hsave hpublishes.present hpublishes.classic hlen (hpending r₀ hr₀)
      (fun hold => (h.pending r₀ hr₀).2 hold (Nat.lt_of_le_of_lt hgrows hlen)) hsaved

/-- One more one-time prekey, whatever becomes of it. -/
theorem ClientInv.generate (hS : S.Sound) {id : Uuid} {σ : PrekeyClient}
    (h : ClientInv S X id σ) (hspk : σ.host.engine.signedPrekey.isSome = true)
    (hpq : σ.host.engine.pqPrekey.isSome = true) {env : BundleEnv} {h' : Host}
    {rc : Except ZiaError ZiaPrekeyBundle}
    (hcall : ziaPrekeyBundleGenerate S X env σ.host = some (rc, h')) :
    ∃ bundle save, rc = .ok bundle ∧ HoldsKeys bundle.oneTimePrekey.toList h'.engine ∧
      saveIdentity S save h'.engine σ.host.device =
        some (bundleSaved S X env σ.host, h'.device) ∧
      ClientInv S X id (σ.afterSave (bundleSaved S X env σ.host) h') := by
  obtain ⟨bundle, rfl, hkey, hengine, hsave⟩ :=
    ziaPrekeyBundleGenerate_ready h.publishes.present hspk hpq hcall
  refine ⟨bundle, env.save, rfl, ?_, hsave, ?_⟩
  · rw [hkey, hengine]
    intro key hmem
    obtain rfl := List.mem_singleton.mp hmem
    exact ⟨_, List.mem_append_right _ (List.mem_singleton_self _), rfl, rfl⟩
  · apply h.afterSave hS (h.honest.bundleGenerate hS hcall) _ _ _ hsave
    · rw [hengine]
      exact h.publishes.more _
    · intro r hr
      rw [hengine]
      exact (h.pending r hr).1.more _
    · rw [hengine]
      simp

theorem ClientInv.accept (hS : S.Sound) {id : Uuid} {σ σ' : PrekeyClient}
    (h : ClientInv S X id σ) {save : WriteUse}
    {handshake : ZiaHandshakeMaterial}
    (hsafe : ∀ key, handshake.usedOneTimePrekey = some key → ¬ σ.Unserved key)
    (hstep : σ.acceptHandshake S X save handshake = some σ') : ClientInv S X id σ' := by
  obtain ⟨⟨rc, h'⟩, hcall, hrest⟩ := Option.bind_eq_some_iff.mp hstep
  have hhonest := h.honest.accept hS hcall
  rcases ziaSessionAcceptHandshake_cases hcall with
    ⟨_, rfl, rfl⟩ | ⟨_, _, _, rfl, _, ⟨hnone, rfl⟩ | ⟨used, e, ok, d, hused, rfl, hsave, rfl⟩⟩
  · obtain rfl := Option.some.inj hrest
    exact h
  · obtain rfl := Option.some.inj hrest
    rw [hnone, Option.isSome_none, Bool.false_and]
    have hsame : σ.afterSave false σ.host = σ := by
      obtain ⟨host, tables, deviceId, replenishing, unsaved⟩ := σ
      cases replenishing <;> simp [PrekeyClient.afterSave]
    rw [hsame]
    exact h
  · obtain rfl := Option.some.inj hrest
    have hunserved := hsafe used hused
    have hok : (handshake.usedOneTimePrekey.isSome &&
        saveSucceeds S save (consumedEngine handshake σ.host.engine) σ.host.device) = ok := by
      rw [consumedEngine_some hused, hused]
      exact saveSucceeds_eq hsave
    rw [hok]
    apply h.afterSave hS hhonest _ _ _ hsave
    · apply h.publishes.consumed
      intro k hk hown hfree hpub
      exact hunserved (Or.inl ⟨id, h.registered, k, hk, hown, hfree, hpub⟩)
    · intro r hr
      apply (h.pending r hr).1.consumed
      intro hkey
      exact hunserved (Or.inr ⟨r, hr, hkey⟩)
    · exact (length_consumePrekey _ _).ge

theorem ClientInv.serve {id : Uuid} {σ σ' : PrekeyClient} (h : ClientInv S X id σ) {now : Nat}
    (hstep : σ.serve now = some σ') : ClientInv S X id σ' := by
  obtain ⟨own, _, hrest⟩ := Option.bind_eq_some_iff.mp hstep
  split at hrest
  · obtain rfl := Option.some.inj hrest
    exact h
  · rename_i k _
    obtain rfl := Option.some.inj hrest
    exact ⟨h.registered, h.honest, h.publishes.served k.id now,
      fun hsaved hlen => (h.saved hsaved hlen).imp fun e he => he.served k.id now, h.pending⟩

theorem ClientInv.uploadPrekeys {id : Uuid} {σ σ' : PrekeyClient} (h : ClientInv S X id σ)
    {ids : Nat → Uuid} {now : Nat} {arrived : Bool}
    (hstep : σ.uploadPrekeys ids now arrived = some σ') : ClientInv S X id σ' := by
  obtain ⟨own, hown, hrest⟩ := Option.bind_eq_some_iff.mp hstep
  obtain rfl := Option.some.inj (h.registered.symm.trans hown)
  obtain ⟨r, hr, hrest⟩ := Option.bind_eq_some_iff.mp hrest
  obtain ⟨hkeys, hfile⟩ := h.pending r hr
  split at hrest
  · cases hrest
  split at hrest
  · obtain rfl := Option.some.inj hrest
    refine ⟨h.registered, h.honest, h.publishes.uploaded hkeys ids now, ?_,
      fun r' hr' => by cases hr'⟩
    intro hsaved hlen
    rw [Bool.or_eq_false_iff] at hsaved
    intro raw key plain hraw hopen
    have hpublished := h.saved hsaved.1 hlen raw key plain hraw hopen
    exact hpublished.uploaded (hfile hsaved.2 hlen raw key plain hraw hopen) ids now
  · obtain rfl := Option.some.inj hrest
    exact ⟨h.registered, h.honest, h.publishes, h.saved, fun r' hr' => by cases hr'⟩

theorem ClientInv.countPrekeys {id : Uuid} {σ σ' : PrekeyClient} (h : ClientInv S X id σ)
    (hstep : σ.countPrekeys = some σ') : ClientInv S X id σ' := by
  obtain ⟨own, _, hrest⟩ := Option.bind_eq_some_iff.mp hstep
  dsimp only at hrest
  split at hrest
  · obtain rfl := Option.some.inj hrest
    exact h
  · obtain rfl := Option.some.inj hrest
    refine ⟨h.registered, h.honest, h.publishes, h.saved, ?_⟩
    intro r hr
    obtain rfl := Option.some.inj hr
    have hnone : ∀ e, HoldsKeys [] e := by
      intro e key hkey
      cases hkey
    exact ⟨hnone _, fun _ _ raw key plain _ _ => hnone _⟩

theorem ClientInv.replenishOne (hS : S.Sound) {id : Uuid} {σ σ' : PrekeyClient}
    (h : ClientInv S X id σ) (hspk : σ.host.engine.signedPrekey.isSome = true)
    (hpq : σ.host.engine.pqPrekey.isSome = true) {env : BundleEnv}
    (hstep : σ.replenishOne S X env = some σ') : ClientInv S X id σ' := by
  obtain ⟨r, hr, hrest⟩ := Option.bind_eq_some_iff.mp hstep
  split at hrest
  · cases hrest
  obtain ⟨⟨rc, h'⟩, hcall, hrest⟩ := Option.bind_eq_some_iff.mp hrest
  obtain ⟨bundle, save, rfl, hkey, hsave, hafter⟩ := h.generate hS hspk hpq hcall
  obtain rfl := Option.some.inj hrest
  refine ⟨h.registered, hafter.honest, hafter.publishes, hafter.saved, ?_⟩
  intro r' hr'
  obtain rfl := Option.some.inj hr'
  have hkeys : HoldsKeys (r.keys ++ bundle.oneTimePrekey.toList) h'.engine := by
    intro key hmem
    rcases List.mem_append.mp hmem with hold | hnew
    · exact (hafter.pending _ (Option.map_eq_some_iff.mpr ⟨r, hr, rfl⟩)).1 key hold
    · exact hkey key hnew
  refine ⟨hkeys, fun hsaved hlen => ?_⟩
  rw [Bool.not_eq_false'] at hsaved
  rw [hsaved] at hsave
  exact fileHolds_engine hS hsave hlen hafter.publishes.present hafter.publishes.classic hkeys

end ZiaCrypte.Storage

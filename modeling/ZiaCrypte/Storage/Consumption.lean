import ZiaCrypte.Storage.HandshakeAgreement

/-!
# One-time prekeys across restarts

An accepted handshake consumes its one-time prekey in memory and saves, and hands
the session out whatever the save returns. A restart reads the file, so a prekey
stays consumed as long as no engine is started from a file older than its last
consumption.
-/
namespace ZiaCrypte.Storage

open ZiaCrypte.Lib ZiaCrypte.Engine

inductive HandshakeCall where
  | accept (save : WriteUse) (handshake : ZiaHandshakeMaterial)
  | restart (use : ReadUse)

/-- A host, and what its handshakes have done. -/
structure Consuming where
  host : Host
  /-- The one-time private keys that accepted handshakes have used. -/
  used : List Key
  /-- The last consumption was not saved. -/
  unsaved : Bool

/-- The lookup of `zia_session_accept_handshake`. -/
def availablePrekey (used : PublicKey) (otpks : List ZiaOneTimePrekey) : Option ZiaOneTimePrekey :=
  otpks.find? fun k => !k.consumed && k.publicKey == used

def usedKeys (handshake : ZiaHandshakeMaterial) (e : ZiaEngine) : List Key :=
  ((handshake.usedOneTimePrekey.bind (availablePrekey · e.oneTimePrekeys)).map
    (·.privateKey)).toList

/-- The engine as an accepted handshake leaves it. -/
def consumedEngine (handshake : ZiaHandshakeMaterial) (e : ZiaEngine) : ZiaEngine :=
  match handshake.usedOneTimePrekey with
  | none => e
  | some used => { e with oneTimePrekeys := consumePrekey used e.oneTimePrekeys }

variable (S : SecretStream) (X : EnginePrimitives)

/-- Whether `save_identity` succeeds. -/
def saveSucceeds (save : WriteUse) (e : ZiaEngine) (d : Device) : Bool :=
  (saveIdentity S save e d).any (·.1)

def Consuming.accepted (save : WriteUse) (handshake : ZiaHandshakeMaterial) (σ : Consuming)
    (h : Host) : Consuming where
  host := h
  used := usedKeys handshake σ.host.engine ++ σ.used
  unsaved :=
    if handshake.usedOneTimePrekey.isSome then
      !saveSucceeds S save (consumedEngine handshake σ.host.engine) σ.host.device
    else σ.unsaved

def Consuming.step : HandshakeCall → Consuming → Option Consuming
  | .accept save handshake, σ =>
      (ziaSessionAcceptHandshake S X save handshake σ.host).map fun r =>
        match r with
        | (.ok _, h) => σ.accepted S save handshake h
        | (.error _, h) => { σ with host := h }
  | .restart use, σ => some { σ with host := ziaEngineInit S use σ.host.device }

/-- The start reads an identity file. -/
def ReadsFile (use : ReadUse) (d : Device) : Prop :=
  d.hasPath = true ∧ (sealedRead S use d.identityFile d).1.isSome = true

/-- No engine is started from a file that lacks the last consumption. -/
def HandshakeCall.Safe : HandshakeCall → Consuming → Prop
  | .accept _ _, _ => True
  | .restart use, σ => σ.unsaved = true → ¬ ReadsFile S use σ.host.device

/-- No private key was used twice, and none that was used can be used again. -/
structure Consuming.SingleUse (σ : Consuming) : Prop where
  once : σ.used.Nodup
  spent : ∀ k ∈ σ.host.engine.oneTimePrekeys, k.consumed = false → k.privateKey ∉ σ.used

theorem consumedEngine_some {handshake : ZiaHandshakeMaterial} {used : PublicKey}
    (h : handshake.usedOneTimePrekey = some used) (e : ZiaEngine) :
    consumedEngine handshake e =
      { e with oneTimePrekeys := consumePrekey used e.oneTimePrekeys } := by
  simp only [consumedEngine, h]

variable {S} in
theorem saveSucceeds_eq {save : WriteUse} {e : ZiaEngine} {d d' : Device} {ok : Bool}
    (h : saveIdentity S save e d = some (ok, d')) : saveSucceeds S save e d = ok := by
  rw [saveSucceeds, h]
  rfl

/-! ## Consuming a prekey -/

/-- The private keys a handshake can still use. -/
def availableKeys (otpks : List ZiaOneTimePrekey) : List Key :=
  (otpks.filter fun k => !k.consumed).map (·.privateKey)

theorem mem_availableKeys {otpks : List ZiaOneTimePrekey} {key : Key} :
    key ∈ availableKeys otpks ↔ ∃ k ∈ otpks, k.consumed = false ∧ k.privateKey = key := by
  simp [availableKeys, and_assoc]

theorem availableKeys_consumePrekey {used : PublicKey} {otpks : List ZiaOneTimePrekey}
    {k : ZiaOneTimePrekey} (h : availablePrekey used otpks = some k) :
    (availableKeys otpks).Perm (k.privateKey :: availableKeys (consumePrekey used otpks)) := by
  induction otpks with
  | nil => cases h
  | cons k₀ otpks ih =>
    rw [availablePrekey, List.find?_cons] at h
    cases hmatch : !k₀.consumed && k₀.publicKey == used with
    | true =>
      rw [hmatch] at h
      obtain rfl := Option.some.inj h
      have havailable : k₀.consumed = false := by
        rw [Bool.and_eq_true, Bool.not_eq_true'] at hmatch
        exact hmatch.1
      rw [consumePrekey, hmatch, if_pos rfl]
      simp [availableKeys, havailable]
    | false =>
      rw [hmatch] at h
      have hrest := ih h
      rw [consumePrekey, hmatch, if_neg Bool.false_ne_true]
      cases hconsumed : k₀.consumed with
      | true => simpa [availableKeys, hconsumed] using hrest
      | false =>
        simp only [availableKeys, List.filter_cons, hconsumed, Bool.not_false, if_pos,
          List.map_cons] at hrest ⊢
        exact (hrest.cons _).trans (List.Perm.swap _ _ _)

theorem availableKeys_take (otpks : List ZiaOneTimePrekey) (n : Nat) :
    (availableKeys (otpks.take n)).Sublist (availableKeys otpks) :=
  ((List.take_sublist n otpks).filter _).map _

/-! ## The invariant -/

/-- Neither a used key nor a repeated one can be used. -/
def Fits (used : List Key) (e : ZiaEngine) : Prop :=
  (used ++ availableKeys e.oneTimePrekeys).Nodup

/-- The engine fits what was used, and so does the file, unless a save failed. -/
structure ConsumptionInv (σ : Consuming) : Prop where
  engine : Fits σ.used σ.host.engine
  file : σ.unsaved = false → FileInv S (Fits σ.used) σ.host.device

variable {S X}

/-- An accepted handshake found the prekey it names. -/
theorem accepted_finds {handshake : ZiaHandshakeMaterial} {e : ZiaEngine}
    {t : ZiaSession Bytes} {e' : Engine.ZiaEngine Bytes} {used : PublicKey}
    (haccept : Engine.ziaSessionAcceptHandshake X.toX3dhPrimitives e.handshakeKeys handshake =
      .ok (t, e')) (hused : handshake.usedOneTimePrekey = some used) :
    ∃ k, availablePrekey used e.oneTimePrekeys = some k := by
  obtain ⟨x, spk, hx, _, _⟩ := (ziaSessionAcceptHandshake_ok_iff X.toX3dhPrimitives).mp haccept
  have hdh4 := hx.dh4
  simp only [responderDh4, hused] at hdh4
  cases hfind : availablePrekey used e.oneTimePrekeys with
  | some k => exact ⟨k, rfl⟩
  | none =>
    have hnone : (e.handshakeKeys.oneTimePrekeys.find? fun k =>
        !k.consumed && k.publicKey == used) = none := by
      rw [ZiaEngine.handshakeKeys, List.find?_map]
      exact Option.map_eq_none_iff.mpr hfind
    rw [hnone] at hdh4
    cases hdh4

theorem Fits.used {used : List Key} {e : ZiaEngine} (h : Fits used e) : used.Nodup :=
  (List.nodup_append.mp h).1

theorem fits_new {used : List Key} (h : used.Nodup) : Fits used .new := by
  rw [Fits, show availableKeys ZiaEngine.new.oneTimePrekeys = [] from rfl, List.append_nil]
  exact h

/-- What the engine reads back of itself fits too. -/
theorem Fits.restored {used : List Key} {e : ZiaEngine} (h : Fits used e) :
    Fits used (e.announced.restoredInto .new) :=
  h.sublist ((availableKeys_take _ _).append_left used)

theorem ConsumptionInv.singleUse {σ : Consuming} (h : ConsumptionInv S σ) : σ.SingleUse := by
  refine ⟨h.engine.used, ?_⟩
  intro k hk havailable hused
  exact (List.nodup_append.mp h.engine).2.2 _ hused _
    (mem_availableKeys.mpr ⟨k, hk, havailable, rfl⟩) rfl

/-- The key a handshake consumes moves from the available ones to the used ones. -/
theorem Fits.consumed {used : List Key} {e : ZiaEngine} (h : Fits used e)
    {handshake : ZiaHandshakeMaterial} {otpk : PublicKey} {k : ZiaOneTimePrekey}
    (hotpk : handshake.usedOneTimePrekey = some otpk)
    (hk : availablePrekey otpk e.oneTimePrekeys = some k) :
    Fits (usedKeys handshake e ++ used) (consumedEngine handshake e) := by
  have hkeys : usedKeys handshake e = [k.privateKey] := by
    simp [usedKeys, hotpk, hk]
  rw [Fits, hkeys, consumedEngine_some hotpk]
  refine (List.Perm.nodup_iff ?_).mp h
  refine ((availableKeys_consumePrekey hk).append_left used).trans ?_
  exact List.perm_middle

/-- A start that reads no file comes up empty. -/
theorem ziaEngineInit_new {use : ReadUse} {d : Device} (h : ¬ ReadsFile S use d) :
    (ziaEngineInit S use d).engine = .new := by
  unfold ziaEngineInit loadIdentity
  split
  · rfl
  rename_i hpath
  split
  · rfl
  · rename_i plain d' hread
    exact absurd ⟨by simpa using hpath, by rw [hread]; rfl⟩ h

theorem ConsumptionInv.restart {σ : Consuming} (h : ConsumptionInv S σ) {use : ReadUse}
    (hsafe : σ.unsaved = true → ¬ ReadsFile S use σ.host.device) :
    ConsumptionInv S { σ with host := ziaEngineInit S use σ.host.device } := by
  obtain ⟨hloads, stored, hdevice⟩ := ziaEngineInit_loads (S := S) use σ.host.device
  constructor
  · cases hunsaved : σ.unsaved with
    | true =>
      rw [ziaEngineInit_new (hsafe hunsaved)]
      exact fits_new h.engine.used
    | false => exact h.file hunsaved _ hloads
  · intro hsaved
    rw [hdevice]
    exact (h.file hsaved).masterKey stored

theorem ConsumptionInv.accept (hS : S.Sound) {σ : Consuming} (h : ConsumptionInv S σ)
    {save : WriteUse} {handshake : ZiaHandshakeMaterial} {t : ZiaSession Bytes} {h' : Host}
    (hcall : ziaSessionAcceptHandshake S X save handshake σ.host = some (.ok t, h')) :
    ConsumptionInv S (σ.accepted S save handshake h') := by
  rcases ziaSessionAcceptHandshake_cases hcall with
    ⟨_, hrc, _⟩ | ⟨_, _, _, _, haccept, ⟨hnone, rfl⟩ | ⟨used, e, ok, d, hused, rfl, hsave, rfl⟩⟩
  · cases hrc
  · have hkeys : usedKeys handshake σ.host.engine = [] := by simp [usedKeys, hnone]
    simp only [Consuming.accepted, hkeys, hnone, Option.isSome_none, List.nil_append]
    exact h
  · obtain ⟨k, hk⟩ := accepted_finds haccept hused
    have hfits := h.engine.consumed hused hk
    rw [consumedEngine_some hused] at hfits
    refine ⟨hfits, ?_⟩
    intro hsaved
    have hok : ok = true := by
      simpa [Consuming.accepted, hused, consumedEngine_some hused, saveSucceeds_eq hsave] using hsaved
    rw [hok] at hsave
    exact FileInv.saved hS (fits_new hfits.used) hsave hfits.restored

theorem consumptionInv_step (hS : S.Sound) (c : HandshakeCall) (σ σ' : Consuming)
    (h : ConsumptionInv S σ) (hsafe : c.Safe S σ) (hstep : σ.step S X c = some σ') :
    ConsumptionInv S σ' := by
  cases c with
  | restart use =>
    obtain rfl := Option.some.inj hstep
    exact h.restart hsafe
  | accept save handshake =>
    obtain ⟨⟨rc, h'⟩, hcall, hσ⟩ := Option.map_eq_some_iff.mp hstep
    cases rc with
    | ok t =>
      obtain rfl := hσ
      exact h.accept hS hcall
    | error rc =>
      obtain rfl := hσ
      rcases ziaSessionAcceptHandshake_cases hcall with ⟨_, _, rfl⟩ | ⟨_, _, _, hrc, _⟩
      · exact h
      · cases hrc

/-- As long as no engine is started from a file that lacks the last consumption,
every one-time prekey is used by at most one accepted handshake. -/
theorem prekeys_usedOnce (hS : S.Sound) {h : Host}
    (hengine : (availableKeys h.engine.oneTimePrekeys).Nodup)
    (hfile : FileInv S (fun e => (availableKeys e.oneTimePrekeys).Nodup) h.device)
    {calls : List HandshakeCall}
    (hsafe : Always (Consuming.step S X) (HandshakeCall.Safe S) calls ⟨h, [], false⟩)
    {σ : Consuming} (hrun : run (Consuming.step S X) calls ⟨h, [], false⟩ = some σ) :
    σ.SingleUse := by
  have hstart : ConsumptionInv S ⟨h, [], false⟩ := ⟨hengine, fun _ => hfile⟩
  exact (run_invariant_of_always _ (consumptionInv_step hS) hstart hsafe hrun).singleUse

/-! ## A consumption that was not saved -/

/-- An engine of the symbolic instance with one one-time prekey. -/
def servingEngine : ZiaEngine :=
  { (symbolicIdentity 2).engine with
    signedPrekey := some (newSignedPrekey symbolicHost (FixedBytes.zero 64) (symbolicSeed 3))
    oneTimePrekeys := [newOneTimePrekey symbolicHost (symbolicSeed 4)] }

/-- Its device, as a save left it. -/
def servingHost : Host where
  engine := servingEngine
  device :=
    { hasPath := true
      masterKey := some keyZero
      identityFile := (serializeIdentity servingEngine).bind
        (sealFile namedStream keyZero (FixedBytes.zero 24))
      vault := .empty }

def servedHandshake : ZiaHandshakeMaterial where
  initiatorIdentityKey := symbolicSeed 1
  initiatorEphemeralKey := symbolicSeed 5
  usedOneTimePrekey := some (symbolicSeed 4)
  pqCiphertext := none

/-- A use of the disk at which the file cannot be written. -/
def failingWrite : WriteUse := { workingWrite with written := false }

theorem servingHost_saved :
    saveIdentity namedStream workingWrite servingEngine ⟨true, none, none, .empty⟩ =
      some (true, servingHost.device) := rfl

theorem servingHost_distinct : (availableKeys servingHost.engine.oneTimePrekeys).Nodup ∧
    FileInv namedStream (fun e => (availableKeys e.oneTimePrekeys).Nodup) servingHost.device := by
  refine ⟨by decide, FileInv.saved namedStream_sound List.nodup_nil servingHost_saved ?_⟩
  decide

/-- A handshake that comes again after a restart is refused. -/
theorem servedPrekey_usedOnce : ∃ σ,
    run (Consuming.step namedStream symbolicHost)
      [.accept workingWrite servedHandshake, .restart workingRead,
        .accept workingWrite servedHandshake] ⟨servingHost, [], false⟩ = some σ ∧
    σ.used = [symbolicSeed 4] ∧ σ.SingleUse := by
  have hused : (run (Consuming.step namedStream symbolicHost)
      [.accept workingWrite servedHandshake, .restart workingRead,
        .accept workingWrite servedHandshake] ⟨servingHost, [], false⟩).map (·.used) =
      some [symbolicSeed 4] := by
    decide +kernel
  have hsaved : (Consuming.step namedStream symbolicHost (.accept workingWrite servedHandshake)
      ⟨servingHost, [], false⟩).map (·.unsaved) = some false := by
    decide +kernel
  obtain ⟨σ, hσ, hkeys⟩ := Option.map_eq_some_iff.mp hused
  obtain ⟨hengine, hfile⟩ := servingHost_distinct
  refine ⟨σ, hσ, hkeys, prekeys_usedOnce namedStream_sound hengine hfile ?_ hσ⟩
  refine ⟨trivial, fun t ht => ⟨fun hunsaved => ?_, fun _ _ => ⟨trivial, fun _ _ => trivial⟩⟩⟩
  rw [ht, Option.map_some, hunsaved] at hsaved
  cases hsaved

/-- When the save fails, the same handshake is accepted again after a restart. -/
theorem servedPrekey_usedTwice :
    ((availableKeys servingHost.engine.oneTimePrekeys).Nodup ∧
      FileInv namedStream (fun e => (availableKeys e.oneTimePrekeys).Nodup)
        servingHost.device) ∧
    (run (Consuming.step namedStream symbolicHost)
      [.accept failingWrite servedHandshake, .restart workingRead,
        .accept workingWrite servedHandshake] ⟨servingHost, [], false⟩).map (·.used) =
      some [symbolicSeed 4, symbolicSeed 4] :=
  ⟨servingHost_distinct, by decide +kernel⟩

end ZiaCrypte.Storage

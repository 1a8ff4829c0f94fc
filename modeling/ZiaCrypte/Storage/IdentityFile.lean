import ZiaCrypte.Storage.Consumption

/-!
# What becomes of an identity file that was not loaded

`zia_engine_init` goes on without the identity it could not load, and every later
save replaces the file. The master key is replaced when it is not found, whether
or not files are encrypted under it. Here each step is one use of the disk.
-/
namespace ZiaCrypte.Storage

open ZiaCrypte.Lib ZiaCrypte.Engine

inductive StoreStep where
  | restart (use : ReadUse)
  | identityGenerate (save : WriteUse) (seed : Key)
  | rotate (env : RotateEnv)
  /-- The end of `zia_prekey_bundle_generate`. -/
  | publishOneTime (oneTime : Key) (save : WriteUse)
  | accept (save : WriteUse) (handshake : ZiaHandshakeMaterial)

/-- A host, and whether its engine runs without the identity file that is there. -/
structure Guarded where
  host : Host
  unloaded : Bool

variable (S : SecretStream) (X : EnginePrimitives)

/-- The one-time prekey of `zia_prekey_bundle_generate`, drawn and saved. -/
def pushOneTimePrekey (oneTime : Key) (save : WriteUse) (h : Host) : Option Host := do
  let e := { h.engine with
    oneTimePrekeys := h.engine.oneTimePrekeys ++ [newOneTimePrekey X oneTime] }
  let r ← saveIdentity S save e h.device
  pure ⟨e, r.2⟩

def StoreStep.apply : StoreStep → Host → Option Host
  | .restart use, h => some (ziaEngineInit S use h.device)
  | .identityGenerate save seed, h => (ziaIdentityGenerate S X save seed h).map (·.2)
  | .rotate env, h => (ziaPrekeyBundleRotate S X env h).map (·.2)
  | .publishOneTime oneTime save, h => pushOneTimePrekey S X oneTime save h
  | .accept save handshake, h => (ziaSessionAcceptHandshake S X save handshake h).map (·.2)

/-- `_openGateway`: an engine without an identity is made to generate one. -/
def openGateway (use : ReadUse) (save : WriteUse) (seed : Key) : List StoreStep :=
  [.restart use, .identityGenerate save seed]

/-- After a start, whether there was a file that `load_identity` could not load. -/
def StoreStep.unloads (c : StoreStep) (σ : Guarded) : Bool :=
  match c with
  | .restart use =>
      σ.host.device.identityFile.isSome && !(loadIdentity S use .new σ.host.device).1
  | _ => σ.unloaded

def Guarded.step (c : StoreStep) (σ : Guarded) : Option Guarded :=
  (c.apply S X σ.host).map fun h => ⟨h, c.unloads S σ⟩

/-- A folder no engine was started on yet. -/
def Guarded.start (d : Device) : Guarded := ⟨.blank d, d.identityFile.isSome⟩

/-- Something is encrypted under the master key. -/
def HasFiles (d : Device) : Prop := d.identityFile.isSome = true ∨ d.vault.entries ≠ []

/-- The key is found, or no other one can be stored. -/
def KeyHolds (use : KeyStoreUse) (d : Device) : Prop :=
  (use.found && d.masterKey.isSome) = true ∨ use.stored = false

/-- With its key found, the write goes through. -/
def Writable (save : WriteUse) (d : Device) : Prop :=
  d.hasPath = true ∧ save.keyStore.loaded = true ∧ d.masterKey.isSome = true ∧
    save.directory = true ∧ save.header.isSome = true ∧ save.written = true

def StoreStep.write : StoreStep → Option WriteUse
  | .restart _ => none
  | .identityGenerate save _ => some save
  | .rotate env => some env.save
  | .publishOneTime _ save => some save
  | .accept save _ => some save

def StoreStep.keyStore : StoreStep → Option KeyStoreUse
  | .restart use => some use.keyStore
  | c => c.write.map (·.keyStore)

/-- Where files are, the key store does not lose the key they are under; where the
file was not loaded, no write goes through. -/
structure StoreStep.Safe (c : StoreStep) (σ : Guarded) : Prop where
  key : HasFiles σ.host.device → ∀ use, c.keyStore = some use → KeyHolds use σ.host.device
  file : σ.unloaded = true → ∀ save, c.write = some save → ¬ Writable save σ.host.device

/-- A file that was not loaded stays as it is, and so does the key of the files. -/
structure Guarded.Kept (σ σ' : Guarded) : Prop where
  file : σ.unloaded = true → σ'.host.device.identityFile = σ.host.device.identityFile
  key : HasFiles σ.host.device → σ'.host.device.masterKey = σ.host.device.masterKey

variable {S X}

/-! ## `zia_prekey_bundle_generate` in steps -/

theorem bundleGenerate_steps {env : BundleEnv} {h h' : Host}
    {rc : Except ZiaError ZiaPrekeyBundle}
    (hcall : ziaPrekeyBundleGenerate S X env h = some (rc, h')) :
    ∃ steps, steps.Sublist [.rotate env.rotate, .publishOneTime env.oneTime env.save] ∧
      run (StoreStep.apply S X) steps h = some h' := by
  rcases ziaPrekeyBundleGenerate_cases hcall with ⟨_, _, rfl⟩ | ⟨rc', h₁, _, hensure, hrest⟩
  · exact ⟨[], List.nil_sublist _, rfl⟩
  obtain ⟨first, hfirst, hrun⟩ : ∃ first : List StoreStep, first.Sublist [.rotate env.rotate] ∧
      run (StoreStep.apply S X) first h = some h₁ := by
    unfold ensurePrekeys at hensure
    split at hensure
    · obtain ⟨_, rfl⟩ := Prod.mk.inj (Option.some.inj hensure)
      exact ⟨[], List.nil_sublist _, rfl⟩
    · refine ⟨_, List.Sublist.refl _, ?_⟩
      rw [run_cons, StoreStep.apply, hensure]
      rfl
  rcases hrest with ⟨_, _, _, rfl⟩ | ⟨e, ok, d, _, rfl, _, hsave, rfl⟩
  · exact ⟨first, hfirst.trans (List.sublist_append_left _ _), hrun⟩
  · refine ⟨first ++ [.publishOneTime env.oneTime env.save], hfirst.append_right _, ?_⟩
    rw [run_append, hrun, Option.bind_some, run_cons, StoreStep.apply, pushOneTimePrekey]
    dsimp only
    rw [hsave]
    rfl

/-! ## One use of the disk -/

theorem masterKey_holds {use : KeyStoreUse} {d : Device} (h : KeyHolds use d) :
    (masterKey use d).2 = d := by
  unfold masterKey
  split
  · rfl
  · rename_i hlost
    rcases h with hfound | hstored
    · exact absurd hfound hlost
    · rw [hstored, if_neg Bool.false_ne_true]

theorem masterKey_some {use : KeyStoreUse} {d d' : Device} {key : Key} (h : KeyHolds use d)
    (hkey : masterKey use d = (some key, d')) :
    d' = d ∧ use.loaded = true ∧ d.masterKey.isSome = true := by
  have hd := masterKey_holds h
  rw [hkey] at hd
  refine ⟨hd, ?_⟩
  unfold masterKey at hkey
  split at hkey
  · rename_i hfound
    rw [Bool.and_eq_true] at hfound
    cases hloaded : use.loaded with
    | true => exact ⟨rfl, hfound.2⟩
    | false =>
      rw [hloaded, if_neg Bool.false_ne_true] at hkey
      cases (Prod.mk.inj hkey).1
  · rename_i hlost
    rcases h with hfound | hstored
    · exact absurd hfound hlost
    · rw [hstored, if_neg Bool.false_ne_true] at hkey
      cases (Prod.mk.inj hkey).1

/-- Where the key holds a save changes nothing, or is a write that went through. -/
theorem saveIdentity_keeps {save : WriteUse} {e : ZiaEngine} {d d' : Device} {ok : Bool}
    (hkey : KeyHolds save.keyStore d) (h : saveIdentity S save e d = some (ok, d')) :
    d' = d ∨ Writable save d ∧ d'.masterKey = d.masterKey := by
  unfold saveIdentity at h
  split at h
  · obtain ⟨_, rfl⟩ := Prod.mk.inj (Option.some.inj h)
    exact Or.inl rfl
  rename_i hpath
  cases hmaster : masterKey save.keyStore d with
  | mk key d₁ =>
    cases key with
    | none =>
      have hd₁ := masterKey_holds hkey
      rw [hmaster] at hd₁
      simp only [writeKey, hmaster] at h
      obtain ⟨_, rfl⟩ := Prod.mk.inj (Option.some.inj h)
      exact Or.inl hd₁
    | some key =>
      obtain ⟨rfl, hloaded, hsome⟩ := masterKey_some hkey hmaster
      cases hdir : save.directory with
      | false =>
        simp only [writeKey, hmaster, hdir, if_neg Bool.false_ne_true] at h
        obtain ⟨_, rfl⟩ := Prod.mk.inj (Option.some.inj h)
        exact Or.inl rfl
      | true =>
        simp only [writeKey, hmaster, hdir, if_pos] at h
        obtain ⟨plain, _, hrest⟩ := Option.bind_eq_some_iff.mp h
        split at hrest
        · obtain ⟨_, rfl⟩ := Prod.mk.inj (Option.some.inj hrest)
          exact Or.inl rfl
        · rename_i file hfile
          obtain ⟨_, rfl⟩ := Prod.mk.inj (Option.some.inj hrest)
          obtain ⟨header, hheader, hwritten, _⟩ := writtenFile_eq_some hfile
          exact Or.inr ⟨⟨by simpa using hpath, hloaded, hsome, hdir, by rw [hheader]; rfl, hwritten⟩,
            rfl⟩

/-- A start touches nothing where the key holds. -/
theorem ziaEngineInit_keeps {use : ReadUse} {d : Device}
    (hkey : HasFiles d → KeyHolds use.keyStore d) : (ziaEngineInit S use d).device = d := by
  have hread : (sealedRead S use d.identityFile d).2 = d := by
    unfold sealedRead
    cases hfile : d.identityFile with
    | none => rfl
    | some raw =>
      have hd := masterKey_holds (hkey (Or.inl (by rw [hfile]; rfl)))
      dsimp only
      split
      · rfl
      split
      · rfl
      cases hmaster : masterKey use.keyStore d with
      | mk key d₁ =>
        rw [hmaster] at hd
        cases key <;> exact hd
  unfold ziaEngineInit loadIdentity
  split
  · rfl
  cases hsealed : sealedRead S use d.identityFile d with
  | mk plain d₁ =>
    rw [hsealed] at hread
    cases plain <;> exact hread

/-! ## Every step -/

/-- What a step other than a start does to the device is one save, or nothing. -/
theorem StoreStep.apply_device {c : StoreStep} {save : WriteUse} (hwrite : c.write = some save)
    {h h' : Host} (hstep : c.apply S X h = some h') :
    h'.device = h.device ∨ ∃ e ok, saveIdentity S save e h.device = some (ok, h'.device) := by
  cases c with
  | restart use => cases hwrite
  | identityGenerate save' seed =>
    obtain rfl := Option.some.inj hwrite
    obtain ⟨⟨rc, _⟩, hcall, rfl⟩ := Option.map_eq_some_iff.mp hstep
    rcases ziaIdentityGenerate_cases hcall with ⟨_, rfl⟩ | ⟨e, ok, d, _, _, hsave, rfl⟩
    · exact Or.inl rfl
    · exact Or.inr ⟨e, ok, hsave⟩
  | rotate env =>
    obtain rfl := Option.some.inj hwrite
    obtain ⟨⟨rc, _⟩, hcall, rfl⟩ := Option.map_eq_some_iff.mp hstep
    rcases ziaPrekeyBundleRotate_cases hcall with
      ⟨_, _, rfl⟩ | ⟨_, e, _, _, _, ⟨_, _, rfl⟩ | ⟨_, ok, d, _, _, hsave, rfl⟩⟩
    · exact Or.inl rfl
    · exact Or.inl rfl
    · exact Or.inr ⟨_, ok, hsave⟩
  | publishOneTime oneTime save' =>
    obtain rfl := Option.some.inj hwrite
    obtain ⟨⟨ok, d⟩, hsave, hret⟩ := Option.bind_eq_some_iff.mp hstep
    obtain rfl := Option.some.inj hret
    exact Or.inr ⟨_, ok, hsave⟩
  | accept save' handshake =>
    obtain rfl := Option.some.inj hwrite
    obtain ⟨⟨rc, _⟩, hcall, rfl⟩ := Option.map_eq_some_iff.mp hstep
    rcases ziaSessionAcceptHandshake_cases hcall with
      ⟨_, _, rfl⟩ | ⟨_, _, _, _, _, ⟨_, rfl⟩ | ⟨_, e, ok, d, _, _, hsave, rfl⟩⟩
    · exact Or.inl rfl
    · exact Or.inl rfl
    · exact Or.inr ⟨e, ok, hsave⟩

/-- What was not loaded is there. -/
def Guarded.Inv (σ : Guarded) : Prop := σ.unloaded = true → σ.host.device.identityFile.isSome = true

theorem StoreStep.unloads_of_write {c : StoreStep} {save : WriteUse} (h : c.write = some save)
    (σ : Guarded) : c.unloads S σ = σ.unloaded := by
  cases c with
  | restart use => cases h
  | _ => rfl

theorem StoreStep.keyStore_of_write {c : StoreStep} {save : WriteUse} (h : c.write = some save) :
    c.keyStore = some save.keyStore := by
  cases c with
  | restart use => cases h
  | _ =>
    obtain rfl := Option.some.inj h
    rfl

theorem kept_of_safe {c : StoreStep} {σ σ' : Guarded} (hinv : σ.Inv) (hsafe : c.Safe σ)
    (hstep : Guarded.step S X c σ = some σ') : σ.Kept σ' ∧ σ'.Inv := by
  obtain ⟨h', happly, rfl⟩ := Option.map_eq_some_iff.mp hstep
  cases hwrite : c.write with
  | none =>
    cases c with
    | restart use =>
      obtain rfl := Option.some.inj happly
      have hdevice := ziaEngineInit_keeps (S := S) fun hfiles => hsafe.key hfiles _ rfl
      refine ⟨⟨fun _ => by rw [hdevice], fun _ => by rw [hdevice]⟩, ?_⟩
      intro hunloaded
      rw [hdevice]
      exact (Bool.and_eq_true_iff.mp hunloaded).1
    | identityGenerate => cases hwrite
    | rotate => cases hwrite
    | publishOneTime => cases hwrite
    | accept => cases hwrite
  | some save =>
    have hunloads := StoreStep.unloads_of_write (S := S) hwrite σ
    have hsame : σ.unloaded = true → h'.device.identityFile = σ.host.device.identityFile ∧
        h'.device.masterKey = σ.host.device.masterKey := by
      intro hunloaded
      rcases StoreStep.apply_device hwrite happly with hdevice | ⟨e, ok, hsave⟩
      · rw [hdevice]
        exact ⟨rfl, rfl⟩
      have hkey := hsafe.key (Or.inl (hinv hunloaded)) _ (StoreStep.keyStore_of_write hwrite)
      rcases saveIdentity_keeps hkey hsave with hdevice | ⟨hwritable, _⟩
      · rw [hdevice]
        exact ⟨rfl, rfl⟩
      · exact absurd hwritable (hsafe.file hunloaded _ hwrite)
    refine ⟨⟨fun hunloaded => (hsame hunloaded).1, fun hfiles => ?_⟩, ?_⟩
    · rcases StoreStep.apply_device hwrite happly with hdevice | ⟨e, ok, hsave⟩
      · exact congrArg (·.masterKey) hdevice
      have hkey := hsafe.key hfiles _ (StoreStep.keyStore_of_write hwrite)
      rcases saveIdentity_keeps hkey hsave with hdevice | ⟨_, hmaster⟩
      · exact congrArg (·.masterKey) hdevice
      · exact hmaster
    · intro hunloaded
      have hbefore : σ.unloaded = true := hunloads.symm.trans hunloaded
      exact (congrArg Option.isSome (hsame hbefore).1).trans (hinv hbefore)

/-- In every run from a folder with any content: as long as the key store does not
lose the key of the files, and no engine that came up without the identity file can
write, the file stays as it is and the key is not replaced. -/
theorem identityFile_kept (S : SecretStream) (X : EnginePrimitives) (d : Device)
    (steps : List StoreStep)
    (hsafe : Always (Guarded.step S X) StoreStep.Safe steps (.start d)) :
    Always (Guarded.step S X) (fun c σ => ∀ σ', Guarded.step S X c σ = some σ' → σ.Kept σ') steps
      (.start d) := by
  have hstart : (Guarded.start d).Inv := fun hunloaded => hunloaded
  refine always_of_invariant Guarded.Inv ?_ ?_ hstart hsafe
  · exact fun c σ σ' hinv hc hstep => (kept_of_safe hinv hc hstep).2
  · exact fun c σ hinv hc σ' hstep => (kept_of_safe hinv hc hstep).1

/-! ## A file that cannot be loaded -/

/-- A working device whose identity file was cut short. -/
def truncatedDevice : Device :=
  { servingHost.device with identityFile := servingHost.device.identityFile.map (·.take 60) }

/-- With a read-only folder the truncated file survives the identity generated
beside it. -/
theorem truncatedFile_kept :
    Always (Guarded.step namedStream symbolicHost)
      (fun c σ => ∀ σ', Guarded.step namedStream symbolicHost c σ = some σ' → σ.Kept σ')
      (openGateway workingRead failingWrite (symbolicSeed 6)) (.start truncatedDevice) := by
  refine identityFile_kept namedStream symbolicHost truncatedDevice _ ⟨?_, ?_⟩
  · refine ⟨fun _ use huse => ?_, fun _ save hsave => ?_⟩
    · obtain rfl := Option.some.inj huse
      exact Or.inl rfl
    · cases hsave
  · intro σ hσ
    obtain rfl := Option.some.inj hσ
    refine ⟨⟨fun _ use huse => ?_, fun _ save hsave => ?_⟩, fun _ _ => trivial⟩
    · obtain rfl := Option.some.inj huse
      exact Or.inl rfl
    · obtain rfl := Option.some.inj hsave
      rintro ⟨_, _, _, _, _, hwritten⟩
      cases hwritten

/-- The device of an engine whose key the key store cannot find any more. -/
def lostDevice : Device := { servingHost.device with masterKey := none }

/-- A key store that has nothing, and takes a new key. -/
def emptyKeyStore : KeyStoreUse := ⟨false, false, true, symbolicSeed 9⟩

/-- The key is replaced at the start, and the file by that of another identity. -/
theorem lostKey_replaced :
    lostDevice.identityFile.isSome = true ∧ lostDevice.masterKey = none ∧
    (run (Guarded.step namedStream symbolicHost)
      (openGateway ⟨emptyKeyStore, true⟩ workingWrite (symbolicSeed 6)) (.start lostDevice)).map
        (fun σ => (σ.unloaded, σ.host.device.masterKey,
          decide (σ.host.device.identityFile = lostDevice.identityFile))) =
      some (true, some (symbolicSeed 9), false) := by
  decide +kernel

end ZiaCrypte.Storage

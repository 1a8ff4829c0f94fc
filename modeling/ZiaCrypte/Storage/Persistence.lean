import ZiaCrypte.Storage.EngineCalls

/-!
# What a restart finds

A save that succeeds replaces the identity file by one that opens under its own
key only, and any other leaves it. What a later `zia_engine_init` can come up with
is then a matter of the file alone, whatever the key store answers.
-/
namespace ZiaCrypte.Storage

open ZiaCrypte.Lib ZiaCrypte.Engine

variable {S : SecretStream}

/-! ## The master key -/

theorem masterKey_frame (use : KeyStoreUse) (d : Device) :
    ∃ stored, (masterKey use d).2 = { d with masterKey := stored } := by
  unfold masterKey
  split
  · exact ⟨d.masterKey, rfl⟩
  split
  · exact ⟨_, rfl⟩
  · exact ⟨d.masterKey, rfl⟩

theorem writeKey_frame (use : WriteUse) (d : Device) :
    ∃ stored, (writeKey use d).2 = { d with masterKey := stored } := by
  obtain ⟨stored, hframe⟩ := masterKey_frame use.keyStore d
  unfold writeKey
  split
  · rename_i d' hkey
    exact ⟨stored, by rw [← hframe, hkey]⟩
  · rename_i key d' hkey
    exact ⟨stored, by rw [← hframe, hkey]⟩

/-! ## Files -/

theorem sealFile_eq_some {key : Key} {header : FixedBytes 24} {plain file : Bytes}
    (h : sealFile S key header plain = some file) :
    ∃ c, S.push key header.bytes plain = some c ∧ file = header.bytes ++ c := by
  obtain ⟨c, hpush, rfl⟩ := Option.map_eq_some_iff.mp h
  exact ⟨c, hpush, rfl⟩

/-- A sealed file opens to what was sealed, under the key it was sealed with. -/
theorem openFile_sealFile (hS : S.Sound) {key : Key} {header : FixedBytes 24}
    {plain file : Bytes} (h : sealFile S key header plain = some file) :
    openFile S key file = some plain := by
  obtain ⟨c, hpush, rfl⟩ := sealFile_eq_some h
  have htake : (header.bytes ++ c).take streamHeaderBytes = header.bytes :=
    List.take_left' header.length_bytes
  have hdrop : (header.bytes ++ c).drop streamHeaderBytes = c :=
    List.drop_left' header.length_bytes
  rw [openFile, htake, hdrop, hS.pull _ _ _ _ hpush, Option.map_some]

/-- And under no other key. -/
theorem openFile_sealFile_key (hS : S.Sound) {key key' : Key} {header : FixedBytes 24}
    {plain plain' file : Bytes} (h : sealFile S key header plain = some file)
    (hopen : openFile S key' file = some plain') : key' = key ∧ plain' = plain := by
  have hsame : key' = key := by
    obtain ⟨c, hpush, rfl⟩ := sealFile_eq_some h
    have htake : (header.bytes ++ c).take streamHeaderBytes = header.bytes :=
      List.take_left' header.length_bytes
    have hdrop : (header.bytes ++ c).drop streamHeaderBytes = c :=
      List.drop_left' header.length_bytes
    rw [openFile, htake, hdrop] at hopen
    obtain ⟨r, hpull, _⟩ := Option.map_eq_some_iff.mp hopen
    exact hS.binds _ _ _ _ _ _ hpush hpull
  subst hsame
  rw [openFile_sealFile hS h] at hopen
  exact ⟨rfl, (Option.some.inj hopen).symm⟩

theorem sealFile_length (hS : S.Sound) {key : Key} {header : FixedBytes 24} {plain file : Bytes}
    (h : sealFile S key header plain = some file) : minFileBytes ≤ file.length := by
  obtain ⟨c, hpush, rfl⟩ := sealFile_eq_some h
  rw [List.length_append, header.length_bytes, hS.length _ _ _ _ hpush]
  simp only [minFileBytes, streamHeaderBytes]
  omega

theorem writtenFile_eq_some {use : WriteUse} {key : Key} {plain file : Bytes}
    (h : writtenFile S use key plain = some file) :
    ∃ header, use.header = some header ∧ use.written = true ∧
      sealFile S key header plain = some file := by
  unfold writtenFile at h
  split at h
  · cases h
  rename_i header hheader
  split at h
  · cases h
  rename_i sealed hseal
  split at h
  · rename_i hwritten
    exact ⟨header, hheader, hwritten, by rw [hseal, ← h]⟩
  · cases h

/-! ## Saving and loading -/

/-- A save keeps everything but the master key, or puts a sealed file in place. -/
theorem saveIdentity_cases {use : WriteUse} {e : ZiaEngine} {d d' : Device} {ok : Bool}
    (h : saveIdentity S use e d = some (ok, d')) :
    ∃ stored, (ok = false ∧ d' = { d with masterKey := stored }) ∨
      ∃ key header plain file, ok = true ∧ serializeIdentity e = some plain ∧
        sealFile S key header plain = some file ∧
        d' = { d with masterKey := stored, identityFile := some file } := by
  unfold saveIdentity at h
  split at h
  · obtain ⟨rfl, rfl⟩ := Prod.mk.inj (Option.some.inj h)
    exact ⟨d.masterKey, Or.inl ⟨rfl, rfl⟩⟩
  obtain ⟨stored, hframe⟩ := writeKey_frame use d
  refine ⟨stored, ?_⟩
  split at h
  · rename_i d₁ hkey
    obtain ⟨rfl, rfl⟩ := Prod.mk.inj (Option.some.inj h)
    exact Or.inl ⟨rfl, by rw [← hframe, hkey]⟩
  · rename_i key d₁ hkey
    obtain ⟨plain, hplain, hrest⟩ := Option.bind_eq_some_iff.mp h
    have hd₁ : d₁ = { d with masterKey := stored } := by rw [← hframe, hkey]
    split at hrest
    · obtain ⟨rfl, rfl⟩ := Prod.mk.inj (Option.some.inj hrest)
      exact Or.inl ⟨rfl, hd₁⟩
    · rename_i file hfile
      obtain ⟨rfl, rfl⟩ := Prod.mk.inj (Option.some.inj hrest)
      obtain ⟨header, _, _, hseal⟩ := writtenFile_eq_some hfile
      exact Or.inr ⟨key, header, plain, _, rfl, hplain, hseal, by rw [hd₁]⟩

theorem saveIdentity_vault {use : WriteUse} {e : ZiaEngine} {d d' : Device} {ok : Bool}
    (h : saveIdentity S use e d = some (ok, d')) : d'.vault = d.vault := by
  obtain ⟨stored, ⟨_, rfl⟩ | ⟨_, _, _, _, _, _, _, rfl⟩⟩ := saveIdentity_cases h
  · rfl
  · rfl

/-- A save returns, whether it succeeds or not. -/
theorem saveIdentity_returns {e : ZiaEngine} (h : e.KeyPresent) (use : WriteUse) (d : Device) :
    ∃ ok d', saveIdentity S use e d = some (ok, d') := by
  obtain ⟨data, hdata⟩ := serializeIdentity_isSome h
  unfold saveIdentity
  split
  · exact ⟨_, _, rfl⟩
  · split
    · exact ⟨_, _, rfl⟩
    · rw [hdata, Option.bind_eq_bind, Option.bind_some]
      split
      · exact ⟨_, _, rfl⟩
      · exact ⟨_, _, rfl⟩

theorem sealedRead_cases {use : ReadUse} {file plain : Option Bytes} {d d' : Device}
    (h : sealedRead S use file d = (plain, d')) :
    ∃ stored, d' = { d with masterKey := stored } ∧
      ∀ p, plain = some p → ∃ raw key, file = some raw ∧ openFile S key raw = some p := by
  unfold sealedRead at h
  split at h
  · obtain ⟨rfl, rfl⟩ := Prod.mk.inj h
    exact ⟨d.masterKey, rfl, fun p hp => by cases hp⟩
  rename_i raw
  split at h
  · obtain ⟨rfl, rfl⟩ := Prod.mk.inj h
    exact ⟨d.masterKey, rfl, fun p hp => by cases hp⟩
  split at h
  · obtain ⟨rfl, rfl⟩ := Prod.mk.inj h
    exact ⟨d.masterKey, rfl, fun p hp => by cases hp⟩
  obtain ⟨stored, hframe⟩ := masterKey_frame use.keyStore d
  refine ⟨stored, ?_⟩
  split at h
  · rename_i d₁ hkey
    obtain ⟨rfl, rfl⟩ := Prod.mk.inj h
    exact ⟨by rw [← hframe, hkey], fun p hp => by cases hp⟩
  · rename_i key d₁ hkey
    obtain ⟨rfl, rfl⟩ := Prod.mk.inj h
    exact ⟨by rw [← hframe, hkey], fun p hp => ⟨raw, key, rfl, hp⟩⟩

/-- The engines a start on the device can come up with. -/
def Loadable (S : SecretStream) (d : Device) (e : ZiaEngine) : Prop :=
  e = .new ∨ ∃ raw key plain, d.hasPath = true ∧ d.identityFile = some raw ∧
    openFile S key raw = some plain ∧ e = (deserializeIdentity plain .new).2

theorem ziaEngineInit_loads (use : ReadUse) (d : Device) :
    Loadable S d (ziaEngineInit S use d).engine ∧
      ∃ stored, (ziaEngineInit S use d).device = { d with masterKey := stored } := by
  unfold ziaEngineInit loadIdentity
  split
  · exact ⟨Or.inl rfl, d.masterKey, rfl⟩
  rename_i hpath
  split
  · rename_i d' hread
    obtain ⟨stored, hd', _⟩ := sealedRead_cases hread
    exact ⟨Or.inl rfl, stored, hd'⟩
  · rename_i plain d' hread
    obtain ⟨stored, hd', hfile⟩ := sealedRead_cases hread
    obtain ⟨raw, key, hraw, hopen⟩ := hfile plain rfl
    exact ⟨Or.inr ⟨raw, key, plain, by simpa using hpath, hraw, hopen, rfl⟩, stored, hd'⟩

/-- What holds of every engine the identity file can be read as. -/
def FileHolds (S : SecretStream) (P : ZiaEngine → Prop) (d : Device) : Prop :=
  ∀ raw key plain, d.identityFile = some raw → openFile S key raw = some plain →
    P (deserializeIdentity plain .new).2

theorem FileHolds.masterKey {P : ZiaEngine → Prop} {d : Device} (h : FileHolds S P d)
    (stored : Option Key) : FileHolds S P { d with masterKey := stored } := h

theorem FileHolds.imp {P Q : ZiaEngine → Prop} {d : Device} (h : FileHolds S P d)
    (himp : ∀ e, P e → Q e) : FileHolds S Q d :=
  fun raw key plain hraw hopen => himp _ (h raw key plain hraw hopen)

/-- A save that succeeds leaves nothing but the engine saved. -/
theorem fileHolds_saved (hS : S.Sound) {P : ZiaEngine → Prop} {use : WriteUse} {e : ZiaEngine}
    {d d' : Device} (hsave : saveIdentity S use e d = some (true, d'))
    (he : P (e.announced.restoredInto .new)) : FileHolds S P d' := by
  obtain ⟨stored, ⟨hok, _⟩ | ⟨key, header, plain, file, _, hplain, hseal, rfl⟩⟩ :=
    saveIdentity_cases hsave
  · cases hok
  · intro raw key' plain' hraw hopen
    obtain rfl := Option.some.inj hraw
    obtain ⟨_, rfl⟩ := openFile_sealFile_key hS hseal hopen
    rw [deserializeIdentity_serialized hplain]
    exact he

/-- A save that fails leaves the file. -/
theorem FileHolds.unsaved {P : ZiaEngine → Prop} {use : WriteUse} {e : ZiaEngine}
    {d d' : Device} (h : FileHolds S P d) (hsave : saveIdentity S use e d = some (false, d')) :
    FileHolds S P d' := by
  obtain ⟨stored, ⟨_, rfl⟩ | ⟨_, _, _, _, hok, _⟩⟩ := saveIdentity_cases hsave
  · exact h.masterKey stored
  · cases hok

/-- What holds of every engine a start on the device can come up with. -/
def FileInv (S : SecretStream) (P : ZiaEngine → Prop) (d : Device) : Prop :=
  ∀ e, Loadable S d e → P e

theorem FileInv.masterKey {P : ZiaEngine → Prop} {d : Device} (h : FileInv S P d)
    (stored : Option Key) : FileInv S P { d with masterKey := stored } := h

theorem FileHolds.fileInv {P : ZiaEngine → Prop} {d : Device} (hnew : P .new)
    (h : FileHolds S P d) : FileInv S P d := by
  rintro e (rfl | ⟨raw, key, plain, _, hraw, hopen, rfl⟩)
  · exact hnew
  · exact h raw key plain hraw hopen

/-- When the save succeeds the file holds nothing but the engine saved. -/
theorem FileInv.saved (hS : S.Sound) {P : ZiaEngine → Prop} {use : WriteUse} {e : ZiaEngine}
    {d d' : Device} (hnew : P .new) (hsave : saveIdentity S use e d = some (true, d'))
    (he : P (e.announced.restoredInto .new)) : FileInv S P d' :=
  (fileHolds_saved hS hsave he).fileInv hnew

/-- After a save the file holds the old engine or the one saved. -/
theorem FileInv.save (hS : S.Sound) {P : ZiaEngine → Prop} {use : WriteUse} {e : ZiaEngine}
    {d d' : Device} {ok : Bool} (h : FileInv S P d)
    (hsave : saveIdentity S use e d = some (ok, d'))
    (he : P (e.announced.restoredInto .new)) : FileInv S P d' := by
  cases ok with
  | true => exact FileInv.saved hS (h _ (Or.inl rfl)) hsave he
  | false =>
    obtain ⟨stored, ⟨_, rfl⟩ | ⟨_, _, _, _, hok, _⟩⟩ := saveIdentity_cases hsave
    · exact h.masterKey stored
    · cases hok

end ZiaCrypte.Storage

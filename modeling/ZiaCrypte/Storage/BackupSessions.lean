import ZiaCrypte.Storage.BackupRoundTrip
import ZiaCrypte.Storage.SessionVault

/-!
# The sessions in a backup

The backup carries the entries of the vault as `secure_read` gives them, and a
session in one of them is still sealed under the master key of the device that
saved it. A device with another key restores none.
-/
namespace ZiaCrypte.Storage

open ZiaCrypte.Lib ZiaCrypte.Engine ZiaCrypte.Inbox

variable {S : SecretStream} {pwhash : Bytes → FixedBytes 16 → UInt64 → UInt64 → Key}

/-! ## The keys of a device -/

/-- The key the device holds, if any, is one of `K`. -/
def Device.KeysIn (K : Key → Prop) (d : Device) : Prop := ∀ key, d.masterKey = some key → K key

theorem masterKey_keysIn {K : Key → Prop} {use : KeyStoreUse} {d : Device} (hd : d.KeysIn K)
    (huse : K use.fresh) :
    (∀ key, (masterKey use d).1 = some key → K key) ∧ (masterKey use d).2.KeysIn K := by
  unfold masterKey
  split
  · refine ⟨fun key hkey => ?_, hd⟩
    split at hkey
    · exact hd key hkey
    · cases hkey
  split
  · constructor
    · intro key hkey
      rw [← Option.some.inj hkey]
      exact huse
    · intro key hkey
      rw [← Option.some.inj hkey]
      exact huse
  · exact ⟨fun key hkey => (by cases hkey), hd⟩

theorem writeKey_keysIn {K : Key → Prop} {use : WriteUse} {d : Device} (hd : d.KeysIn K)
    (huse : K use.keyStore.fresh) : (writeKey use d).2.KeysIn K := by
  have hmaster := (masterKey_keysIn hd huse).2
  unfold writeKey
  split
  · rename_i d' hkey
    rwa [hkey] at hmaster
  · rename_i key d' hkey
    rwa [hkey] at hmaster

theorem secureWrite_keysIn {K : Key → Prop} {use : WriteUse} {d : Device} (hd : d.KeysIn K)
    (huse : K use.keyStore.fresh) (name data : Bytes) : (secureWrite S use name data d).2.KeysIn K := by
  have hwrite := writeKey_keysIn hd huse
  unfold secureWrite
  split
  · exact hd
  split
  · rename_i d' hkey
    rwa [hkey] at hwrite
  · rename_i key d' hkey
    rw [hkey] at hwrite
    split
    · exact hwrite
    · exact hwrite

theorem secureRead_keysIn {K : Key → Prop} {use : ReadUse} {d : Device} (hd : d.KeysIn K)
    (huse : K use.keyStore.fresh) (name : Bytes) : (secureRead S use name d).2.KeysIn K := by
  have hmaster := (masterKey_keysIn hd huse).2
  unfold secureRead sealedRead
  split
  · exact hd
  split
  · exact hd
  split
  · exact hd
  split
  · exact hd
  split
  · rename_i d' hkey
    rwa [hkey] at hmaster
  · rename_i key d' hkey
    rwa [hkey] at hmaster

theorem saveIdentity_keysIn {K : Key → Prop} {use : WriteUse} {e : ZiaEngine} {d d' : Device}
    {ok : Bool} (hd : d.KeysIn K) (huse : K use.keyStore.fresh)
    (h : saveIdentity S use e d = some (ok, d')) : d'.KeysIn K := by
  have hwrite := writeKey_keysIn hd huse
  unfold saveIdentity at h
  split at h
  · obtain ⟨_, rfl⟩ := Prod.mk.inj (Option.some.inj h)
    exact hd
  split at h
  · rename_i d₁ hkey
    obtain ⟨_, rfl⟩ := Prod.mk.inj (Option.some.inj h)
    rwa [hkey] at hwrite
  · rename_i key d₁ hkey
    rw [hkey] at hwrite
    obtain ⟨plain, _, hrest⟩ := Option.bind_eq_some_iff.mp h
    split at hrest
    · obtain ⟨_, rfl⟩ := Prod.mk.inj (Option.some.inj hrest)
      exact hwrite
    · obtain ⟨_, rfl⟩ := Prod.mk.inj (Option.some.inj hrest)
      exact hwrite

theorem secureRead_frame (use : ReadUse) (name : Bytes) (d : Device) :
    ∃ stored, (secureRead S use name d).2 = { d with masterKey := stored } := by
  unfold secureRead
  split
  · exact ⟨d.masterKey, rfl⟩
  · obtain ⟨stored, hframe, _⟩ := sealedRead_cases
      (rfl : sealedRead S use (d.vault.get? (vaultFile name)) d = (_, _))
    exact ⟨stored, hframe⟩

/-! ## A session on the device that saves it -/

/-- A blob sealed under one of the keys. -/
def SealedUnder (S : SecretStream) (K : Key → Prop) (blob : Bytes) : Prop :=
  ∃ key header plain, K key ∧ sealFile S key header plain = some blob

theorem ziaSessionSerialize_sealed {K : Key → Prop} {masterKey : Option Key}
    {header : Option (FixedBytes 24)} {alloc : Bool} {s : RatchetSession} {blob : Bytes}
    (hkey : ∀ key, masterKey = some key → K key)
    (h : ziaSessionSerialize (storeEnv S masterKey header alloc) s = some (.ok blob)) :
    SealedUnder S K blob := by
  unfold ziaSessionSerialize storeEnv at h
  dsimp only at h
  split at h
  · cases h
  rename_i key
  obtain ⟨plain, _, hrest⟩ := Option.bind_eq_some_iff.mp h
  split at hrest
  · cases hrest
  rename_i header
  split at hrest
  · cases hrest
  split at hrest
  · cases hrest
  rename_i c hpush
  obtain rfl := Except.ok.inj (Option.some.inj hrest)
  exact ⟨key, header, plain, hkey key rfl, by rw [sealFile, hpush, Option.map_some]⟩

/-- A vault entry that holds such a blob. -/
def SessionEntry (S : SecretStream) (K : Key → Prop) (d : Device) (name : Bytes) : Prop :=
  ∃ raw outer header blob, d.vault.get? (vaultFile name) = some raw ∧
    sealFile S outer header blob = some raw ∧ SealedUnder S K blob

theorem SessionEntry.of_vault {K : Key → Prop} {d d' : Device} {name : Bytes}
    (h : SessionEntry S K d name) (hvault : d'.vault = d.vault) : SessionEntry S K d' name := by
  obtain ⟨raw, outer, header, blob, hraw, hrest⟩ := h
  exact ⟨raw, outer, header, blob, by rw [hvault, hraw], hrest⟩

theorem secureWrite_sessionEntry {K : Key → Prop} {use : WriteUse} {name blob : Bytes} {d : Device}
    (hblob : SealedUnder S K blob) (hok : (secureWrite S use name blob d).1 = true) :
    SessionEntry S K (secureWrite S use name blob d).2 name := by
  obtain ⟨key, header, raw, _, hseal, hraw⟩ := secureWrite_written hok
  exact ⟨raw, key, header, blob, hraw, hseal, hblob⟩

/-- A session entry gives way to another only. -/
theorem SessionEntry.write {K : Key → Prop} {d : Device} {name : Bytes}
    (h : SessionEntry S K d name) (use : WriteUse) (name' : Bytes) {blob : Bytes}
    (hblob : SealedUnder S K blob) : SessionEntry S K (secureWrite S use name' blob d).2 name := by
  rcases secureWrite_file S use name' blob d (vaultFile name) with
    hsame | ⟨key, header, raw, _, _, hseal, hraw⟩
  · obtain ⟨raw, outer, header, blob', hraw, hrest⟩ := h
    exact ⟨raw, outer, header, blob', by rw [hsame, hraw], hrest⟩
  · exact ⟨raw, key, header, blob, hraw, hseal, hblob⟩

/-- Everything saved is in such an entry. -/
structure SavedInv (S : SecretStream) (K : Key → Prop) (saved : SavedSessions) (d : Device) : Prop where
  keys : d.KeysIn K
  entries : ∀ id device s, saved.get? (id, device) = some s → SessionEntry S K d (sessionKey id device)

theorem saveSession_inv {K : Key → Prop} {saved : SavedSessions} {d d' : Device}
    {use : SaveUse} {id device : Text} {s : RatchetSession} {ok : Bool} (h : SavedInv S K saved d)
    (hfresh : K use.keyStore.fresh) (hwrite : K use.write.keyStore.fresh)
    (hsave : saveSession S use id device s d = some (ok, d')) :
    SavedInv S K saved d' ∧ (ok = true → SessionEntry S K d' (sessionKey id device)) := by
  obtain ⟨hkeys, hmaster⟩ := masterKey_keysIn h.keys hfresh
  obtain ⟨stored, hframe⟩ := masterKey_frame use.keyStore d
  have hvault : (masterKey use.keyStore d).2.vault = d.vault := by rw [hframe]
  unfold saveSession at hsave
  dsimp only at hsave
  split at hsave
  · cases hsave
  · obtain ⟨rfl, rfl⟩ := Prod.mk.inj (Option.some.inj hsave)
    exact ⟨⟨hmaster, fun id' device' s' hs' => (h.entries id' device' s' hs').of_vault hvault⟩,
      fun hok => absurd hok Bool.false_ne_true⟩
  · rename_i blob hblob
    have hsealed := ziaSessionSerialize_sealed hkeys hblob
    have hpair := Option.some.inj hsave
    obtain rfl : (secureWrite S use.write (sessionKey id device) blob
        (masterKey use.keyStore d).2).2 = d' := by rw [hpair]
    refine ⟨⟨secureWrite_keysIn hmaster hwrite _ _, fun id' device' s' hs' => ?_⟩, fun hok => ?_⟩
    · exact ((h.entries id' device' s' hs').of_vault hvault).write use.write _ hsealed
    · exact secureWrite_sessionEntry hsealed (by rw [hpair, hok])

theorem saveEntries_inv {K : Key → Prop} {use : Text → SaveUse} {id : Text}
    (huse : ∀ device, K (use device).keyStore.fresh ∧ K (use device).write.keyStore.fresh)
    {entries : List (Text × RatchetSession)} {saved saved' : SavedSessions} {d d' : Device}
    (h : SavedInv S K saved d) (hsave : saveEntries S use id entries saved d = some (saved', d')) :
    SavedInv S K saved' d' := by
  induction entries generalizing saved d with
  | nil =>
    obtain ⟨rfl, rfl⟩ := Prod.mk.inj (Option.some.inj hsave)
    exact h
  | cons entry entries ih =>
    obtain ⟨device, s⟩ := entry
    unfold saveEntries at hsave
    split at hsave
    · cases hsave
    · rename_i d₁ hround
      obtain ⟨hinv, hentry⟩ := saveSession_inv h (huse device).1 (huse device).2 hround
      refine ih ⟨hinv.keys, fun id' device' s' hs' => ?_⟩ hsave
      rw [LinkedMap.get?_insert] at hs'
      split at hs'
      · rename_i hkey
        obtain ⟨rfl, rfl⟩ := Prod.mk.inj hkey
        exact hentry rfl
      · exact hinv.entries id' device' s' hs'
    · rename_i d₁ hround
      exact ih (saveSession_inv h (huse device).1 (huse device).2 hround).1 hsave

theorem saveCalls_inv {K : Key → Prop} {calls : List ((Text → SaveUse) × ConversationSessions)}
    (hcalls : ∀ call ∈ calls, ∀ device,
      K (call.1 device).keyStore.fresh ∧ K (call.1 device).write.keyStore.fresh)
    {saved saved' : SavedSessions} {d d' : Device} (h : SavedInv S K saved d)
    (hsave : saveCalls S calls saved d = some (saved', d')) : SavedInv S K saved' d' := by
  induction calls generalizing saved d with
  | nil =>
    obtain ⟨rfl, rfl⟩ := Prod.mk.inj (Option.some.inj hsave)
    exact h
  | cons call calls ih =>
    obtain ⟨r, hcall, hrest⟩ := Option.bind_eq_some_iff.mp hsave
    exact ih (fun c hc => hcalls c (List.mem_cons_of_mem _ hc))
      (saveEntries_inv (hcalls call List.mem_cons_self) h hcall) hrest

/-! ## Its way through the backup -/

theorem exportEntries_data {read : Bytes → ReadUse} {noms : List Bytes} {d : Device}
    {r : BackupRecord} (hr : r ∈ (exportEntries S read noms d).1) :
    ∃ raw key, d.vault.get? (vaultFile r.name) = some raw ∧ openFile S key raw = some r.data := by
  induction noms generalizing d with
  | nil => cases hr
  | cons nom noms ih =>
    obtain ⟨stored, hframe⟩ := secureRead_frame (S := S) (read nom) nom d
    unfold exportEntries at hr
    split at hr
    · rename_i d' hread
      rw [hread] at hframe
      obtain rfl : d' = { d with masterKey := stored } := hframe
      have hrest := ih hr
      exact hrest
    · rename_i data d' hread
      rw [hread] at hframe
      obtain rfl : d' = { d with masterKey := stored } := hframe
      rcases List.mem_cons.mp hr with rfl | hr
      · exact (secureRead_cases (by rw [hread])).2
      · have hrest := ih hr
        exact hrest

/-- The entry of a saved session comes out of the backup as the blob it holds. -/
theorem SessionEntry.exported (hS : S.Sound) {K : Key → Prop} {read : Bytes → ReadUse}
    {noms : List Bytes} {d : Device} {r : BackupRecord} (h : SessionEntry S K d r.name)
    (hr : r ∈ (exportEntries S read noms d).1) : SealedUnder S K r.data := by
  obtain ⟨raw, outer, header, blob, hraw, hseal, hblob⟩ := h
  obtain ⟨raw', key, hraw', hopen⟩ := exportEntries_data hr
  rw [hraw] at hraw'
  obtain rfl := Option.some.inj hraw'
  obtain ⟨_, hdata⟩ := openFile_sealFile_key hS hseal hopen
  rw [hdata]
  exact hblob

/-! ## On a device with other keys -/

/-- Under another key a sealed session is none. -/
theorem importSession_sealed (hS : S.Sound) {KX KY : Key → Prop} (hother : ∀ key, KX key → ¬ KY key)
    {use : RestoreUse} {blob : Bytes} {d : Device} (hblob : SealedUnder S KX blob)
    (hd : d.KeysIn KY) (huse : KY use.keyStore.fresh) :
    ∃ err, (importSession S use blob d).1 = .error err := by
  obtain ⟨key, header, plain, hkey, hseal⟩ := hblob
  unfold importSession
  split
  · exact ⟨_, rfl⟩
  dsimp only
  unfold ziaSessionDeserialize storeEnv
  split
  · exact ⟨_, rfl⟩
  dsimp only
  split
  · exact ⟨_, rfl⟩
  rename_i key' hkey'
  split
  · exact ⟨_, rfl⟩
  rename_i plain' hpull
  have hopen : openFile S key' blob = some plain' := hpull
  obtain ⟨rfl, _⟩ := openFile_sealFile_key hS hseal hopen
  exact absurd ((masterKey_keysIn hd huse).1 _ hkey') (hother _ hkey)

theorem importSession_frame (use : RestoreUse) (blob : Bytes) (d : Device) :
    (importSession S use blob d).2.vault = d.vault := by
  unfold importSession
  split
  · rfl
  · obtain ⟨stored, hframe⟩ := masterKey_frame use.keyStore d
    dsimp only
    rw [hframe]

theorem importSession_keysIn {K : Key → Prop} {use : RestoreUse} {d : Device} (hd : d.KeysIn K)
    (huse : K use.keyStore.fresh) (blob : Bytes) : (importSession S use blob d).2.KeysIn K := by
  unfold importSession
  split
  · exact hd
  · exact (masterKey_keysIn hd huse).2

theorem vaultRead_snd (use : RestoreUse) (name : Bytes) (d : Device) :
    (vaultRead S use name d).2 = (secureRead S use.read name d).2 := by
  unfold vaultRead
  split
  · rename_i d' hread
    rw [hread]
  · rename_i data d' hread
    rw [hread]

theorem vaultRead_some {use : RestoreUse} {name blob : Bytes} {d : Device}
    (h : (vaultRead S use name d).1 = .ok (some blob)) :
    (secureRead S use.read name d).1 = some blob := by
  unfold vaultRead at h
  split at h
  · cases h
  · rename_i data d' hread
    split at h
    · rw [hread, Option.some.inj (Except.ok.inj h)]
    · cases h

/-- On the new device: its own keys, and under the name of the session no file that
opens to anything but what another device sealed. -/
structure Foreign (S : SecretStream) (KX KY : Key → Prop) (name : Bytes) (d : Device) : Prop where
  keys : d.KeysIn KY
  sealed : ∀ raw key data, d.vault.get? (vaultFile name) = some raw →
    openFile S key raw = some data → SealedUnder S KX data

theorem vaultRead_foreign {KX KY : Key → Prop} {use : RestoreUse} (huse : KY use.read.keyStore.fresh)
    {name : Bytes} {d : Device} (h : Foreign S KX KY name d) (name' : Bytes) :
    Foreign S KX KY name (vaultRead S use name' d).2 := by
  obtain ⟨stored, hframe⟩ := secureRead_frame (S := S) use.read name' d
  rw [vaultRead_snd]
  refine ⟨secureRead_keysIn h.keys huse name', fun raw key data hraw hopen => ?_⟩
  rw [hframe] at hraw
  exact h.sealed raw key data hraw hopen

theorem importSession_foreign {KX KY : Key → Prop} {use : RestoreUse} (huse : KY use.keyStore.fresh)
    {name : Bytes} {d : Device} (h : Foreign S KX KY name d) (blob : Bytes) :
    Foreign S KX KY name (importSession S use blob d).2 := by
  refine ⟨importSession_keysIn h.keys huse blob, fun raw key data hraw hopen => ?_⟩
  rw [importSession_frame] at hraw
  exact h.sealed raw key data hraw hopen

/-- The keys that a use of the restore may make. -/
def RestoreUse.KeysIn (K : Key → Prop) (use : RestoreUse) : Prop :=
  K use.read.keyStore.fresh ∧ K use.keyStore.fresh

theorem restoreSession_foreign {KX KY : Key → Prop} {use : RestoreUse} (huse : use.KeysIn KY)
    {name : Bytes} {d : Device} (h : Foreign S KX KY name d) (id device : Text)
    (sessions : LinkedMap Text RatchetSession) :
    Foreign S KX KY name (restoreSession S use id device sessions d).2 := by
  have hread := vaultRead_foreign huse.1 h (sessionKey id device)
  unfold restoreSession
  split
  · exact h
  split
  · rename_i err d' hvault
    rwa [hvault] at hread
  · rename_i d' hvault
    rwa [hvault] at hread
  · rename_i blob d' hvault
    rw [hvault] at hread
    have himport := importSession_foreign huse.2 hread blob
    split
    · exact hread
    split
    · rename_i err d'' hsession
      rwa [hsession] at himport
    · rename_i s d'' hsession
      rwa [hsession] at himport

/-- No session comes back for the device of the name. -/
theorem restoreSession_none (hS : S.Sound) {KX KY : Key → Prop} (hother : ∀ key, KX key → ¬ KY key)
    {use : RestoreUse} (huse : use.KeysIn KY) {id device : Text} {d : Device}
    (h : Foreign S KX KY (sessionKey id device) d) (device' : Text)
    {sessions : LinkedMap Text RatchetSession} (hnone : sessions.get? device = none) :
    (restoreSession S use id device' sessions d).1.get? device = none := by
  have hread := vaultRead_foreign huse.1 h (sessionKey id device')
  unfold restoreSession
  split
  · exact hnone
  split
  · exact hnone
  · exact hnone
  · rename_i blob d' hvault
    split
    · exact hnone
    split
    · exact hnone
    · rename_i s d'' hsession
      by_cases hdevice : device = device'
      · subst hdevice
        have hblob : (vaultRead S use (sessionKey id device) d).1 = .ok (some blob) := by
          rw [hvault]
        obtain ⟨_, raw, key, hraw, hopen⟩ := secureRead_cases (vaultRead_some hblob)
        rw [hvault] at hread
        obtain ⟨err, herr⟩ := importSession_sealed hS hother (h.sealed raw key blob hraw hopen)
          hread.keys huse.2
        rw [hsession] at herr
        cases herr
      · rw [LinkedMap.get?_insert_ne _ _ hdevice, hnone]

theorem restoreSessions_foreign {KX KY : Key → Prop} {use : Text → RestoreUse}
    (huse : ∀ device, (use device).KeysIn KY) {name : Bytes} (id : Text) (devices : List Text)
    {sessions : LinkedMap Text RatchetSession} {d : Device} (h : Foreign S KX KY name d) :
    Foreign S KX KY name (restoreSessions S use id devices sessions d).2 := by
  induction devices generalizing sessions d with
  | nil => exact h
  | cons device devices ih => exact ih (restoreSession_foreign (huse device) h id device sessions)

theorem restoreSessions_none (hS : S.Sound) {KX KY : Key → Prop} (hother : ∀ key, KX key → ¬ KY key)
    {use : Text → RestoreUse} (huse : ∀ device, (use device).KeysIn KY) {id device : Text}
    (devices : List Text) {sessions : LinkedMap Text RatchetSession} {d : Device}
    (h : Foreign S KX KY (sessionKey id device) d) (hnone : sessions.get? device = none) :
    (restoreSessions S use id devices sessions d).1.get? device = none := by
  induction devices generalizing sessions d with
  | nil => exact hnone
  | cons device' devices ih =>
    exact ih (restoreSession_foreign (huse device') h id device' sessions)
      (restoreSession_none hS hother (huse device') h device' hnone)

/-- So no conversation of the client has it. -/
theorem restoreConversations_none (hS : S.Sound) {KX KY : Key → Prop}
    (hother : ∀ key, KX key → ¬ KY key) {use : Text → Text → RestoreUse}
    (huse : ∀ id device, (use id device).KeysIn KY) {id device : Text}
    {convs : List ConversationSessions} (hnew : ∀ c ∈ convs, c.sessions.get? device = none)
    {d : Device} (h : Foreign S KX KY (sessionKey id device) d) :
    ∀ c ∈ (restoreConversations S use convs d).1, c.id = id → c.sessions.get? device = none := by
  induction convs generalizing d with
  | nil =>
    intro c hc
    cases hc
  | cons conv convs ih =>
    intro c hc hid
    rcases List.mem_cons.mp hc with rfl | hc
    · obtain rfl : conv.id = id := hid
      exact restoreSessions_none hS hother (huse conv.id) conv.targetDeviceIds h
        (hnew conv List.mem_cons_self)
    · exact ih (fun c hc => hnew c (List.mem_cons_of_mem _ hc))
        (restoreSessions_foreign (huse conv.id) conv.id conv.targetDeviceIds h) c hc hid

/-! ## The import on the new device -/

/-- The keys that the uses of the import may make. -/
structure ImportEnv.KeysIn (K : Key → Prop) (imp : ImportEnv) : Prop where
  write : ∀ i, K (imp.write i).keyStore.fresh
  save : K imp.save.keyStore.fresh

theorem openBackup_derived {imp : ImportEnv} {passphrase data plain : Bytes}
    (h : openBackup S pwhash imp passphrase data = .ok plain) : imp.derived = true := by
  unfold openBackup at h
  split at h
  · cases h
  split at h
  · cases h
  split at h
  · cases h
  split at h
  · cases h
  · rename_i hderived
    simpa using hderived

theorem importPlain_keysIn {K : Key → Prop} {imp : ImportEnv} (himp : imp.KeysIn K) {plain : Bytes}
    {h : Host} (hd : h.device.KeysIn K) : (importPlain S imp plain h).host.device.KeysIn K := by
  refine importPlain_run (I := fun _ h => h.device.KeysIn K) imp plain h ?_ hd
  intro r _ i vue h' hd'
  obtain ⟨_, heq⟩ | ⟨_, heq⟩ | ⟨_, _, heq⟩ := importRecord_cases S (imp.write i) r vue h'
  · rw [heq]
    exact hd'
  · rw [heq]
    exact secureWrite_keysIn hd' (himp.write i) r.name r.data
  · rw [heq]
    exact hd'

/-- After the import the entry of a saved session is sealed under a foreign key. -/
theorem ziaBackupImport_foreign (hS : S.Sound) {KX KY : Key → Prop} {x x' : Host} {env : ExportEnv}
    {passphrase blob : Bytes}
    (hexport : ziaBackupExport S pwhash env passphrase x = some (.ok blob, x'))
    (hidentity : ∀ data, serializeIdentity x.engine = some data → data.length < UInt32.size)
    (hentries : ∀ r ∈ readEntries S env x.device, r.data.length < UInt32.size)
    {imp : ImportEnv} (himp : imp.KeysIn KY) {y y' : Host} (hy : y.device.KeysIn KY)
    (hempty : ∀ file, y.device.vault.get? file = none)
    (himport : ziaBackupImport S pwhash imp passphrase blob y = some (none, y'))
    {name : Bytes} (hsaved : SessionEntry S KX x.device name) : Foreign S KX KY name y'.device := by
  obtain ⟨identity, entries, hdata, hwritten, hseal⟩ := ziaBackupExport_ok hexport
  obtain ⟨plain, d, hopen, _, _, hsave, rfl⟩ := ziaBackupImport_ok himport
  have hplain := Except.ok.inj
    ((openBackup_sealBackup hS hseal (openBackup_derived hopen)).symm.trans hopen)
  refine ⟨saveIdentity_keysIn (importPlain_keysIn himp hy) himp.save hsave, ?_⟩
  -- What is parsed was exported.
  have hfits : ∀ r ∈ ⟨kKindIdentity, [], identity⟩ :: entries, r.Fits := by
    intro r hr
    rcases List.mem_cons.mp hr with rfl | hr
    · exact ⟨Nat.zero_lt_succ _, hidentity identity hdata⟩
    · rw [hwritten] at hr
      cases hlist : env.listable with
      | true =>
        rw [hlist] at hr
        exact exportEntries_fits hentries r hr
      | false =>
        rw [hlist] at hr
        cases hr
  have hfrom : ∀ r ∈ (parsedRecords plain).1, r.kind = kKindVault → r ∈ entries := by
    intro r hr hkind
    rw [← hplain, parsedRecords_backupPlain hfits] at hr
    rcases List.mem_cons.mp (List.mem_of_mem_take hr) with rfl | hr
    · cases hkind
    · exact hr
  have hopens := importPlain_opens hS
    (P := fun file data => ∃ r ∈ entries, file = vaultFile r.name ∧ data = r.data) imp plain
    (fun r hr hkind => ⟨r, hfrom r hr hkind, rfl, rfl⟩) hempty
  have hvault := saveIdentity_vault hsave
  intro raw key data hraw hopened
  rw [hvault] at hraw
  obtain ⟨r, hr, hfile, rfl⟩ := hopens _ raw key data hraw hopened
  rw [vaultFile_inj hfile] at hsaved
  rw [hwritten] at hr
  exact hsaved.exported hS hr

/-- Every session saved, as it was saved, in the conversation it was saved for. -/
def SessionsRestored (saved : SavedSessions) (convs : List ConversationSessions) : Prop :=
  ∀ id device s, saved.get? (id, device) = some s →
    ∃ c ∈ convs, c.id = id ∧ c.sessions.get? device = some (restored keyZero s)

/-- A client that saved its sessions under keys the other device has not gets them
back there exactly when it had saved none. -/
theorem sessions_restored_iff (hS : S.Sound) {KX KY : Key → Prop}
    (hother : ∀ key, KX key → ¬ KY key) {x : Host} (hx : x.device.KeysIn KX)
    {calls : List ((Text → SaveUse) × ConversationSessions)}
    (hcalls : ∀ call ∈ calls, ∀ device,
      KX (call.1 device).keyStore.fresh ∧ KX (call.1 device).write.keyStore.fresh)
    {saved : SavedSessions} {dx : Device}
    (hsaves : saveCalls S calls .empty x.device = some (saved, dx))
    {env : ExportEnv} {passphrase blob : Bytes} {x' : Host}
    (hexport : ziaBackupExport S pwhash env passphrase { x with device := dx } =
      some (.ok blob, x'))
    {imp : ImportEnv} (himp : imp.KeysIn KY) {y y' : Host} (hy : y.device.KeysIn KY)
    (hempty : ∀ file, y.device.vault.get? file = none)
    (himport : ziaBackupImport S pwhash imp passphrase blob y = some (none, y'))
    {use : Text → Text → RestoreUse} (huse : ∀ id device, (use id device).KeysIn KY)
    {convs : List ConversationSessions}
    (hnew : ∀ c ∈ convs, ∀ device, c.sessions.get? device = none) :
    ((∀ key, saved.get? key = none) →
      SessionsRestored saved (restoreConversations S use convs y'.device).1) ∧
    ((∀ data, serializeIdentity x.engine = some data → data.length < UInt32.size) →
      (∀ r ∈ readEntries S env dx, r.data.length < UInt32.size) →
      SessionsRestored saved (restoreConversations S use convs y'.device).1 →
      ∀ key, saved.get? key = none) := by
  constructor
  · intro hnone id device s hs
    rw [hnone] at hs
    cases hs
  · rintro hidentity hentries hrestored ⟨id, device⟩
    by_contra hsome
    obtain ⟨s, hs⟩ := Option.ne_none_iff_exists'.mp hsome
    have hinv := saveCalls_inv hcalls ⟨hx, fun _ _ _ hs => by cases hs⟩ hsaves
    have hforeign := ziaBackupImport_foreign hS hexport hidentity hentries himp hy hempty himport
      (hinv.entries id device s hs)
    obtain ⟨c, hc, hid, hsession⟩ := hrestored id device s hs
    rw [restoreConversations_none hS hother huse (fun c hc => hnew c hc device) hforeign c hc hid]
      at hsession
    cases hsession

/-! ## One session -/

def exporterKey : Key := FixedBytes.copy 32 [1] 0

def exporterWrite : WriteUse :=
  ⟨⟨true, true, true, exporterKey⟩, true, some (FixedBytes.zero 24), true⟩

def exporterSave : SaveUse :=
  ⟨⟨true, true, true, exporterKey⟩, some (FixedBytes.zero 24), true, exporterWrite⟩

def someSession : RatchetSession where
  ad := FixedBytes.zero 64
  dhsPublic := FixedBytes.zero 32
  dhsPrivate := keyZero
  hasDhr := false
  dhrPublic := FixedBytes.zero 32
  rootKey := keyZero
  hasSendChain := false
  sendChainKey := none
  hasRecvChain := false
  recvChainKey := none
  ns := 0
  nr := 0
  pn := 0
  skipped := []

def someConversation : ConversationSessions :=
  ⟨text "c", [text "d"], ⟨[(text "d", someSession)], 1⟩⟩

def exporterDevice : Device := { emptyDevice with masterKey := some exporterKey }

def someSave : Option (SavedSessions × Device) :=
  saveCalls namedStream [(fun _ => exporterSave, someConversation)] .empty exporterDevice

def sessionHost : Host := ⟨savedEngine, (someSave.getD (.empty, emptyDevice)).2⟩

def importSessionHost : Option (Option ZiaError × Host) :=
  ziaBackupImport namedStream symbolicPwhash workingImport symbolicPassphrase
    (exportedBackup sessionHost) freshHost

def restoreUse (_ _ : Text) : RestoreUse := ⟨workingRead, true, ⟨true, true, true, keyZero⟩⟩

def newConversation : ConversationSessions := { someConversation with sessions := .empty }

theorem someSession_lost : ∃ saved dx x' y',
    saveCalls namedStream [(fun _ => exporterSave, someConversation)] .empty exporterDevice =
      some (saved, dx) ∧
    ziaBackupExport namedStream symbolicPwhash workingExport symbolicPassphrase ⟨savedEngine, dx⟩ =
      some (.ok (exportedBackup sessionHost), x') ∧
    ziaBackupImport namedStream symbolicPwhash workingImport symbolicPassphrase
      (exportedBackup sessionHost) freshHost = some (none, y') ∧
    ¬ SessionsRestored saved
      (restoreConversations namedStream restoreUse [newConversation] y'.device).1 := by
  have hsome : someSave.map (fun r => r.1.get? (text "c", text "d")) = some (some someSession) := by
    decide +kernel
  obtain ⟨⟨saved, dx⟩, hsaves, hgot⟩ := Option.map_eq_some_iff.mp hsome
  have hhost : sessionHost = ⟨savedEngine, dx⟩ := by
    rw [sessionHost, hsaves]
    rfl
  have hblob : (ziaBackupExport namedStream symbolicPwhash workingExport symbolicPassphrase
      sessionHost).map (·.1) = some (.ok (exportedBackup sessionHost)) := by decide +kernel
  obtain ⟨⟨_, x'⟩, hexported, rfl⟩ := Option.map_eq_some_iff.mp hblob
  have hexport : ziaBackupExport namedStream symbolicPwhash workingExport symbolicPassphrase
      ⟨savedEngine, dx⟩ = some (.ok (exportedBackup sessionHost), x') := by
    rw [← hhost]
    exact hexported
  have hstatus : importSessionHost.map (·.1) = some none := by decide +kernel
  obtain ⟨⟨_, y'⟩, himport, rfl⟩ := Option.map_eq_some_iff.mp hstatus
  have hentries : ∀ r ∈ readEntries namedStream workingExport sessionHost.device,
      r.data.length < UInt32.size := by decide +kernel
  rw [hhost] at hentries
  refine ⟨saved, dx, x', y', hsaves, hexport, himport, fun hrestored => ?_⟩
  have hkeys : ∀ key, key = exporterKey → ¬ key = keyZero := by
    rintro key rfl
    decide
  have hx : exporterDevice.KeysIn (· = exporterKey) := fun key hkey => (Option.some.inj hkey).symm
  have hcalls : ∀ call ∈ [((fun _ => exporterSave : Text → SaveUse), someConversation)], ∀ device,
      (call.1 device).keyStore.fresh = exporterKey ∧
        (call.1 device).write.keyStore.fresh = exporterKey := by
    intro call hcall device
    rw [List.mem_singleton.mp hcall]
    exact ⟨rfl, rfl⟩
  have himp : workingImport.KeysIn (· = keyZero) := ⟨fun _ => rfl, rfl⟩
  have hy : freshHost.device.KeysIn (· = keyZero) := by
    intro key hkey
    cases hkey
  have huse : ∀ id device, (restoreUse id device).KeysIn (· = keyZero) := fun _ _ => ⟨rfl, rfl⟩
  have hnew : ∀ c ∈ [newConversation], ∀ device, c.sessions.get? device = none := by
    intro c hc device
    rw [List.mem_singleton.mp hc]
    rfl
  have hidentity : ∀ data, serializeIdentity savedEngine = some data → data.length < UInt32.size := by
    intro data hdata
    have hlen : (serializeIdentity savedEngine).map List.length = some 104 := by decide +kernel
    rw [hdata] at hlen
    rw [Option.some.inj hlen]
    decide
  have hnone := (sessions_restored_iff namedStream_sound hkeys (x := ⟨savedEngine, exporterDevice⟩)
    hx hcalls hsaves hexport himp hy (fun _ => rfl) himport huse hnew).2 hidentity hentries hrestored
    (text "c", text "d")
  dsimp only at hgot
  rw [hnone] at hgot
  cases hgot

/-- The session is in the vault, the backup is imported, and it is gone. -/
theorem someSession_gone :
    (someSave.map fun r => r.1.get? (text "c", text "d")) = some (some someSession) ∧
    importSessionHost.map (fun r => r.1) = some none ∧
    (importSessionHost.map fun r => (restoreConversations namedStream restoreUse [newConversation]
      r.2.device).1.map (·.sessions.entries)) = some [[]] := by
  decide +kernel

end ZiaCrypte.Storage

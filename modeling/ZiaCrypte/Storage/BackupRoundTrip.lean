import Mathlib.Data.List.Dedup
import ZiaCrypte.Storage.BackupFormat
import ZiaCrypte.Storage.Symbolic
import ZiaCrypte.Storage.Vault

/-!
# A backup restored on another device

The export announces every file of the vault and writes the entries it could
read. The import goes by the count: it restores the backup exactly when the two
agree and every length fits its field.
-/
namespace ZiaCrypte.Storage

open ZiaCrypte.Lib ZiaCrypte.Engine

variable {S : SecretStream} {pwhash : Bytes → FixedBytes 16 → UInt64 → UInt64 → Key}

/-! ## What is exported -/

theorem ziaStem_eq_some {file stem : Bytes} (h : ziaStem file = some stem) :
    file = vaultFile stem := by
  unfold ziaStem at h
  dsimp only at h
  split at h
  · rename_i hstem
    rw [← Option.some.inj h]
    exact hstem.2
  · cases h

theorem vaultNames_nodup (d : Device) : (vaultNames d).Nodup := by
  have hstems : (d.vault.keys.dedup.filterMap ziaStem).Nodup := by
    refine List.Nodup.filterMap ?_ (List.nodup_dedup _)
    intro file file' stem hfile hfile'
    rw [ziaStem_eq_some hfile, ziaStem_eq_some hfile']
  exact (List.perm_insertionSort _ _).nodup_iff.mpr hstems

theorem exportEntries_names (read : Bytes → ReadUse) (noms : List Bytes) (d : Device) :
    ((exportEntries S read noms d).1.map (·.name)).Sublist noms := by
  induction noms generalizing d with
  | nil => exact List.Sublist.slnil
  | cons nom noms ih =>
    unfold exportEntries
    split
    · exact (ih _).cons nom
    · exact (ih _).cons_cons nom

theorem exportEntries_valid (read : Bytes → ReadUse) (noms : List Bytes) (d : Device) :
    ∀ r ∈ (exportEntries S read noms d).1, r.kind = kKindVault ∧ validName r.name = true := by
  induction noms generalizing d with
  | nil =>
    intro r hr
    cases hr
  | cons nom noms ih =>
    intro r hr
    unfold exportEntries at hr
    split at hr
    · exact ih _ r hr
    · rename_i data d' hread
      rcases List.mem_cons.mp hr with rfl | hr
      · have hdata : (secureRead S (read nom) nom d).1 = some data := by rw [hread]
        exact ⟨rfl, (secureRead_cases hdata).1⟩
      · exact ih _ r hr

/-- The entries of the vault that `secure_read` can read at the export. -/
def readEntries (S : SecretStream) (env : ExportEnv) (d : Device) : List BackupRecord :=
  (exportEntries S env.read (vaultNames d) d).1

/-! ## What the records do -/

/-- What each record keeps holds of the whole loop. -/
theorem applyRecords_run {I : Bool → Host → Prop} {rs : List BackupRecord}
    {imp : ImportEnv} (hstep : ∀ r ∈ rs, ∀ i vue h, I vue h →
      I (importRecord S (imp.write i) r vue h).identiteVue
        (importRecord S (imp.write i) r vue h).host)
    (i : Nat) (vue : Bool) (h : Host) (hI : I vue h) :
    I (applyRecords S imp rs i vue h).identiteVue (applyRecords S imp rs i vue h).host := by
  induction rs generalizing i vue h with
  | nil => exact hI
  | cons r rs ih =>
    have hfirst := hstep r List.mem_cons_self i vue h hI
    unfold applyRecords
    dsimp only
    split
    · exact ih (fun r hr => hstep r (List.mem_cons_of_mem _ hr)) (i + 1) _ _ hfirst
    · exact hfirst

/-- A record fills the engine, or writes one entry of the vault. -/
theorem importRecord_cases (S : SecretStream) (use : WriteUse) (r : BackupRecord) (vue : Bool)
    (h : Host) :
    (r.kind = kKindIdentity ∧ importRecord S use r vue h =
      ⟨(deserializeIdentity r.data h.engine).1, (deserializeIdentity r.data h.engine).1,
        { h with engine := (deserializeIdentity r.data h.engine).2 }⟩) ∨
    (r.kind = kKindVault ∧ importRecord S use r vue h =
      ⟨(secureWrite S use r.name r.data h.device).1, vue,
        { h with device := (secureWrite S use r.name r.data h.device).2 }⟩) ∨
    (r.kind ≠ kKindIdentity ∧ r.kind ≠ kKindVault ∧ importRecord S use r vue h = ⟨true, vue, h⟩) := by
  unfold importRecord
  by_cases hid : r.kind = kKindIdentity
  · exact Or.inl ⟨hid, by rw [if_pos (beq_iff_eq.mpr hid)]⟩
  by_cases hvault : r.kind = kKindVault
  · refine Or.inr (Or.inl ⟨hvault, ?_⟩)
    rw [if_neg (by simpa using hid), if_pos (beq_iff_eq.mpr hvault)]
  · refine Or.inr (Or.inr ⟨hid, hvault, ?_⟩)
    rw [if_neg (by simpa using hid), if_neg (by simpa using hvault)]

/-- Once an identity is seen, it is one that was accepted. -/
theorem importRecord_seen {use : WriteUse} {r : BackupRecord} {vue : Bool} {h : Host}
    (hseen : vue = true → h.engine.oneTimePrekeys.length < UInt32.size ∧ h.engine.KeyPresent)
    (hvue : (importRecord S use r vue h).identiteVue = true) :
    (importRecord S use r vue h).host.engine.oneTimePrekeys.length < UInt32.size ∧
      (importRecord S use r vue h).host.engine.KeyPresent := by
  obtain ⟨_, heq⟩ | ⟨_, heq⟩ | ⟨_, _, heq⟩ := importRecord_cases S use r vue h
  · rw [heq] at hvue ⊢
    obtain ⟨hkeyed, hlen⟩ := deserializeIdentity_accepted hvue
    exact ⟨hlen, fun hflag => hkeyed.2 (hkeyed.1 ▸ hflag)⟩
  · rw [heq] at hvue ⊢
    exact hseen hvue
  · rw [heq] at hvue ⊢
    exact hseen hvue

/-- Every file of the vault that opens is an entry with `P`. -/
def Device.Opens (S : SecretStream) (P : Bytes → Bytes → Prop) (d : Device) : Prop :=
  ∀ file raw key data, d.vault.get? file = some raw → openFile S key raw = some data →
    P file data

theorem importRecord_opens (hS : S.Sound) {P : Bytes → Bytes → Prop} {use : WriteUse}
    {r : BackupRecord} {vue : Bool} {h : Host} (hr : r.kind = kKindVault → P (vaultFile r.name) r.data)
    (hd : h.device.Opens S P) : (importRecord S use r vue h).host.device.Opens S P := by
  obtain ⟨_, heq⟩ | ⟨hkind, heq⟩ | ⟨_, _, heq⟩ := importRecord_cases S use r vue h
  · rw [heq]
    exact hd
  · rw [heq]
    intro file raw key data hraw hopen
    rcases secureWrite_file S use r.name r.data h.device file with
      hsame | ⟨key', header, raw', rfl, _, hseal, hnew⟩
    · rw [hsame] at hraw
      exact hd file raw key data hraw hopen
    · obtain rfl := Option.some.inj (hnew.symm.trans hraw)
      obtain ⟨_, rfl⟩ := openFile_sealFile_key hS hseal hopen
      exact hr hkind
  · rw [heq]
    exact hd

/-- Only the entries of the records are written. -/
theorem importRecord_others {use : WriteUse} {r : BackupRecord} {vue : Bool} {h : Host}
    {name : Bytes} (hname : r.kind = kKindVault → r.name ≠ name) :
    (importRecord S use r vue h).host.device.vault.get? (vaultFile name) =
      h.device.vault.get? (vaultFile name) := by
  obtain ⟨_, heq⟩ | ⟨hkind, heq⟩ | ⟨_, _, heq⟩ := importRecord_cases S use r vue h
  · rw [heq]
  · rw [heq]
    rcases secureWrite_file S use r.name r.data h.device (vaultFile name) with
      hsame | ⟨_, _, _, hfile, _⟩
    · exact hsame
    · exact absurd (vaultFile_inj hfile).symm (hname hkind)
  · rw [heq]

/-! ## Where everything works -/

/-- The entries of a backup, written on a device where nothing fails. -/
structure Written (S : SecretStream) (rs : List BackupRecord) (vue : Bool) (h : Host)
    (done : Imported) : Prop where
  ok : done.ok = true
  vue : done.identiteVue = vue
  engine : done.host.engine = h.engine
  ready : done.host.device.Ready S
  stores : ∀ r ∈ rs, done.host.device.Stores S r.name r.data
  keeps : ∀ name data, name ∉ rs.map (·.name) → h.device.Stores S name data →
    done.host.device.Stores S name data

theorem applyRecords_written (hS : S.Sound) {imp : ImportEnv} (himp : ∀ i, (imp.write i).Works S)
    {rs : List BackupRecord}
    (hvalid : ∀ r ∈ rs, r.kind = kKindVault ∧ validName r.name = true)
    (hnodup : (rs.map (·.name)).Nodup) (i : Nat) (vue : Bool) {h : Host}
    (hready : h.device.Ready S) : Written S rs vue h (applyRecords S imp rs i vue h) := by
  induction rs generalizing i h with
  | nil =>
    exact ⟨rfl, rfl, rfl, hready, fun r hr => absurd hr List.not_mem_nil, fun _ _ _ hstored => hstored⟩
  | cons r rs ih =>
    obtain ⟨hkind, hname⟩ := hvalid r List.mem_cons_self
    obtain ⟨hnot, htail⟩ := List.nodup_cons.mp hnodup
    obtain ⟨d', hwrite, hready', hstores, hkeeps⟩ :=
      secureWrite_works hS (himp i) hready hname r.data
    have hfirst : importRecord S (imp.write i) r vue h = ⟨true, vue, { h with device := d' }⟩ := by
      unfold importRecord
      rw [hkind, if_neg (by decide), if_pos (by decide), hwrite]
    have hrest := ih (fun r hr => hvalid r (List.mem_cons_of_mem _ hr)) htail (i + 1)
      (h := { h with device := d' }) hready'
    unfold applyRecords
    rw [hfirst]
    refine ⟨hrest.ok, hrest.vue, hrest.engine, hrest.ready, ?_, ?_⟩
    · intro r' hr'
      rcases List.mem_cons.mp hr' with rfl | hr'
      · exact hrest.keeps _ _ hnot hstores
      · exact hrest.stores r' hr'
    · intro name data hnew hstored
      rw [List.map_cons, List.mem_cons, not_or] at hnew
      exact hrest.keeps name data hnew.2 (hkeeps name data hnew.1 hstored)

/-- What an import meets on a platform where nothing fails. -/
structure ImportEnv.Works (S : SecretStream) (imp : ImportEnv) : Prop where
  derived : imp.derived = true
  write : ∀ i, (imp.write i).Works S
  save : imp.save.Works S

/-- An engine just made, on a device where a backup can be restored. -/
structure Host.Fresh (S : SecretStream) (h : Host) : Prop where
  engine : h.engine = .new
  vault : ∀ file, h.device.vault.get? file = none
  ready : h.device.Ready S

/-- The import accepts the backup, with the identity and the prekeys of `e` and
every entry. -/
def Restores (S : SecretStream) (pwhash : Bytes → FixedBytes 16 → UInt64 → UInt64 → Key)
    (imp : ImportEnv) (passphrase blob : Bytes) (e : ZiaEngine) (entries : List BackupRecord)
    (h : Host) : Prop :=
  ∃ h', ziaBackupImport S pwhash imp passphrase blob h = some (none, h') ∧
    h'.engine = e.restoredInto h.engine ∧
    ∀ r ∈ entries, h'.device.Reads S r.name r.data

/-! ## The two together -/

theorem oneTimePrekeys_length_le {e : ZiaEngine} {data : Bytes}
    (h : serializeIdentity e = some data) : e.oneTimePrekeys.length ≤ data.length := by
  obtain ⟨identity, _, hdata⟩ := Option.bind_eq_some_iff.mp h
  obtain rfl := Option.some.inj hdata
  have hflat : e.oneTimePrekeys.length ≤ (e.oneTimePrekeys.flatMap oneTimePrekeyBytes).length := by
    induction e.oneTimePrekeys with
    | nil => exact Nat.zero_le _
    | cons otpk otpks ih =>
      rw [List.flatMap_cons, List.length_append, List.length_cons]
      have hbytes : 1 ≤ (oneTimePrekeyBytes otpk).length := by
        simp [oneTimePrekeyBytes]
      omega
  simp only [oneTimePrekeysBytes, List.length_cons, List.length_append]
  omega

/-- An export that succeeds is a sealed list of the identity and the entries read. -/
theorem ziaBackupExport_ok {env : ExportEnv} {passphrase blob : Bytes} {h h' : Host}
    (hexport : ziaBackupExport S pwhash env passphrase h = some (.ok blob, h')) :
    ∃ identity entries, serializeIdentity h.engine = some identity ∧
      entries = (exportEntries S env.read (vaultEntries env.listable h.device) h.device).1 ∧
      sealBackup S pwhash env passphrase
        (backupPlain (1 + (vaultEntries env.listable h.device).length)
          (⟨kKindIdentity, [], identity⟩ :: entries)) = .ok blob := by
  unfold ziaBackupExport at hexport
  split at hexport
  · cases hexport
  split at hexport
  · cases hexport
  obtain ⟨identity, hidentity, hret⟩ := Option.bind_eq_some_iff.mp hexport
  exact ⟨identity, _, hidentity, rfl, (Prod.mk.inj (Option.some.inj hret)).1⟩

/-- An import that succeeds got through every record, saw an identity and saved it. -/
theorem ziaBackupImport_ok {imp : ImportEnv} {passphrase data : Bytes} {h h' : Host}
    (himport : ziaBackupImport S pwhash imp passphrase data h = some (none, h')) :
    ∃ plain d, openBackup S pwhash imp passphrase data = .ok plain ∧
      (importPlain S imp plain h).ok = true ∧ (importPlain S imp plain h).identiteVue = true ∧
      saveIdentity S imp.save (importPlain S imp plain h).host.engine
        (importPlain S imp plain h).host.device = some (true, d) ∧
      h' = { (importPlain S imp plain h).host with device := d } := by
  unfold ziaBackupImport at himport
  split at himport
  · cases himport
  rename_i plain hopen
  dsimp only at himport
  split at himport
  · cases himport
  rename_i hdone
  obtain ⟨⟨saved, d⟩, hsave, hret⟩ := Option.bind_eq_some_iff.mp himport
  cases saved with
  | false => cases hret
  | true =>
    obtain ⟨_, rfl⟩ := Prod.mk.inj (Option.some.inj hret)
    refine ⟨plain, d, hopen, ?_, ?_, hsave, rfl⟩
    · by_contra hok
      exact hdone (by simp [hok])
    · by_contra hvue
      exact hdone (by simp [hvue])

/-- The count announced, which is taken mod 2^32, is that of the records written,
and each of them is shorter than 2^32 bytes. -/
structure Whole (S : SecretStream) (env : ExportEnv) (h : Host) : Prop where
  count : (1 + (vaultEntries env.listable h.device).length) % UInt32.size =
    1 + (readEntries S env h.device).length
  identity : ∀ data, serializeIdentity h.engine = some data → data.length < UInt32.size
  entries : ∀ r ∈ readEntries S env h.device, r.data.length < UInt32.size

/-- What is written is what was read, when the count says so. -/
theorem Whole.entries_eq {env : ExportEnv} {h : Host} (hwhole : Whole S env h) :
    (exportEntries S env.read (vaultEntries env.listable h.device) h.device).1 =
      readEntries S env h.device := by
  cases hlist : env.listable with
  | true => rfl
  | false =>
    have hcount := hwhole.count
    rw [hlist] at hcount
    have hempty : (readEntries S env h.device).length = 0 := by
      have hone : (1 + (vaultEntries false h.device).length) % UInt32.size = 1 := rfl
      omega
    rw [List.length_eq_zero_iff.mp hempty]
    rfl

/-- When there are few enough files for the count, that means they were all read. -/
theorem count_iff_allRead (env : ExportEnv) {h : Host}
    (hfew : 1 + (vaultNames h.device).length < UInt32.size) :
    (1 + (vaultNames h.device).length) % UInt32.size = 1 + (readEntries S env h.device).length ↔
      (readEntries S env h.device).map (·.name) = vaultNames h.device := by
  rw [Nat.mod_eq_of_lt hfew]
  constructor
  · intro hcount
    apply (exportEntries_names (S := S) env.read (vaultNames h.device) h.device).eq_of_length
    rw [List.length_map]
    exact (Nat.add_left_cancel hcount).symm
  · intro hall
    rw [← hall, List.length_map]

theorem exportEntries_fits {noms : List Bytes} {read : Bytes → ReadUse} {d : Device}
    (hshort : ∀ r ∈ (exportEntries S read noms d).1, r.data.length < UInt32.size) :
    ∀ r ∈ (exportEntries S read noms d).1, r.Fits := by
  intro r hr
  refine ⟨?_, hshort r hr⟩
  have hname := (exportEntries_valid read noms d r hr).2
  simp only [validName, Bool.and_eq_true, decide_eq_true_eq] at hname
  exact Nat.lt_of_le_of_lt hname.1.2 (by decide)

theorem readEntries_valid (S : SecretStream) (env : ExportEnv) (d : Device) :
    ∀ r ∈ readEntries S env d, r.kind = kKindVault ∧ validName r.name = true :=
  exportEntries_valid env.read _ d

theorem readEntries_nodup (S : SecretStream) (env : ExportEnv) (d : Device) :
    ((readEntries S env d).map (·.name)).Nodup :=
  (exportEntries_names env.read _ d).nodup (vaultNames_nodup d)

/-- The records of a whole backup: the identity goes to the engine, the entries to
the vault. -/
theorem Whole.importPlain (hS : S.Sound) {env : ExportEnv} {x : Host} (hwhole : Whole S env x)
    {identity : Bytes} (hidentity : serializeIdentity x.engine = some identity) {imp : ImportEnv}
    (himp : imp.Works S) {h : Host} (hready : h.device.Ready S) :
    Written S (readEntries S env x.device) true
      { h with engine := x.engine.restoredInto h.engine }
      (Storage.importPlain S imp
        (backupPlain (1 + (vaultEntries env.listable x.device).length)
          (⟨kKindIdentity, [], identity⟩ :: readEntries S env x.device)) h) := by
  have hlen := hwhole.identity identity hidentity
  have hfits : ∀ r ∈ ⟨kKindIdentity, [], identity⟩ :: readEntries S env x.device, r.Fits := by
    intro r hr
    rcases List.mem_cons.mp hr with rfl | hr
    · exact ⟨Nat.zero_lt_succ _, hlen⟩
    · exact exportEntries_fits hwhole.entries r hr
  have hcount : (1 + (vaultEntries env.listable x.device).length) % UInt32.size =
      ((⟨kKindIdentity, [], identity⟩ : BackupRecord) :: readEntries S env x.device).length := by
    rw [hwhole.count, List.length_cons, Nat.add_comm]
  have hparsed := parsedRecords_whole hfits hcount
  have hread := deserializeIdentity_serializeIdentity hidentity
    (Nat.lt_of_le_of_lt (oneTimePrekeys_length_le hidentity) hlen) h.engine
  have hfirst : importRecord S (imp.write 0) ⟨kKindIdentity, [], identity⟩ false h =
      ⟨true, true, { h with engine := x.engine.restoredInto h.engine }⟩ := by
    unfold importRecord
    rw [if_pos (beq_self_eq_true kKindIdentity), hread]
  have hwritten := applyRecords_written hS himp.write (readEntries_valid S env x.device)
    (readEntries_nodup S env x.device) 1 true
    (h := { h with engine := x.engine.restoredInto h.engine }) hready
  rw [importPlain_eq, hparsed]
  unfold applyRecords
  rw [hfirst]
  dsimp only
  rw [if_pos rfl]
  exact { hwritten with ok := by rw [Imported.within, hwritten.ok]; rfl }

theorem restores_of_whole (hS : S.Sound) {env : ExportEnv} {passphrase blob : Bytes}
    {x x' : Host} (hexport : ziaBackupExport S pwhash env passphrase x = some (.ok blob, x'))
    {imp : ImportEnv} (himp : imp.Works S) {h : Host} (hfresh : h.Fresh S)
    (hwhole : Whole S env x) :
    Restores S pwhash imp passphrase blob x.engine (readEntries S env x.device) h := by
  obtain ⟨identity, entries, hidentity, rfl, hseal⟩ := ziaBackupExport_ok hexport
  rw [hwhole.entries_eq] at hseal
  have hwritten := hwhole.importPlain hS hidentity himp (h := h) hfresh.ready
  generalize hplain : backupPlain (1 + (vaultEntries env.listable x.device).length)
    (⟨kKindIdentity, [], identity⟩ :: readEntries S env x.device) = plain at hseal hwritten
  have hpresent := (serializeIdentity_keyPresent hidentity).restoredInto h.engine
  obtain ⟨d, hsave, hpath, hkeeps⟩ := saveIdentity_works hS himp.save hwritten.ready
    (e := (importPlain S imp plain h).host.engine) (by rw [hwritten.engine]; exact hpresent)
  refine ⟨{ (importPlain S imp plain h).host with device := d }, ?_, hwritten.engine, ?_⟩
  · unfold ziaBackupImport
    rw [openBackup_sealBackup hS hseal himp.derived]
    dsimp only
    rw [hwritten.ok, hwritten.vue, if_neg (by decide), hsave]
    rfl
  · intro r hr
    exact (hkeeps _ _ (hwritten.stores r hr)).reads hpath (readEntries_valid S env x.device r hr).2

/-! ## What a restored backup says about the export -/

theorem importPlain_ok {imp : ImportEnv} {plain : Bytes} {h : Host}
    (hok : (importPlain S imp plain h).ok = true) :
    (applyRecords S imp (parsedRecords plain).1 0 false h).ok = true ∧
      (parsedRecords plain).2 = true := by
  rw [importPlain_eq, Imported.within, Bool.and_eq_true] at hok
  exact hok

theorem importPlain_run {I : Bool → Host → Prop} (imp : ImportEnv) (plain : Bytes) (h : Host)
    (hstep : ∀ r ∈ (parsedRecords plain).1, ∀ i vue h, I vue h →
      I (importRecord S (imp.write i) r vue h).identiteVue
        (importRecord S (imp.write i) r vue h).host)
    (hI : I false h) :
    I (importPlain S imp plain h).identiteVue (importPlain S imp plain h).host := by
  rw [importPlain_eq]
  exact applyRecords_run hstep 0 false h hI

/-- After a successful loop the engine holds an identity that was accepted. -/
theorem importPlain_seen {imp : ImportEnv} {plain : Bytes} {h : Host}
    (hvue : (importPlain S imp plain h).identiteVue = true) :
    (importPlain S imp plain h).host.engine.oneTimePrekeys.length < UInt32.size ∧
      (importPlain S imp plain h).host.engine.KeyPresent := by
  refine importPlain_run (I := fun vue h =>
    vue = true → h.engine.oneTimePrekeys.length < UInt32.size ∧ h.engine.KeyPresent)
    imp plain h ?_ ?_ hvue
  · intro r _ i vue h hseen
    exact importRecord_seen hseen
  · intro hfalse
    cases hfalse

/-- An identity too long for its field is cut short, and refused. -/
theorem identity_fits {imp : ImportEnv} {announced : Nat} {identity : Bytes}
    {entries : List BackupRecord} {h : Host} {t : ZiaEngine}
    (hwhole : (deserializeIdentity identity t).1 = true)
    (hok : (importPlain S imp (backupPlain announced (⟨kKindIdentity, [], identity⟩ :: entries))
      h).ok = true)
    (hvue : (importPlain S imp (backupPlain announced (⟨kKindIdentity, [], identity⟩ :: entries))
      h).identiteVue = true) : identity.length < UInt32.size := by
  obtain ⟨hdone, hcomplete⟩ := importPlain_ok hok
  have hannounced : announced % UInt32.size ≠ 0 := by
    intro hzero
    rw [importPlain_eq, parsedRecords_count, hzero] at hvue
    cases hvue
  by_contra hlen
  obtain ⟨rest, hrecords⟩ := parsedRecords_head hannounced (r := ⟨kKindIdentity, [], identity⟩)
    (Nat.zero_lt_succ _) entries
  have hlt : identity.length % UInt32.size < identity.length :=
    Nat.lt_of_lt_of_le (Nat.mod_lt _ (by decide)) (Nat.le_of_not_lt hlen)
  have hrest : identity.drop (identity.length % UInt32.size) ≠ [] := by
    rw [ne_eq, List.drop_eq_nil_iff]
    omega
  have hrefused : (deserializeIdentity (identity.take (identity.length % UInt32.size)) h.engine).1 =
      false := by
    rw [← List.take_append_drop (identity.length % UInt32.size) identity] at hwhole
    exact Filler.parse_take hwhole hrest h.engine
  have hfirst : (importRecord S (imp.write 0)
      ⟨kKindIdentity, [], identity.take (identity.length % UInt32.size)⟩ false h).ok = false := by
    unfold importRecord
    rw [if_pos (beq_self_eq_true kKindIdentity)]
    exact hrefused
  rw [hrecords] at hdone
  unfold applyRecords at hdone
  dsimp only at hdone
  rw [hfirst, if_neg Bool.false_ne_true, hfirst] at hdone
  cases hdone

/-- An entry that can be read on the new device was parsed. -/
theorem parsed_of_reads {imp : ImportEnv} {plain : Bytes} {h : Host} {d : Device}
    (hvault : d.vault = (importPlain S imp plain h).host.device.vault)
    (hempty : ∀ file, h.device.vault.get? file = none) {name data : Bytes}
    (hreads : d.Reads S name data) :
    ∃ r ∈ (parsedRecords plain).1, r.kind = kKindVault ∧ r.name = name := by
  by_contra hno
  push Not at hno
  obtain ⟨raw, key, hraw, _⟩ := hreads.opens
  have hsame : (importPlain S imp plain h).host.device.vault.get? (vaultFile name) =
      h.device.vault.get? (vaultFile name) := by
    refine importPlain_run (I := fun _ h' =>
      h'.device.vault.get? (vaultFile name) = h.device.vault.get? (vaultFile name))
      imp plain h ?_ rfl
    intro r hr i vue h' hI
    rw [importRecord_others (hno r hr), hI]
  rw [hvault, hsame, hempty] at hraw
  cases hraw

/-- After the loop the vault holds what the records said. -/
theorem importPlain_opens (hS : S.Sound) {P : Bytes → Bytes → Prop} (imp : ImportEnv)
    (plain : Bytes) {h : Host}
    (hrecords : ∀ r ∈ (parsedRecords plain).1, r.kind = kKindVault → P (vaultFile r.name) r.data)
    (hempty : ∀ file, h.device.vault.get? file = none) :
    (importPlain S imp plain h).host.device.Opens S P := by
  refine importPlain_run (I := fun _ h => h.device.Opens S P) imp plain h ?_ ?_
  · intro r hr i vue h hd
    exact importRecord_opens hS (hrecords r hr) hd
  · intro file raw key data hraw
    rw [hempty file] at hraw
    cases hraw

/-- When every entry is parsed, the count is that of the entries. -/
theorem count_of_parsed {announced : Nat} {identity : Bytes} {entries : List BackupRecord}
    (hidentity : identity.length < UInt32.size) (hfits : ∀ r ∈ entries, r.Fits)
    (hnodup : (entries.map (·.name)).Nodup)
    (hcomplete : (parsedRecords (backupPlain announced
      (⟨kKindIdentity, [], identity⟩ :: entries))).2 = true)
    (hannounced : announced % UInt32.size ≠ 0)
    (hparsed : ∀ r ∈ entries, ∃ r' ∈ (parsedRecords (backupPlain announced
      (⟨kKindIdentity, [], identity⟩ :: entries))).1, r'.kind = kKindVault ∧ r'.name = r.name) :
    announced % UInt32.size = 1 + entries.length := by
  have hall : ∀ r ∈ ⟨kKindIdentity, [], identity⟩ :: entries, r.Fits := by
    intro r hr
    rcases List.mem_cons.mp hr with rfl | hr
    · exact ⟨Nat.zero_lt_succ _, hidentity⟩
    · exact hfits r hr
  obtain ⟨left, hleft⟩ := Nat.exists_eq_succ_of_ne_zero hannounced
  rw [parsedRecords_backupPlain hall, hleft, Nat.succ_eq_add_one] at hcomplete hparsed
  rw [List.take_succ_cons] at hparsed
  rw [List.length_cons, decide_eq_true_eq] at hcomplete
  rw [hleft]
  by_contra hne
  -- An entry behind the last one counted has its name among those before.
  have hbehind : entries.drop left ≠ [] := by
    rw [ne_eq, List.drop_eq_nil_iff]
    omega
  obtain ⟨r, hr⟩ := List.exists_mem_of_ne_nil _ hbehind
  obtain ⟨r', hr', hkind, hname⟩ := hparsed r (List.mem_of_mem_drop hr)
  rcases List.mem_cons.mp hr' with rfl | hr'
  · exact absurd hkind (by simp [kKindIdentity, kKindVault])
  · have hbefore : r.name ∈ (entries.map (·.name)).take left := by
      rw [← List.map_take, ← hname]
      exact List.mem_map_of_mem hr'
    have hafter : r.name ∈ (entries.map (·.name)).drop left := by
      rw [← List.map_drop]
      exact List.mem_map_of_mem hr
    exact List.disjoint_take_drop hnodup (Nat.le_refl left) hbefore hafter

/-- An entry that was read but not written cannot be parsed. -/
theorem exported_of_parsed {env : ExportEnv} {d : Device} {announced : Nat} {identity : Bytes}
    (hidentity : identity.length < UInt32.size)
    (hparsed : ∀ r ∈ readEntries S env d, ∃ r' ∈ (parsedRecords (backupPlain announced
      (⟨kKindIdentity, [], identity⟩ ::
        (exportEntries S env.read (vaultEntries env.listable d) d).1))).1,
      r'.kind = kKindVault ∧ r'.name = r.name) :
    (exportEntries S env.read (vaultEntries env.listable d) d).1 = readEntries S env d := by
  cases hlist : env.listable with
  | true => rfl
  | false =>
    rw [hlist] at hparsed
    have hfits : ∀ r ∈ [(⟨kKindIdentity, [], identity⟩ : BackupRecord)], r.Fits := by
      intro r hr
      rw [List.mem_singleton.mp hr]
      exact ⟨Nat.zero_lt_succ _, hidentity⟩
    by_contra hne
    obtain ⟨r, hr⟩ := List.exists_mem_of_ne_nil _ (Ne.symm hne)
    obtain ⟨r', hr', hkind, _⟩ := hparsed r hr
    have honly : r' ∈ [(⟨kKindIdentity, [], identity⟩ : BackupRecord)] := by
      rw [show (exportEntries S env.read (vaultEntries false d) d).1 = [] from rfl,
        parsedRecords_backupPlain hfits] at hr'
      exact List.mem_of_mem_take hr'
    rw [List.mem_singleton.mp honly] at hkind
    cases hkind

theorem whole_of_restores (hS : S.Sound) {env : ExportEnv} {passphrase blob : Bytes}
    {x x' : Host} (hexport : ziaBackupExport S pwhash env passphrase x = some (.ok blob, x'))
    {imp : ImportEnv} (himp : imp.Works S) {h : Host} (hfresh : h.Fresh S)
    (hrestores : Restores S pwhash imp passphrase blob x.engine (readEntries S env x.device) h) :
    Whole S env x := by
  obtain ⟨identity, entries, hidentity, hentries, hseal⟩ := ziaBackupExport_ok hexport
  obtain ⟨h', himport, hengine, hreads⟩ := hrestores
  obtain ⟨plain, d, hopen, hok, hvue, hsave, rfl⟩ := ziaBackupImport_ok himport
  have hplain := Except.ok.inj ((openBackup_sealBackup hS hseal himp.derived).symm.trans hopen)
  have hvault := saveIdentity_vault hsave
  have hparsed := fun r hr => parsed_of_reads hvault hfresh.vault (hreads r hr)
  -- The identity fits, or it would be refused.
  have hcounted : x.engine.oneTimePrekeys.length < UInt32.size := by
    have hseen := (importPlain_seen hvue).1
    rw [hengine] at hseen
    exact hseen
  have haccepted := deserializeIdentity_serializeIdentity hidentity hcounted h.engine
  have hcomplete := (importPlain_ok hok).2
  have hannounced : (1 + (vaultEntries env.listable x.device).length) % UInt32.size ≠ 0 := by
    intro hzero
    rw [importPlain_eq, ← hplain, parsedRecords_count, hzero] at hvue
    cases hvue
  have hidentityFits : identity.length < UInt32.size := by
    rw [← hplain] at hok hvue
    exact identity_fits (by rw [haccepted]) hok hvue
  -- An entry fits, or it would come back shorter.
  have hentriesFit : ∀ r ∈ readEntries S env x.device, r.data.length < UInt32.size := by
    intro r hr
    obtain ⟨raw, key, hraw, hopened⟩ := (hreads r hr).opens
    have hshort := importPlain_opens hS (P := fun _ data => data.length < UInt32.size) imp plain
      (fun r hr _ => (parsedRecords_fits plain r hr).2) hfresh.vault
    rw [hvault] at hraw
    exact hshort _ raw key _ hraw hopened
  refine ⟨?_, ?_, hentriesFit⟩
  · rw [← hplain, hentries] at hparsed
    have hsame := exported_of_parsed hidentityFits hparsed
    rw [hsame] at hentries hparsed
    rw [← hplain, hentries] at hcomplete
    exact count_of_parsed hidentityFits (exportEntries_fits hentriesFit)
      (readEntries_nodup S env x.device) hcomplete hannounced hparsed
  · intro data hdata
    rw [hidentity] at hdata
    obtain rfl := Option.some.inj hdata
    exact hidentityFits

/-- An exported backup is restored on a fresh engine exactly when the count it
announces is that of the records it holds and each of them fits. -/
theorem backup_restores_iff (hS : S.Sound) {env : ExportEnv} {passphrase blob : Bytes}
    {x x' : Host} (hexport : ziaBackupExport S pwhash env passphrase x = some (.ok blob, x'))
    {imp : ImportEnv} (himp : imp.Works S) {h : Host} (hfresh : h.Fresh S) :
    Restores S pwhash imp passphrase blob x.engine (readEntries S env x.device) h ↔
      Whole S env x :=
  ⟨whole_of_restores hS hexport himp hfresh, restores_of_whole hS hexport himp hfresh⟩

/-! ## Two vaults -/

def symbolicPwhash (_ : Bytes) (_ : FixedBytes 16) (_ _ : UInt64) : Key := keyZero

def symbolicPassphrase : Bytes := List.replicate 12 97

def workingExport : ExportEnv :=
  ⟨true, fun _ => workingRead, FixedBytes.zero 16, true, some (FixedBytes.zero 24), true⟩

def workingImport : ImportEnv := ⟨true, fun _ => workingWrite, workingWrite⟩

def emptyDevice : Device := ⟨true, none, none, .empty⟩

def freshHost : Host := ⟨.new, emptyDevice⟩

theorem keyZero_seals : namedStream.Seals keyZero := fun _ _ => ⟨_, rfl⟩

theorem workingWrite_works : workingWrite.Works namedStream :=
  ⟨rfl, rfl, rfl, keyZero_seals, rfl, ⟨_, rfl⟩, rfl⟩

theorem workingImport_works : workingImport.Works namedStream :=
  ⟨rfl, fun _ => workingWrite_works, workingWrite_works⟩

theorem freshHost_fresh : freshHost.Fresh namedStream where
  engine := rfl
  vault _ := rfl
  ready := ⟨rfl, fun _ hkey => by cases hkey⟩

def savedEngine : ZiaEngine :=
  { ZiaEngine.new with hasIdentity := true, identityPrivate := some (FixedBytes.zero 64) }

/-- One entry, `a`, as `secure_write` leaves it. -/
def cleanHost : Host :=
  ⟨savedEngine, (secureWrite namedStream workingWrite [97] [1] emptyDevice).2⟩

/-- Next to it an empty file, `b.zia`. -/
def strayHost : Host :=
  { cleanHost with
    device := { cleanHost.device with
      vault := cleanHost.device.vault.insert (vaultFile [98]) [] } }

def exportedBackup (h : Host) : Bytes :=
  match ziaBackupExport namedStream symbolicPwhash workingExport symbolicPassphrase h with
  | some (.ok blob, _) => blob
  | _ => []

theorem cleanHost_restores :
    Restores namedStream symbolicPwhash workingImport symbolicPassphrase
      (exportedBackup cleanHost) savedEngine (readEntries namedStream workingExport cleanHost.device)
      freshHost := by
  have hexport : ziaBackupExport namedStream symbolicPwhash workingExport symbolicPassphrase
      cleanHost = some (.ok (exportedBackup cleanHost), cleanHost) := rfl
  refine (backup_restores_iff namedStream_sound hexport workingImport_works freshHost_fresh).mpr
    ⟨?_, ?_, ?_⟩
  · decide +kernel
  · intro data hdata
    have hlen : (serializeIdentity cleanHost.engine).map List.length = some 104 := by
      decide +kernel
    rw [hdata] at hlen
    rw [Option.some.inj hlen]
    decide
  · decide +kernel

/-- The empty file is announced and skipped, and the import then refuses it all. -/
theorem strayHost_refused :
    (ziaBackupExport namedStream symbolicPwhash workingExport symbolicPassphrase strayHost).map
      (·.1) = some (.ok (exportedBackup strayHost)) ∧
    (ziaBackupImport namedStream symbolicPwhash workingImport symbolicPassphrase
      (exportedBackup strayHost) freshHost).map (·.1) = some (some .cryptoFailure) :=
  ⟨rfl, by decide +kernel⟩

end ZiaCrypte.Storage

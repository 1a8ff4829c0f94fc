import ZiaCrypte.Storage.BackupRoundTrip

/-!
# What a failed import leaves behind

The import acts on the live engine and on the vault while it is still parsing.
What it has done by the time it fails stays: it leaves everything as it was when
no vault entry was written and the identities it read changed nothing.
-/
namespace ZiaCrypte.Storage

open ZiaCrypte.Lib ZiaCrypte.Engine

variable {S : SecretStream} {pwhash : Bytes → FixedBytes 16 → UInt64 → UInt64 → Key}

/-! ## The records that take effect -/

/-- Whether `deserialize_identity` takes the bytes, which no engine decides. -/
def accepts (data : Bytes) : Bool := (deserializeIdentity data .new).1

theorem deserializeIdentity_fst (data : Bytes) (t : ZiaEngine) :
    (deserializeIdentity data t).1 = accepts data := by
  rw [Bool.eq_iff_iff]
  exact Filler.parse_accepts_iff.trans Filler.parse_accepts_iff.symm

structure Effects where
  /-- The identities that are read and the entries that are written. -/
  records : List BackupRecord
  /-- Nothing failed. -/
  all : Bool
  device : Device

def Effects.cons (r : BackupRecord) (E : Effects) : Effects := { E with records := r :: E.records }

/-- What the records do on a device: an identity is read even when it is refused. -/
def effects (S : SecretStream) (imp : ImportEnv) : List BackupRecord → Nat → Device → Effects
  | [], _, d => ⟨[], true, d⟩
  | r :: rs, i, d =>
      if r.kind = kKindIdentity then
        if accepts r.data then (effects S imp rs (i + 1) d).cons r else ⟨[r], false, d⟩
      else if r.kind = kKindVault then
        let written := secureWrite S (imp.write i) r.name r.data d
        if written.1 then (effects S imp rs (i + 1) written.2).cons r else ⟨[], false, written.2⟩
      else effects S imp rs (i + 1) d

/-- What the first record does: an identity is accepted or refused, an entry is written
or not, and a record of any other kind is passed over. -/
theorem effects_cons_cases (S : SecretStream) (imp : ImportEnv) (r : BackupRecord)
    (rs : List BackupRecord) (i : Nat) (d : Device) :
    (r.kind = kKindIdentity ∧ accepts r.data = true ∧
      effects S imp (r :: rs) i d = (effects S imp rs (i + 1) d).cons r) ∨
    (r.kind = kKindIdentity ∧ effects S imp (r :: rs) i d = ⟨[r], false, d⟩) ∨
    (r.kind = kKindVault ∧ (secureWrite S (imp.write i) r.name r.data d).1 = true ∧
      effects S imp (r :: rs) i d =
        (effects S imp rs (i + 1) (secureWrite S (imp.write i) r.name r.data d).2).cons r) ∨
    (r.kind = kKindVault ∧ (secureWrite S (imp.write i) r.name r.data d).1 = false ∧
      effects S imp (r :: rs) i d =
        ⟨[], false, (secureWrite S (imp.write i) r.name r.data d).2⟩) ∨
    effects S imp (r :: rs) i d = effects S imp rs (i + 1) d := by
  rw [effects]
  by_cases hid : r.kind = kKindIdentity
  · rw [if_pos hid]
    cases hacc : accepts r.data with
    | true => exact Or.inl ⟨hid, rfl, if_pos rfl⟩
    | false => exact Or.inr (Or.inl ⟨hid, if_neg Bool.false_ne_true⟩)
  rw [if_neg hid]
  by_cases hvault : r.kind = kKindVault
  · rw [if_pos hvault]
    cases hwritten : (secureWrite S (imp.write i) r.name r.data d).1 with
    | true => exact Or.inr (Or.inr (Or.inl ⟨hvault, rfl, if_pos hwritten⟩))
    | false =>
      have hnot : ¬ (secureWrite S (imp.write i) r.name r.data d).1 = true := by simp [hwritten]
      exact Or.inr (Or.inr (Or.inr (Or.inl ⟨hvault, rfl, if_neg hnot⟩)))
  · exact Or.inr (Or.inr (Or.inr (Or.inr (if_neg hvault))))

/-- The engine after the identities among the records. -/
def readInto (rs : List BackupRecord) (e : ZiaEngine) : ZiaEngine :=
  rs.foldl (fun e r => if r.kind = kKindIdentity then (deserializeIdentity r.data e).2 else e) e

theorem readInto_identity {r : BackupRecord} (h : r.kind = kKindIdentity) (rs : List BackupRecord)
    (e : ZiaEngine) : readInto (r :: rs) e = readInto rs (deserializeIdentity r.data e).2 := by
  rw [readInto, List.foldl_cons, if_pos h]
  rfl

theorem readInto_other {r : BackupRecord} (h : r.kind ≠ kKindIdentity) (rs : List BackupRecord)
    (e : ZiaEngine) : readInto (r :: rs) e = readInto rs e := by
  rw [readInto, List.foldl_cons, if_neg h]
  rfl

def seesIdentity (rs : List BackupRecord) : Bool := rs.any (·.kind == kKindIdentity)

theorem applyRecords_effects (imp : ImportEnv) (rs : List BackupRecord) (i : Nat) (vue : Bool)
    (h : Host) :
    (applyRecords S imp rs i vue h).ok = (effects S imp rs i h.device).all ∧
    (applyRecords S imp rs i vue h).host =
      ⟨readInto (effects S imp rs i h.device).records h.engine, (effects S imp rs i h.device).device⟩ ∧
    ((effects S imp rs i h.device).all = true →
      (applyRecords S imp rs i vue h).identiteVue =
        (vue || seesIdentity (effects S imp rs i h.device).records)) := by
  induction rs generalizing i vue h with
  | nil => exact ⟨rfl, rfl, fun _ => (Bool.or_false vue).symm⟩
  | cons r rs ih =>
    unfold applyRecords effects
    obtain ⟨hkind, heq⟩ | ⟨hkind, heq⟩ | ⟨hid, hvault, heq⟩ :=
      importRecord_cases S (imp.write i) r vue h
    · rw [heq, deserializeIdentity_fst, if_pos hkind]
      dsimp only
      cases hacc : accepts r.data with
      | true =>
        rw [if_pos rfl, if_pos rfl]
        obtain ⟨hok, hhost, hvue⟩ := ih (i + 1) true
          { h with engine := (deserializeIdentity r.data h.engine).2 }
        refine ⟨hok, ?_, fun hall => ?_⟩
        · rw [hhost, Effects.cons, readInto_identity hkind]
        · rw [hvue hall, Effects.cons, seesIdentity, seesIdentity, List.any_cons, hkind]
          simp
      | false =>
        rw [if_neg Bool.false_ne_true, if_neg Bool.false_ne_true]
        refine ⟨rfl, ?_, fun hall => absurd hall Bool.false_ne_true⟩
        rw [readInto_identity hkind]
        rfl
    · have hid : r.kind ≠ kKindIdentity := by rw [hkind]; decide
      rw [heq, if_neg hid, if_pos hkind]
      dsimp only
      cases hwritten : (secureWrite S (imp.write i) r.name r.data h.device).1 with
      | true =>
        rw [if_pos rfl, if_pos rfl]
        obtain ⟨hok, hhost, hvue⟩ := ih (i + 1) vue
          { h with device := (secureWrite S (imp.write i) r.name r.data h.device).2 }
        refine ⟨hok, ?_, fun hall => ?_⟩
        · rw [hhost, Effects.cons, readInto_other hid]
        · rw [hvue hall, Effects.cons, seesIdentity, seesIdentity, List.any_cons, hkind]
          simp [kKindVault, kKindIdentity]
      | false =>
        rw [if_neg Bool.false_ne_true, if_neg Bool.false_ne_true]
        exact ⟨rfl, rfl, fun hall => absurd hall Bool.false_ne_true⟩
    · rw [heq, if_neg hid, if_neg hvault]
      exact ih (i + 1) vue h

/-! ## The vault after the records -/

/-- What every write keeps, the records keep. -/
theorem effects_run {I : Device → Prop} {imp : ImportEnv}
    (hstep : ∀ i name data d, I d → I (secureWrite S (imp.write i) name data d).2)
    (rs : List BackupRecord) (i : Nat) {d : Device} (hd : I d) : I (effects S imp rs i d).device := by
  induction rs generalizing i d with
  | nil => exact hd
  | cons r rs ih =>
    rcases effects_cons_cases S imp r rs i d with
      ⟨_, _, heq⟩ | ⟨_, heq⟩ | ⟨_, _, heq⟩ | ⟨_, _, heq⟩ | heq
    · rw [heq]
      exact ih (i + 1) hd
    · rw [heq]
      exact hd
    · rw [heq]
      exact ih (i + 1) (hstep i _ _ d hd)
    · rw [heq]
      exact hstep i _ _ d hd
    · rw [heq]
      exact ih (i + 1) hd

theorem effects_identityFile (imp : ImportEnv) (rs : List BackupRecord) (i : Nat) (d : Device) :
    (effects S imp rs i d).device.identityFile = d.identityFile := by
  refine effects_run (I := fun d' => d'.identityFile = d.identityFile) ?_ rs i rfl
  intro i name data d' hd'
  obtain ⟨stored, hwrite | ⟨key, header, file, _, _, _, hwrite⟩⟩ :=
    secureWrite_cases S (imp.write i) name data d'
  · rw [hwrite]
    exact hd'
  · rw [hwrite]
    exact hd'

/-- A file that starts with the header of a write of the import. -/
def SealedBy (imp : ImportEnv) (file : Bytes) (d : Device) : Prop :=
  ∃ i header raw, (imp.write i).header = some header ∧ d.vault.get? file = some raw ∧
    raw.take streamHeaderBytes = header.bytes

theorem secureWrite_sealed {imp : ImportEnv} {i : Nat} {name data : Bytes} {d : Device}
    (h : (secureWrite S (imp.write i) name data d).1 = true) :
    SealedBy imp (vaultFile name) (secureWrite S (imp.write i) name data d).2 := by
  obtain ⟨key, header, raw, hheader, hseal, hraw⟩ := secureWrite_written h
  obtain ⟨c, _, rfl⟩ := sealFile_eq_some hseal
  exact ⟨i, header, _, hheader, hraw, List.take_left' header.length_bytes⟩

theorem secureWrite_keeps_sealed {imp : ImportEnv} {file : Bytes} (i : Nat) (name data : Bytes)
    (d : Device) (hd : SealedBy imp file d) :
    SealedBy imp file (secureWrite S (imp.write i) name data d).2 := by
  rcases secureWrite_file S (imp.write i) name data d file with
    hsame | ⟨key, header, raw, _, hheader, hseal, hraw⟩
  · obtain ⟨j, header, raw, hheader, hraw, htake⟩ := hd
    exact ⟨j, header, raw, hheader, by rw [hsame, hraw], htake⟩
  · obtain ⟨c, _, rfl⟩ := sealFile_eq_some hseal
    exact ⟨i, header, _, hheader, hraw, List.take_left' header.length_bytes⟩

/-- An entry that was written is a file sealed by the import. -/
theorem effects_sealed (imp : ImportEnv) {rs : List BackupRecord} {i : Nat} {d : Device}
    {r : BackupRecord} (hr : r ∈ (effects S imp rs i d).records) (hkind : r.kind = kKindVault) :
    SealedBy imp (vaultFile r.name) (effects S imp rs i d).device := by
  induction rs generalizing i d with
  | nil => cases hr
  | cons r' rs ih =>
    rcases effects_cons_cases S imp r' rs i d with
      ⟨hid, _, heq⟩ | ⟨hid, heq⟩ | ⟨_, hwritten, heq⟩ | ⟨_, _, heq⟩ | heq
    · rw [heq] at hr ⊢
      rcases List.mem_cons.mp hr with rfl | hr
      · rw [hid] at hkind
        cases hkind
      · exact ih hr
    · rw [heq] at hr
      obtain rfl := List.mem_singleton.mp hr
      rw [hid] at hkind
      cases hkind
    · rw [heq] at hr ⊢
      rcases List.mem_cons.mp hr with rfl | hr
      · exact effects_run (I := SealedBy imp (vaultFile r.name)) secureWrite_keeps_sealed rs
          (i + 1) (secureWrite_sealed hwritten)
      · exact ih hr
    · rw [heq] at hr
      cases hr
    · rw [heq] at hr ⊢
      exact ih hr

/-- Without such an entry the vault is what it was. -/
theorem effects_vault {imp : ImportEnv} {rs : List BackupRecord} {i : Nat} {d : Device}
    (hnone : ∀ r ∈ (effects S imp rs i d).records, r.kind ≠ kKindVault) :
    (effects S imp rs i d).device.vault = d.vault := by
  induction rs generalizing i d with
  | nil => rfl
  | cons r rs ih =>
    rcases effects_cons_cases S imp r rs i d with
      ⟨_, _, heq⟩ | ⟨_, heq⟩ | ⟨hvault, _, heq⟩ | ⟨_, hfailed, heq⟩ | heq
    · rw [heq] at hnone ⊢
      exact ih fun r' hr' => hnone r' (List.mem_cons_of_mem _ hr')
    · rw [heq]
    · rw [heq] at hnone
      exact absurd hvault (hnone r List.mem_cons_self)
    · rw [heq]
      obtain ⟨stored, hwrite | ⟨_, _, _, _, _, _, hwrite⟩⟩ :=
        secureWrite_cases S (imp.write i) r.name r.data d
      · rw [hwrite]
      · rw [hwrite] at hfailed
        cases hfailed
    · rw [heq] at hnone ⊢
      exact ih hnone

/-! ## The engine after the records -/

theorem effects_accepts {imp : ImportEnv} {rs : List BackupRecord} {i : Nat} {d : Device}
    (hall : (effects S imp rs i d).all = true) :
    ∀ r ∈ (effects S imp rs i d).records, r.kind = kKindIdentity → accepts r.data = true := by
  induction rs generalizing i d with
  | nil =>
    intro r hr
    cases hr
  | cons r rs ih =>
    rcases effects_cons_cases S imp r rs i d with
      ⟨_, hacc, heq⟩ | ⟨_, heq⟩ | ⟨hvault, _, heq⟩ | ⟨_, _, heq⟩ | heq
    · rw [heq] at hall ⊢
      intro r' hr' hkind
      rcases List.mem_cons.mp hr' with rfl | hr'
      · exact hacc
      · exact ih hall r' hr' hkind
    · rw [heq] at hall
      cases hall
    · rw [heq] at hall ⊢
      intro r' hr' hkind
      rcases List.mem_cons.mp hr' with rfl | hr'
      · rw [hvault] at hkind
        cases hkind
      · exact ih hall r' hr' hkind
    · rw [heq] at hall
      cases hall
    · rw [heq] at hall ⊢
      exact ih hall

def lastIdentity (rs : List BackupRecord) : Option BackupRecord :=
  (rs.filter (·.kind == kKindIdentity)).getLast?

theorem lastIdentity_isSome {rs : List BackupRecord} (h : seesIdentity rs = true) :
    ∃ r, lastIdentity rs = some r := by
  obtain ⟨r, hr, hkind⟩ := List.any_eq_true.mp h
  have hne : rs.filter (·.kind == kKindIdentity) ≠ [] :=
    List.ne_nil_of_mem (List.mem_filter.mpr ⟨hr, hkind⟩)
  exact ⟨_, List.getLast?_eq_some_getLast hne⟩

/-- The last identity decides whether the engine has one. -/
theorem readInto_hasIdentity {rs : List BackupRecord} {r : BackupRecord} (e : ZiaEngine)
    (hlast : lastIdentity rs = some r)
    (hacc : ∀ r ∈ rs, r.kind = kKindIdentity → accepts r.data = true) :
    (readInto rs e).hasIdentity = (r.data.getD 1 0 != 0) := by
  induction rs using List.reverseRecOn with
  | nil => cases hlast
  | append_singleton rs r' ih =>
    have hread : readInto (rs ++ [r']) e =
        if r'.kind = kKindIdentity then (deserializeIdentity r'.data (readInto rs e)).2
        else readInto rs e := List.foldl_concat _ _ _ _
    rw [hread]
    unfold lastIdentity at hlast
    rw [List.filter_append] at hlast
    by_cases hkind : r'.kind = kKindIdentity
    · rw [if_pos hkind]
      rw [List.filter_cons_of_pos (by simpa using hkind), List.filter_nil,
        List.getLast?_concat] at hlast
      obtain rfl := Option.some.inj hlast
      have haccepted : (deserializeIdentity r'.data (readInto rs e)).1 = true := by
        rw [deserializeIdentity_fst]
        exact hacc r' (List.mem_append_right _ (List.mem_singleton.mpr rfl)) hkind
      exact (deserializeIdentity_accepted haccepted).1.1
    · rw [if_neg hkind]
      rw [List.filter_cons_of_neg (by simpa using hkind), List.filter_nil, List.append_nil] at hlast
      exact ih hlast fun r hr => hacc r (List.mem_append_left _ hr)

/-! ## The import -/

/-- Every record is there and handled, one of them is an identity, and the save
at the end works. -/
structure Accepted (S : SecretStream) (imp : ImportEnv) (plain : Bytes) (h : Host) : Prop where
  complete : (parsedRecords plain).2 = true
  handled : (effects S imp (parsedRecords plain).1 0 h.device).all = true
  identity : seesIdentity (effects S imp (parsedRecords plain).1 0 h.device).records = true
  saved : ∃ d, saveIdentity S imp.save
    (readInto (effects S imp (parsedRecords plain).1 0 h.device).records h.engine)
    (effects S imp (parsedRecords plain).1 0 h.device).device = some (true, d)

theorem importPlain_effects (imp : ImportEnv) (plain : Bytes) (h : Host) :
    (importPlain S imp plain h).ok =
      ((effects S imp (parsedRecords plain).1 0 h.device).all && (parsedRecords plain).2) ∧
    (importPlain S imp plain h).host =
      ⟨readInto (effects S imp (parsedRecords plain).1 0 h.device).records h.engine,
        (effects S imp (parsedRecords plain).1 0 h.device).device⟩ ∧
    ((effects S imp (parsedRecords plain).1 0 h.device).all = true →
      (importPlain S imp plain h).identiteVue =
        seesIdentity (effects S imp (parsedRecords plain).1 0 h.device).records) := by
  obtain ⟨hok, hhost, hvue⟩ := applyRecords_effects (S := S) imp (parsedRecords plain).1 0 false h
  rw [importPlain_eq, Imported.within]
  refine ⟨by rw [hok], hhost, fun hall => ?_⟩
  rw [hvue hall, Bool.false_or]

/-- An import that gets to the records returns with what they did, and succeeds
when it is accepted. -/
theorem ziaBackupImport_outcome {imp : ImportEnv} {passphrase data plain : Bytes} {h : Host}
    (hopen : openBackup S pwhash imp passphrase data = .ok plain) :
    ∃ rc h', ziaBackupImport S pwhash imp passphrase data h = some (rc, h') ∧
      h'.engine = readInto (effects S imp (parsedRecords plain).1 0 h.device).records h.engine ∧
      h'.device.vault = (effects S imp (parsedRecords plain).1 0 h.device).device.vault ∧
      (rc ≠ none → h'.device.identityFile = h.device.identityFile) ∧
      (rc = none ↔ Accepted S imp plain h) := by
  obtain ⟨hok, hhost, hvue⟩ := importPlain_effects (S := S) imp plain h
  have hfile := effects_identityFile (S := S) imp (parsedRecords plain).1 0 h.device
  unfold ziaBackupImport
  rw [hopen]
  dsimp only
  by_cases hdone : (importPlain S imp plain h).ok = true ∧
      (importPlain S imp plain h).identiteVue = true
  · obtain ⟨hdoneOk, hdoneVue⟩ := hdone
    obtain ⟨saved, d, hsave⟩ := saveIdentity_returns (S := S) (importPlain_seen hdoneVue).2 imp.save
      (importPlain S imp plain h).host.device
    rw [hdoneOk, hdoneVue, hsave, if_neg (by decide)]
    rw [hok, Bool.and_eq_true] at hdoneOk
    rw [hvue hdoneOk.1] at hdoneVue
    rw [hhost] at hsave ⊢
    refine ⟨_, _, rfl, rfl, saveIdentity_vault hsave, ?_, ?_⟩
    · intro hrc
      obtain ⟨stored, ⟨_, rfl⟩ | ⟨_, _, _, _, rfl, _⟩⟩ := saveIdentity_cases hsave
      · exact hfile
      · exact absurd rfl hrc
    · constructor
      · intro hrc
        cases saved with
        | false => cases hrc
        | true => exact ⟨hdoneOk.2, hdoneOk.1, hdoneVue, d, hsave⟩
      · intro hacc
        obtain ⟨d', hsave'⟩ := hacc.saved
        rw [hsave] at hsave'
        rw [(Prod.mk.inj (Option.some.inj hsave')).1]
        rfl
  · have hguard : (!(importPlain S imp plain h).ok || !(importPlain S imp plain h).identiteVue) =
        true := by
      rw [Bool.or_eq_true, Bool.not_eq_true', Bool.not_eq_true', ← Bool.not_eq_true,
        ← Bool.not_eq_true]
      exact Classical.not_and_iff_not_or_not.mp hdone
    rw [hguard, if_pos rfl, hhost]
    refine ⟨_, _, rfl, rfl, rfl, fun _ => hfile, ?_⟩
    constructor
    · intro hrc
      cases hrc
    · intro hacc
      refine absurd ⟨?_, ?_⟩ hdone
      · rw [hok, hacc.handled, hacc.complete]
        rfl
      · rw [hvue hacc.handled, hacc.identity]

/-- The engine, the identity file and every entry of the vault. -/
structure Unchanged (h h' : Host) : Prop where
  engine : h'.engine = h.engine
  identityFile : h'.device.identityFile = h.device.identityFile
  vault : ∀ file, h'.device.vault.get? file = h.device.vault.get? file

/-- A failure changes nothing, and a success leaves an identity. -/
def ImportAtomic (S : SecretStream) (pwhash : Bytes → FixedBytes 16 → UInt64 → UInt64 → Key)
    (imp : ImportEnv) (passphrase data : Bytes) (h : Host) : Prop :=
  ∃ rc h', ziaBackupImport S pwhash imp passphrase data h = some (rc, h') ∧
    (rc ≠ none → Unchanged h h') ∧ (rc = none → h'.engine.hasIdentity = true)

/-- The last identity of an accepted backup says that there is one; of any other
that opens no entry is written, and its identities change nothing. -/
def Harmless (S : SecretStream) (pwhash : Bytes → FixedBytes 16 → UInt64 → UInt64 → Key)
    (imp : ImportEnv) (passphrase data : Bytes) (h : Host) : Prop :=
  ∀ plain records, openBackup S pwhash imp passphrase data = .ok plain →
    records = (effects S imp (parsedRecords plain).1 0 h.device).records →
    (Accepted S imp plain h →
      ∃ r, lastIdentity records = some r ∧ r.data.getD 1 0 ≠ 0) ∧
    (¬ Accepted S imp plain h →
      (∀ r ∈ records, r.kind ≠ kKindVault) ∧ readInto records h.engine = h.engine)

/-- No header drawn for a write is that of a file in the vault. -/
def ImportEnv.FreshHeaders (imp : ImportEnv) (d : Device) : Prop :=
  ∀ i header file raw, (imp.write i).header = some header → d.vault.get? file = some raw →
    raw.take streamHeaderBytes ≠ header.bytes

/-- Where headers are not drawn twice, the import keeps what it promises exactly on
the harmless backups; on those it does in any case. -/
theorem import_atomic_iff (S : SecretStream)
    (pwhash : Bytes → FixedBytes 16 → UInt64 → UInt64 → Key) (imp : ImportEnv)
    (passphrase data : Bytes) (h : Host) :
    (Harmless S pwhash imp passphrase data h → ImportAtomic S pwhash imp passphrase data h) ∧
    (imp.FreshHeaders h.device → ImportAtomic S pwhash imp passphrase data h →
      Harmless S pwhash imp passphrase data h) := by
  constructor
  · intro hharmless
    cases hopen : openBackup S pwhash imp passphrase data with
    | error rc =>
      refine ⟨some rc, h, ?_, fun _ => ⟨rfl, rfl, fun _ => rfl⟩, fun hrc => by cases hrc⟩
      unfold ziaBackupImport
      rw [hopen]
    | ok plain =>
      obtain ⟨rc, h', himport, hengine, hvault, hfile, haccepted⟩ := ziaBackupImport_outcome hopen
      obtain ⟨hwhen, hwhenNot⟩ := hharmless plain _ hopen rfl
      refine ⟨rc, h', himport, fun hrc => ?_, fun hrc => ?_⟩
      · obtain ⟨hnone, hsame⟩ := hwhenNot (mt haccepted.mpr hrc)
        refine ⟨hengine.trans hsame, hfile hrc, fun file => ?_⟩
        rw [hvault, effects_vault hnone]
      · have hacc := haccepted.mp hrc
        obtain ⟨r, hlast, hflag⟩ := hwhen hacc
        rw [hengine, readInto_hasIdentity _ hlast (effects_accepts hacc.handled)]
        simpa using hflag
  · rintro hheaders ⟨rc, h', himport, hfailed, hsucceeded⟩ plain records hopen rfl
    obtain ⟨rc', h'', himport', hengine, hvault, _, haccepted⟩ := ziaBackupImport_outcome hopen
    obtain ⟨rfl, rfl⟩ := Prod.mk.inj (Option.some.inj (himport.symm.trans himport'))
    constructor
    · intro hacc
      obtain ⟨r, hlast⟩ := lastIdentity_isSome hacc.identity
      have hflag := hsucceeded (haccepted.mpr hacc)
      rw [hengine, readInto_hasIdentity _ hlast (effects_accepts hacc.handled)] at hflag
      exact ⟨r, hlast, by simpa using hflag⟩
    · intro hrefused
      have hsame := hfailed (mt haccepted.mp hrefused)
      refine ⟨fun r hr hkind => ?_, hengine.symm.trans hsame.engine⟩
      obtain ⟨i, header, raw, hheader, hraw, htake⟩ := effects_sealed imp hr hkind
      rw [← hvault, hsame.vault] at hraw
      exact hheaders i header _ raw hheader hraw htake

theorem cleanHost_harmless :
    Harmless namedStream symbolicPwhash workingImport symbolicPassphrase
      (exportedBackup cleanHost) freshHost := by
  have hrun : (ziaBackupImport namedStream symbolicPwhash workingImport symbolicPassphrase
      (exportedBackup cleanHost) freshHost).map (fun r => (r.1, r.2.engine.hasIdentity)) =
        some (none, true) := by decide +kernel
  obtain ⟨⟨rc, h'⟩, himport, hrc⟩ := Option.map_eq_some_iff.mp hrun
  obtain ⟨rfl, hflag⟩ := Prod.mk.inj hrc
  refine (import_atomic_iff namedStream symbolicPwhash workingImport symbolicPassphrase
    (exportedBackup cleanHost) freshHost).2 ?_ ⟨none, h', himport, fun hne => absurd rfl hne,
      fun _ => hflag⟩
  intro i header file raw _ hraw
  cases hraw

/-- The backup with a stray file fails after it has installed the identity. -/
theorem strayHost_halfImported :
    ¬ ImportAtomic namedStream symbolicPwhash workingImport symbolicPassphrase
      (exportedBackup strayHost) freshHost := by
  rintro ⟨rc, h', himport, hfailed, _⟩
  have hrun : (ziaBackupImport namedStream symbolicPwhash workingImport symbolicPassphrase
      (exportedBackup strayHost) freshHost).map (fun r => (r.1, r.2.engine.hasIdentity)) =
        some (some .cryptoFailure, true) := by decide +kernel
  rw [himport, Option.map_some] at hrun
  obtain ⟨rfl, hflag⟩ := Prod.mk.inj (Option.some.inj hrun)
  have hsame := (hfailed fun hrc => by cases hrc).engine
  dsimp only at hflag
  rw [hsame] at hflag
  cases hflag

end ZiaCrypte.Storage

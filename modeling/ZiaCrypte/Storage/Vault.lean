import ZiaCrypte.Storage.Persistence

/-!
# `secure_blob.cpp`: what a write leaves in the vault

A write that succeeds puts a sealed file under its name, and no other file
changes. Where the key store and the disk work, it succeeds, and what it wrote is
read back until the name is written again.
-/
namespace ZiaCrypte.Storage

open ZiaCrypte.Lib ZiaCrypte.Engine

variable {S : SecretStream}

theorem vaultFile_inj {name name' : Bytes} (h : vaultFile name = vaultFile name') : name = name' :=
  List.append_cancel_right h

/-- A write keeps everything but the master key, or puts a sealed file in place. -/
theorem secureWrite_cases (S : SecretStream) (use : WriteUse) (name data : Bytes) (d : Device) :
    ∃ stored,
      secureWrite S use name data d = (false, { d with masterKey := stored }) ∨
      ∃ key header file, validName name = true ∧ use.header = some header ∧
        sealFile S key header data = some file ∧
        secureWrite S use name data d =
          (true, { d with masterKey := stored, vault := d.vault.insert (vaultFile name) file }) := by
  unfold secureWrite
  split
  · exact ⟨d.masterKey, Or.inl rfl⟩
  rename_i hname
  rw [Bool.not_eq_true, Bool.or_eq_false_iff, Bool.not_eq_false'] at hname
  obtain ⟨stored, hframe⟩ := writeKey_frame use d
  refine ⟨stored, ?_⟩
  split
  · rename_i d₁ hkey
    rw [hkey] at hframe
    exact Or.inl (by rw [← hframe])
  · rename_i key d₁ hkey
    rw [hkey] at hframe
    obtain rfl : d₁ = { d with masterKey := stored } := hframe
    split
    · exact Or.inl rfl
    · rename_i file hfile
      obtain ⟨header, hheader, _, hseal⟩ := writtenFile_eq_some hfile
      exact Or.inr ⟨key, header, file, by simpa using hname.2, hheader, hseal, rfl⟩

/-- A file of the vault after a write is that of before, or the one written. -/
theorem secureWrite_file (S : SecretStream) (use : WriteUse) (name data : Bytes) (d : Device)
    (file : Bytes) :
    (secureWrite S use name data d).2.vault.get? file = d.vault.get? file ∨
    ∃ key header raw, file = vaultFile name ∧ use.header = some header ∧
      sealFile S key header data = some raw ∧
      (secureWrite S use name data d).2.vault.get? file = some raw := by
  obtain ⟨stored, hwrite | ⟨key, header, raw, _, hheader, hseal, hwrite⟩⟩ :=
    secureWrite_cases S use name data d
  · exact Or.inl (by rw [hwrite])
  · rw [hwrite]
    by_cases hname : file = vaultFile name
    · subst hname
      exact Or.inr ⟨key, header, raw, rfl, hheader, hseal, d.vault.get?_insert_self _ _⟩
    · exact Or.inl (d.vault.get?_insert_ne raw hname)

/-- What a write that succeeds leaves under its name. -/
theorem secureWrite_written {use : WriteUse} {name data : Bytes} {d : Device}
    (h : (secureWrite S use name data d).1 = true) :
    ∃ key header raw, use.header = some header ∧ sealFile S key header data = some raw ∧
      (secureWrite S use name data d).2.vault.get? (vaultFile name) = some raw := by
  obtain ⟨stored, hwrite | ⟨key, header, raw, _, hheader, hseal, hwrite⟩⟩ :=
    secureWrite_cases S use name data d
  · rw [hwrite] at h
    cases h
  · rw [hwrite]
    exact ⟨key, header, raw, hheader, hseal, d.vault.get?_insert_self _ _⟩

theorem secureRead_cases {use : ReadUse} {name data : Bytes} {d : Device}
    (h : (secureRead S use name d).1 = some data) :
    validName name = true ∧
      ∃ raw key, d.vault.get? (vaultFile name) = some raw ∧ openFile S key raw = some data := by
  unfold secureRead at h
  split at h
  · cases h
  rename_i hname
  rw [Bool.not_eq_true, Bool.or_eq_false_iff] at hname
  obtain ⟨stored, _, hfile⟩ := sealedRead_cases
    (rfl : sealedRead S use (d.vault.get? (vaultFile name)) d = (_, _))
  exact ⟨by simpa using hname.2, hfile data h⟩

/-! ## Where everything works -/

/-- The stream takes every message under the key. -/
def SecretStream.Seals (S : SecretStream) (key : Key) : Prop :=
  ∀ header m, ∃ c, S.push key header m = some c

/-- A use of the key store and the disk at which nothing fails. -/
structure WriteUse.Works (S : SecretStream) (use : WriteUse) : Prop where
  found : use.keyStore.found = true
  loaded : use.keyStore.loaded = true
  stored : use.keyStore.stored = true
  seals : S.Seals use.keyStore.fresh
  directory : use.directory = true
  header : ∃ header, use.header = some header
  written : use.written = true

/-- A device with a folder, on which a key that is there can seal. -/
structure Device.Ready (S : SecretStream) (d : Device) : Prop where
  hasPath : d.hasPath = true
  seals : ∀ key, d.masterKey = some key → S.Seals key

theorem writeKey_works {use : WriteUse} {d : Device} (huse : use.Works S) (hd : d.Ready S) :
    ∃ key, writeKey use d = (some key, { d with masterKey := some key }) ∧ S.Seals key ∧
      ∀ k, d.masterKey = some k → k = key := by
  cases hkey : d.masterKey with
  | none =>
    refine ⟨use.keyStore.fresh, ?_, huse.seals, fun k hk => by cases hk⟩
    simp [writeKey, masterKey, huse.found, huse.stored, huse.directory, hkey]
  | some key =>
    refine ⟨key, ?_, hd.seals key hkey, fun k hk => (Option.some.inj hk).symm⟩
    simp only [writeKey, masterKey, huse.found, huse.loaded, huse.directory, hkey,
      Option.isSome_some, Bool.and_self, if_true]
    rw [← hkey]

theorem writtenFile_works (hS : S.Sound) {use : WriteUse} (huse : use.Works S) {key : Key}
    (hkey : S.Seals key) (plain : Bytes) :
    ∃ file, writtenFile S use key plain = some file ∧ minFileBytes ≤ file.length ∧
      openFile S key file = some plain := by
  obtain ⟨header, hheader⟩ := huse.header
  obtain ⟨c, hpush⟩ := hkey header.bytes plain
  have hseal : sealFile S key header plain = some (header.bytes ++ c) := by
    rw [sealFile, hpush, Option.map_some]
  refine ⟨header.bytes ++ c, ?_, sealFile_length hS hseal, openFile_sealFile hS hseal⟩
  unfold writtenFile
  rw [hheader]
  dsimp only
  rw [hseal]
  dsimp only
  rw [huse.written, if_pos rfl]

/-- The file under the name opens to the data under the master key. -/
def Device.Stores (S : SecretStream) (d : Device) (name data : Bytes) : Prop :=
  ∃ key raw, d.masterKey = some key ∧ d.vault.get? (vaultFile name) = some raw ∧
    minFileBytes ≤ raw.length ∧ openFile S key raw = some data

theorem secureWrite_works (hS : S.Sound) {use : WriteUse} {d : Device} (huse : use.Works S)
    (hd : d.Ready S) {name : Bytes} (hname : validName name = true) (data : Bytes) :
    ∃ d', secureWrite S use name data d = (true, d') ∧ d'.Ready S ∧ d'.Stores S name data ∧
      ∀ name' data', name' ≠ name → d.Stores S name' data' → d'.Stores S name' data' := by
  obtain ⟨key, hwrite, hseals, hsame⟩ := writeKey_works huse hd
  obtain ⟨file, hfile, hlen, hopen⟩ := writtenFile_works hS huse hseals data
  refine ⟨{ d with masterKey := some key, vault := d.vault.insert (vaultFile name) file },
    ?_, ⟨hd.hasPath, ?_⟩, ⟨key, file, rfl, d.vault.get?_insert_self _ _, hlen, hopen⟩, ?_⟩
  · have hguard : (!d.hasPath || !validName name) = false := by rw [hd.hasPath, hname]; rfl
    unfold secureWrite
    rw [hguard, if_neg Bool.false_ne_true, hwrite]
    simp only [hfile]
  · intro k hk
    obtain rfl := Option.some.inj hk
    exact hseals
  · rintro name' data' hne ⟨k, raw, hk, hraw, hlen', hopen'⟩
    obtain rfl := hsame k hk
    refine ⟨k, raw, rfl, ?_, hlen', hopen'⟩
    rw [d.vault.get?_insert_ne file fun h => hne (vaultFile_inj h), hraw]

/-- A save puts the identity in place and leaves the vault. -/
theorem saveIdentity_works (hS : S.Sound) {use : WriteUse} {e : ZiaEngine} {d : Device}
    (huse : use.Works S) (hd : d.Ready S) (he : e.KeyPresent) :
    ∃ d', saveIdentity S use e d = some (true, d') ∧ d'.hasPath = true ∧
      ∀ name data, d.Stores S name data → d'.Stores S name data := by
  obtain ⟨key, hwrite, hseals, hsame⟩ := writeKey_works huse hd
  obtain ⟨plain, hplain⟩ := serializeIdentity_isSome he
  obtain ⟨file, hfile, -, -⟩ := writtenFile_works hS huse hseals plain
  refine ⟨{ d with masterKey := some key, identityFile := some file }, ?_, hd.hasPath, ?_⟩
  · have hguard : (!d.hasPath) = false := by rw [hd.hasPath]; rfl
    unfold saveIdentity
    rw [hguard, if_neg Bool.false_ne_true, hwrite]
    simp only [hplain, Option.bind_eq_bind, Option.bind_some, hfile, Option.pure_def]
  · rintro name data ⟨k, raw, hk, hraw⟩
    obtain rfl := hsame k hk
    exact ⟨k, raw, rfl, hraw⟩

/-- A use at which the key store and the file answer. -/
structure ReadUse.Answers (use : ReadUse) : Prop where
  found : use.keyStore.found = true
  loaded : use.keyStore.loaded = true
  opened : use.opened = true

/-- Whatever answers reads the data. -/
def Device.Reads (S : SecretStream) (d : Device) (name data : Bytes) : Prop :=
  ∀ use : ReadUse, use.Answers → (secureRead S use name d).1 = some data

theorem Device.Stores.reads {d : Device} {name data : Bytes} (h : d.Stores S name data)
    (hpath : d.hasPath = true) (hname : validName name = true) : d.Reads S name data := by
  obtain ⟨key, raw, hkey, hraw, hlen, hopen⟩ := h
  intro use huse
  have hmaster : Storage.masterKey use.keyStore d = (some key, d) := by
    simp [Storage.masterKey, huse.found, huse.loaded, hkey]
  have hguard : (!d.hasPath || !validName name) = false := by rw [hpath, hname]; rfl
  have hopened : (!use.opened) = false := by rw [huse.opened]; rfl
  unfold secureRead sealedRead
  rw [hguard, if_neg Bool.false_ne_true, hraw]
  dsimp only
  rw [hopened, if_neg Bool.false_ne_true, if_neg (by omega), hmaster]
  exact hopen

/-- What can be read at all was put in a file. -/
theorem Device.Reads.opens {d : Device} {name data : Bytes} (h : d.Reads S name data) :
    ∃ raw key, d.vault.get? (vaultFile name) = some raw ∧ openFile S key raw = some data :=
  (secureRead_cases (h ⟨⟨true, true, true, keyZero⟩, true⟩ ⟨rfl, rfl, rfl⟩)).2

end ZiaCrypte.Storage

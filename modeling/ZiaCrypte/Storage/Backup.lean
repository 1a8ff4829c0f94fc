import Mathlib.Data.List.Sort
import ZiaCrypte.Storage.EngineCalls

/-!
# `backup.cpp`: the encrypted backup

The export announces one record for the identity and one for each file of the
vault, then writes the records of those it can read, all in one message under a
key derived from the passphrase. The import acts on each record as it parses it.
-/
namespace ZiaCrypte.Storage

open ZiaCrypte.Lib ZiaCrypte.Engine

/-! ## The format -/

/-- `ZIABKP01` -/
def kMagic : Bytes := [90, 73, 65, 66, 75, 80, 48, 49]

def kOpsLimit : UInt64 := 4

/-- `crypto_pwhash_MEMLIMIT_INTERACTIVE` -/
def kMemLimit : UInt64 := 67108864

def kKindIdentity : UInt8 := 0
def kKindVault : UInt8 := 1

/-- `put_u64` -/
def writeU64Le (v : UInt64) : Bytes :=
  writeU32Le v.toUInt32 ++ writeU32Le (v >>> 32).toUInt32

structure BackupRecord where
  kind : UInt8
  name : Bytes
  data : Bytes
  deriving DecidableEq

def recordBytes (r : BackupRecord) : Bytes :=
  [r.kind] ++ (writeU32Le (UInt32.ofNat r.name.length) ++ (r.name ++
    (writeU32Le (UInt32.ofNat r.data.length) ++ r.data)))

/-- What is encrypted: the number of records announced, then the records. -/
def backupPlain (announced : Nat) (records : List BackupRecord) : Bytes :=
  writeU32Le (UInt32.ofNat announced) ++ records.flatMap recordBytes

structure BackupHeader where
  salt : FixedBytes 16
  ops : UInt64
  mem : UInt64
  header : FixedBytes 24

def headerBytes (b : BackupHeader) : Bytes :=
  kMagic ++ (b.salt.bytes ++ (writeU64Le b.ops ++ (writeU64Le b.mem ++ b.header.bytes)))

def readBytes (n : Nat) : Cursor UInt8 Bytes := .field n id

def readU64 : Cursor UInt8 UInt64 := do
  let low ← readCount
  let high ← readCount
  pure (low.toUInt64 ||| (high.toUInt64 <<< 32))

def readBackupHeader : Cursor UInt8 BackupHeader := do
  let magic ← readBytes kMagic.length
  .check (magic == kMagic)
  let salt ← readFixed 16
  let ops ← readU64
  let mem ← readU64
  let header ← readFixed 24
  pure ⟨salt, ops, mem, header⟩

/-- The bounds on the parameters read from the file; 8192 is `crypto_pwhash_MEMLIMIT_MIN`. -/
def BackupHeader.bounded (b : BackupHeader) : Bool :=
  b.ops != 0 && b.ops ≤ 16 && 8192 ≤ b.mem && b.mem ≤ 1024 * 1024 * 1024

def readRecord : Cursor UInt8 BackupRecord := do
  let kind ← readByte
  let nameLen ← readCount
  let name ← readBytes nameLen.toNat
  let dataLen ← readCount
  let data ← readBytes dataLen.toNat
  pure ⟨kind, name, data⟩

/-! ## The export -/

variable (S : SecretStream) (pwhash : Bytes → FixedBytes 16 → UInt64 → UInt64 → Key)

structure ExportEnv where
  /-- The vault folder can be listed. -/
  listable : Bool
  /-- What `secure_read` meets at each entry. -/
  read : Bytes → ReadUse
  salt : FixedBytes 16
  /-- `crypto_pwhash` finds its memory. -/
  derived : Bool
  header : Option (FixedBytes 24)
  alloc : Bool

/-- The stem of a file whose extension is `.zia`. -/
def ziaStem (file : Bytes) : Option Bytes :=
  let stem := file.take (file.length - ziaExtension.length)
  if stem ≠ [] ∧ file = vaultFile stem then some stem else none

/-- The stems in the vault folder, sorted. -/
def vaultNames (d : Device) : List Bytes :=
  (d.vault.keys.dedup.filterMap ziaStem).insertionSort (· ≤ ·)

/-- `vault_entries` -/
def vaultEntries (listable : Bool) (d : Device) : List Bytes :=
  if listable then vaultNames d else []

/-- The records of the entries that `secure_read` can read. -/
def exportEntries (read : Bytes → ReadUse) : List Bytes → Device → List BackupRecord × Device
  | [], d => ([], d)
  | nom :: noms, d =>
      match secureRead S (read nom) nom d with
      | (none, d) => exportEntries read noms d
      | (some data, d) =>
          let rest := exportEntries read noms d
          (⟨kKindVault, nom, data⟩ :: rest.1, rest.2)

def sealBackup (env : ExportEnv) (passphrase plain : Bytes) : Except ZiaError Bytes :=
  if !env.derived then .error .outOfMemory
  else
    match env.header with
    | none => .error .cryptoFailure
    | some header =>
        match S.push (pwhash passphrase env.salt kOpsLimit kMemLimit) header.bytes plain with
        | none => .error .cryptoFailure
        | some cipher =>
            if !env.alloc then .error .outOfMemory
            else .ok (headerBytes ⟨env.salt, kOpsLimit, kMemLimit, header⟩ ++ cipher)

/-- `zia_backup_export`; `none` when `serialize_identity` faults. -/
def ziaBackupExport (env : ExportEnv) (passphrase : Bytes) (h : Host) :
    Option (Except ZiaError Bytes × Host) :=
  if !h.engine.hasIdentity then some (.error .invalidArg, h)
  else if passphrase.length < 12 then some (.error .invalidArg, h)
  else do
    let identity ← serializeIdentity h.engine
    let noms := vaultEntries env.listable h.device
    let entries := exportEntries S env.read noms h.device
    let plain := backupPlain (1 + noms.length) (⟨kKindIdentity, [], identity⟩ :: entries.1)
    pure (sealBackup S pwhash env passphrase plain, { h with device := entries.2 })

/-! ## The import -/

structure ImportEnv where
  derived : Bool
  /-- What `secure_write` meets at each record. -/
  write : Nat → WriteUse
  save : WriteUse

/-- The part of `zia_backup_import` before the records. -/
def openBackup (env : ImportEnv) (passphrase data : Bytes) : Except ZiaError Bytes :=
  match readBackupHeader.read data 0 with
  | none => .error .invalidArg
  | some (b, off) =>
      if !b.bounded then .error .invalidArg
      else if data.length - off < streamABytes then .error .invalidArg
      else if !env.derived then .error .outOfMemory
      else
        match S.pull (pwhash passphrase b.salt b.ops b.mem) b.header.bytes (data.drop off) with
        | none => .error .cryptoFailure
        | some (plain, tag) => if tag != tagFinal then .error .cryptoFailure else .ok plain

structure Imported where
  ok : Bool
  identiteVue : Bool
  host : Host

/-- What the loop does with one record; a record of another kind is passed over. -/
def importRecord (use : WriteUse) (r : BackupRecord) (vue : Bool) (h : Host) : Imported :=
  if r.kind == kKindIdentity then
    let filled := deserializeIdentity r.data h.engine
    ⟨filled.1, filled.1, { h with engine := filled.2 }⟩
  else if r.kind == kKindVault then
    let written := secureWrite S use r.name r.data h.device
    ⟨written.1, vue, { h with device := written.2 }⟩
  else ⟨true, vue, h⟩

/-- The loop over the records, `i` of them behind it and as many before it as its
first argument says. -/
def importRecords (env : ImportEnv) (plain : Bytes) : Nat → Nat → Nat → Bool → Host → Imported
  | 0, _, _, vue, h => ⟨true, vue, h⟩
  | left + 1, i, off, vue, h =>
      match readRecord.read plain off with
      | none => ⟨false, vue, h⟩
      | some (r, off) =>
          let done := importRecord S (env.write i) r vue h
          if done.ok then importRecords env plain left (i + 1) off done.identiteVue done.host
          else done

def importPlain (env : ImportEnv) (plain : Bytes) (h : Host) : Imported :=
  match readCount.read plain 0 with
  | none => ⟨false, false, h⟩
  | some (count, off) => importRecords S env plain count.toNat 0 off false h

/-- `zia_backup_import` -/
def ziaBackupImport (env : ImportEnv) (passphrase data : Bytes) (h : Host) :
    Option (Option ZiaError × Host) :=
  match openBackup S pwhash env passphrase data with
  | .error rc => some (some rc, h)
  | .ok plain =>
      let done := importPlain S env plain h
      if !done.ok || !done.identiteVue then some (some .cryptoFailure, done.host)
      else do
        let saved ← saveIdentity S env.save done.host.engine done.host.device
        pure (if saved.1 then none else some .storageIo, { done.host with device := saved.2 })

end ZiaCrypte.Storage

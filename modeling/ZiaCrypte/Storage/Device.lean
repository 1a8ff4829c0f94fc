import ZiaCrypte.Lib.LinkedMap
import ZiaCrypte.Storage.IdentityFormat

/-!
# The device: key store, identity file, vault

`identity_store.cpp` and `secure_blob.cpp` over the state of a device. The key
store of the system, the secretstream and the file system are outside; what one
use of them meets is an input of the call. A write goes through a temporary file
and a rename, so it replaces a file or leaves it.
-/
namespace ZiaCrypte.Storage

open ZiaCrypte.Lib ZiaCrypte.Engine

/-- `crypto_secretstream_xchacha20poly1305`: one message under a key and a header. -/
structure SecretStream where
  push : Key → Bytes → Bytes → Option Bytes
  /-- The message and its tag. -/
  pull : Key → Bytes → Bytes → Option (Bytes × UInt8)

/-- `crypto_secretstream_xchacha20poly1305_TAG_FINAL` -/
def tagFinal : UInt8 := 3

/-- What is pushed is pulled back with its tag, under its own key only, and is 17
bytes longer on the way. -/
structure SecretStream.Sound (S : SecretStream) : Prop where
  pull : ∀ key header m c, S.push key header m = some c → S.pull key header c = some (m, tagFinal)
  length : ∀ key header m c, S.push key header m = some c → c.length = m.length + streamABytes
  binds : ∀ key key' header m c r, S.push key header m = some c →
    S.pull key' header c = some r → key' = key

structure Device where
  /-- Whether the engine was given a storage folder. -/
  hasPath : Bool
  /-- What the key store of the system holds. -/
  masterKey : Option Key
  identityFile : Option Bytes
  /-- The regular files of the vault folder, by name. -/
  vault : LinkedMap Bytes Bytes

/-- What one use of the key store meets: whether the lookup of `has_master_key`
answers, whether `load_master_key` can read the key, whether a new one can be
stored, and which. -/
structure KeyStoreUse where
  found : Bool
  loaded : Bool
  stored : Bool
  fresh : Key

structure WriteUse where
  keyStore : KeyStoreUse
  /-- `create_directories` succeeds. -/
  directory : Bool
  header : Option (FixedBytes 24)
  /-- The temporary file is written and renamed. -/
  written : Bool

structure ReadUse where
  keyStore : KeyStoreUse
  opened : Bool

/-- `master_key` and `ensure_master_key`: a key that is not found is replaced. -/
def masterKey (use : KeyStoreUse) (d : Device) : Option Key × Device :=
  if use.found && d.masterKey.isSome then (if use.loaded then d.masterKey else none, d)
  else if use.stored then (some use.fresh, { d with masterKey := some use.fresh })
  else (none, d)

/-- A file as both stores write it: the header, then the one message. -/
def sealFile (S : SecretStream) (key : Key) (header : FixedBytes 24) (plain : Bytes) :
    Option Bytes :=
  (S.push key header.bytes plain).map (header.bytes ++ ·)

def openFile (S : SecretStream) (key : Key) (raw : Bytes) : Option Bytes :=
  (S.pull key (raw.take streamHeaderBytes) (raw.drop streamHeaderBytes)).map (·.1)

/-- `kMin` -/
def minFileBytes : Nat := streamHeaderBytes + streamABytes

variable (S : SecretStream)

/-- The key a write seals under, once the folder is there. -/
def writeKey (use : WriteUse) (d : Device) : Option Key × Device :=
  match masterKey use.keyStore d with
  | (none, d) => (none, d)
  | (some key, d) => (if use.directory then some key else none, d)

/-- The file a write puts in place; `none` when any step up to the rename fails. -/
def writtenFile (use : WriteUse) (key : Key) (plain : Bytes) : Option Bytes :=
  match use.header with
  | none => none
  | some header =>
      match sealFile S key header plain with
      | none => none
      | some file => if use.written then some file else none

/-- What both stores do with the bytes of a file they could open. -/
def sealedRead (use : ReadUse) (file : Option Bytes) (d : Device) : Option Bytes × Device :=
  match file with
  | none => (none, d)
  | some raw =>
      if !use.opened then (none, d)
      else if raw.length < minFileBytes then (none, d)
      else
        match masterKey use.keyStore d with
        | (none, d) => (none, d)
        | (some key, d) => (openFile S key raw, d)

/-! ## `identity_store.cpp` -/

/-- `save_identity`; `none` when `serialize_identity` faults. -/
def saveIdentity (use : WriteUse) (e : ZiaEngine) (d : Device) : Option (Bool × Device) :=
  if !d.hasPath then some (false, d)
  else
    match writeKey use d with
    | (none, d) => some (false, d)
    | (some key, d) => do
        let plain ← serializeIdentity e
        match writtenFile S use key plain with
        | none => pure (false, d)
        | some file => pure (true, { d with identityFile := some file })

/-- `load_identity`: whether it succeeds, the engine as it fills it, the device. -/
def loadIdentity (use : ReadUse) (e : ZiaEngine) (d : Device) : Bool × ZiaEngine × Device :=
  if !d.hasPath then (false, e, d)
  else
    match sealedRead S use d.identityFile d with
    | (none, d) => (false, e, d)
    | (some plain, d) =>
        let r := deserializeIdentity plain e
        (r.1, r.2, d)

/-! ## `secure_blob.cpp` -/

def isAlnum (c : UInt8) : Bool :=
  (48 ≤ c && c ≤ 57) || (65 ≤ c && c ≤ 90) || (97 ≤ c && c ≤ 122)

/-- `valid_name`: one to 128 characters among `[A-Za-z0-9._-]`. -/
def validName (name : Bytes) : Bool :=
  !name.isEmpty && name.length ≤ 128 && name.all fun c => isAlnum c || c == 46 || c == 95 || c == 45

/-- `.zia` -/
def ziaExtension : Bytes := [46, 122, 105, 97]

def vaultFile (name : Bytes) : Bytes := name ++ ziaExtension

def secureWrite (use : WriteUse) (name data : Bytes) (d : Device) : Bool × Device :=
  if !d.hasPath || !validName name then (false, d)
  else
    match writeKey use d with
    | (none, d) => (false, d)
    | (some key, d) =>
        match writtenFile S use key data with
        | none => (false, d)
        | some file => (true, { d with vault := d.vault.insert (vaultFile name) file })

def secureRead (use : ReadUse) (name : Bytes) (d : Device) : Option Bytes × Device :=
  if !d.hasPath || !validName name then (none, d)
  else sealedRead S use (d.vault.get? (vaultFile name)) d

end ZiaCrypte.Storage

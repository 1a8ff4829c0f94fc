import ZiaCrypte.Inbox.Dart
import ZiaCrypte.Storage.Vault

/-!
# `chat_service.dart`: the sessions in the vault

`_saveSessions` writes each session of a conversation as `zia_session_serialize`
exports it, `_restoreSessions` reads back those of the devices it talks to. A
session is sealed under the master key before the vault seals it once more.
-/
namespace ZiaCrypte.Storage

open ZiaCrypte.Lib ZiaCrypte.Engine ZiaCrypte.Inbox

abbrev RatchetSession := ZiaSession Key

/-- What the two loops read of a conversation; the sessions are those its
identifiers stand for. -/
structure ConversationSessions where
  id : Text
  targetDeviceIds : List Text
  sessions : LinkedMap Text RatchetSession

/-- A code unit that is not in `[A-Za-z0-9._-]` becomes `_`. -/
def safeUnit (c : UInt16) : UInt8 :=
  if c < 128 && (isAlnum c.toUInt8 || c == 46 || c == 95 || c == 45) then c.toUInt8 else 95

/-- `_safeKey` -/
def safeKey (prefixUnits id : Text) : Bytes :=
  prefixUnits.map (·.toUInt8) ++ (45 :: id.map safeUnit)

/-- `_safeKey('sess', '${conv.id}-$device')` -/
def sessionKey (id device : Text) : Bytes := safeKey (text "sess") (id ++ (45 :: device))

variable (S : SecretStream)

/-- The platform as the two session calls see it. -/
def storeEnv (masterKey : Option Key) (header : Option (FixedBytes 24)) (alloc : Bool) : StoreEnv where
  masterKey := masterKey
  streamHeader := header
  push := S.push
  pull key header c := (S.pull key header c).map (·.1)
  alloc := alloc

/-! ## Saving -/

structure SaveUse where
  keyStore : KeyStoreUse
  header : Option (FixedBytes 24)
  alloc : Bool
  write : WriteUse

/-- One round of `_saveSessions`: whether the session is in the vault afterwards;
`none` when `serialize_state` faults. -/
def saveSession (use : SaveUse) (id device : Text) (s : RatchetSession) (d : Device) :
    Option (Bool × Device) :=
  let master := masterKey use.keyStore d
  match ziaSessionSerialize (storeEnv S master.1 use.header use.alloc) s with
  | none => none
  | some (.error _) => some (false, master.2)
  | some (.ok blob) => some (secureWrite S use.write (sessionKey id device) blob master.2)

/-- The sessions the vault was given, the last one under each name. -/
abbrev SavedSessions := LinkedMap (Text × Text) RatchetSession

def saveEntries (use : Text → SaveUse) (id : Text) :
    List (Text × RatchetSession) → SavedSessions → Device → Option (SavedSessions × Device)
  | [], saved, d => some (saved, d)
  | (device, s) :: entries, saved, d =>
      match saveSession S (use device) id device s d with
      | none => none
      | some (true, d) => saveEntries use id entries (saved.insert (id, device) s) d
      | some (false, d) => saveEntries use id entries saved d

/-- `_saveSessions` -/
def saveSessions (use : Text → SaveUse) (conv : ConversationSessions) (saved : SavedSessions)
    (d : Device) : Option (SavedSessions × Device) :=
  saveEntries S use conv.id conv.sessions.entries saved d

/-- The calls of `_saveSessions` of a client, on its conversations as they are then. -/
def saveCalls : List ((Text → SaveUse) × ConversationSessions) → SavedSessions → Device →
    Option (SavedSessions × Device)
  | [], saved, d => some (saved, d)
  | call :: calls, saved, d => do
      let r ← saveSessions S call.1 call.2 saved d
      saveCalls calls r.1 r.2

/-! ## Restoring -/

structure RestoreUse where
  read : ReadUse
  /-- The buffer of `zia_secure_read`. -/
  alloc : Bool
  keyStore : KeyStoreUse

/-- `gateway.vaultRead`: a file that cannot be read counts as absent. -/
def vaultRead (use : RestoreUse) (name : Bytes) (d : Device) :
    Except ZiaError (Option Bytes) × Device :=
  match secureRead S use.read name d with
  | (none, d) => (.ok none, d)
  | (some data, d) => (if use.alloc then .ok (some data) else .error .outOfMemory, d)

/-- `gateway.importSession` -/
def importSession (use : RestoreUse) (blob : Bytes) (d : Device) :
    Except ZiaError RatchetSession × Device :=
  if blob.length < minFileBytes then (.error .invalidArg, d)
  else
    let master := masterKey use.keyStore d
    (ziaSessionDeserialize (storeEnv S master.1 none true) blob, master.2)

/-- One round of `_restoreSessions`; what is thrown is swallowed. -/
def restoreSession (use : RestoreUse) (id device : Text)
    (sessions : LinkedMap Text RatchetSession) (d : Device) :
    LinkedMap Text RatchetSession × Device :=
  if sessions.containsKey device then (sessions, d)
  else
    match vaultRead S use (sessionKey id device) d with
    | (.error _, d) => (sessions, d)
    | (.ok none, d) => (sessions, d)
    | (.ok (some blob), d) =>
        if blob.isEmpty then (sessions, d)
        else
          match importSession S use blob d with
          | (.error _, d) => (sessions, d)
          | (.ok s, d) => (sessions.insert device s, d)

/-- `_restoreSessions`, device after device. -/
def restoreSessions (use : Text → RestoreUse) (id : Text) :
    List Text → LinkedMap Text RatchetSession → Device → LinkedMap Text RatchetSession × Device
  | [], sessions, d => (sessions, d)
  | device :: devices, sessions, d =>
      let r := restoreSession S (use device) id device sessions d
      restoreSessions use id devices r.1 r.2

/-- Every conversation of a client, one after the other. -/
def restoreConversations (use : Text → Text → RestoreUse) :
    List ConversationSessions → Device → List ConversationSessions × Device
  | [], d => ([], d)
  | conv :: convs, d =>
      let r := restoreSessions S (use conv.id) conv.id conv.targetDeviceIds conv.sessions d
      let rest := restoreConversations use convs r.2
      ({ conv with sessions := r.1 } :: rest.1, rest.2)

end ZiaCrypte.Storage

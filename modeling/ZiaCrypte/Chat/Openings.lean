import ZiaCrypte.Chat.Client

/-!
# `ChatService`: pins, stored sessions, and opening new ones

Each definition is the body of the method it is named after. A `for` over a live
map reads the map's count of modifications before each turn and throws once it
has changed.
-/
namespace ZiaCrypte.Chat

open ZiaCrypte.Engine ZiaCrypte.Lib
open ZiaCrypte.Lib.Async (raise orElse)

abbrev Task (K α : Type) := Async (Client K) Stmt (Request K) (Reply K) ChatError α

variable {K : Type}

abbrev readState : Task K (Client K) := Async.get

abbrev exec (a : Stmt) : Task K Unit := Async.exec a

abbrev ask (q : Request K) : Task K (Reply K q) := Async.request q

/-- `await f()` on one of our own functions: it suspends once more when `f` is over. -/
def call {α : Type} (x : Task K α) : Task K α := do
  let r ← Async.attempt x
  ask .pause
  match r with
  | .ok a => pure a
  | .error e => raise e

/-- One turn of an iterator: throws if the collection has changed under it. -/
def moveNext (modifications : Nat) (current : Client K → Nat) : Task K Unit := do
  let s ← readState
  if current s = modifications then pure () else raise .other

/-! ## `identity_pinning.dart` -/

def savePins : Task K Unit := do
  let s ← readState
  ask (.writeIdentities (s.known.entries.map (·.2)))

def checkAndPin (device : DeviceId) (user : UserId) (identityKey : PublicKey) : Task K Unit := do
  let s ← readState
  match s.known.get? device with
  | none =>
      exec (.pin ⟨device, user, identityKey, false⟩)
      exec (.checked device identityKey)
      call savePins
  | some existing =>
      if existing.identityKey ≠ identityKey then
        raise (.identityChanged ⟨device, user, existing.identityKey, identityKey⟩)
      else exec (.checked device identityKey)

def acceptChange (device : DeviceId) (user : UserId) (identityKey : PublicKey) : Task K Unit := do
  exec (.pin ⟨device, user, identityKey, false⟩)
  call savePins

def acceptIdentityChange (device : DeviceId) : Task K Unit := do
  let s ← readState
  match s.identityAlerts.get? device with
  | none => pure ()
  | some alert =>
      call (acceptChange device alert.userId alert.current)
      exec (.removeAlert device)

def markVerified (device : DeviceId) (verified : Bool) : Task K Unit := do
  let s ← readState
  match s.known.get? device with
  | none => pure ()
  | some existing =>
      exec (.pin { existing with verified := verified })
      call savePins

/-! ## Persistence -/

def saveConversations : Task K Unit := do
  let s ← readState
  ask (.writeConversations
    (s.conversations.entries.map fun e => (s.conversation e.2).toJson))

def saveHistory : Task K Unit := ask .history

def readHistory : Task K Unit := orElse (ask .history) fun _ => pure ()

def sessionsCount (conv : Ref) (s : Client K) : Nat := (s.conversation conv).sessions.modifications

def targetsCount (conv : Ref) (s : Client K) : Nat :=
  (s.conversation conv).targetDeviceIds.modifications

/-- The body of the loop of `_saveSessions`. -/
def saveSession (conv : Ref) (device : DeviceId) (session : SessionId) : Task K Unit :=
  orElse
    (do
      let blob ← ask (.exportSession session)
      let s ← readState
      ask (.writeSession (s.conversation conv).id device blob))
    fun _ => pure ()

def saveEach (conv : Ref) (modifications : Nat) : List DeviceId → Task K Unit
  | [] => moveNext modifications (sessionsCount conv)
  | device :: devices => do
      moveNext modifications (sessionsCount conv)
      let s ← readState
      match s.sessionOf conv device with
      | none => raise .other
      | some session => saveSession conv device session
      saveEach conv modifications devices

def saveSessions (conv : Ref) : Task K Unit := do
  let s ← readState
  saveEach conv (sessionsCount conv s) (s.conversation conv).sessions.keys

/-- The body of the loop of `_restoreSessions`. -/
def restoreSession (conv : Ref) (device : DeviceId) : Task K Unit :=
  orElse
    (do
      let s ← readState
      let blob ← ask (.readSession (s.conversation conv).id device)
      match blob with
      | none => pure ()
      | some blob =>
          let session ← ask (.importSession blob)
          exec (.install conv device session .imported))
    fun _ => pure ()

def restoreEach (conv : Ref) (modifications : Nat) : List DeviceId → Task K Unit
  | [] => moveNext modifications (targetsCount conv)
  | device :: devices => do
      moveNext modifications (targetsCount conv)
      let s ← readState
      if (s.conversation conv).sessions.containsKey device then pure ()
      else restoreSession conv device
      restoreEach conv modifications devices

def restoreSessions (conv : Ref) : Task K Unit := do
  let s ← readState
  restoreEach conv (targetsCount conv s) (s.conversation conv).targetDeviceIds.keys

/-- The objects `_loadConversations` makes of the saved list. -/
def loadEach : List SavedConversation → Task K Unit
  | [] => pure ()
  | saved :: rest => do
      let s ← readState
      exec (.create (.fromJson saved))
      call readHistory
      exec (.register saved.id s.objects.length)
      loadEach rest

def loadConversations : Task K Unit :=
  orElse
    (do
      let saved ← ask .readConversations
      loadEach saved)
    fun _ => pure ()

def chargerJetons : Task K Unit :=
  orElse
    (do
      let jetons ← ask .readJetons
      exec (.loadJetons jetons))
    fun _ => exec (.loadJetons [])

/-- From `pinning.load()` on; the background tasks it starts are tasks of their own. -/
def adoptSession : Task K Unit := do
  exec (.setPhase .opening)
  let identities ← call (ask .readIdentities)
  exec (.loadIdentities identities)
  call chargerJetons
  call loadConversations
  exec (.setPhase .connected)

/-! ## Opening sessions -/

/-- The body of the loop of `_openSessionsWith`. -/
def openSession (conv : Ref) (targetUserId : UserId) (b : BundleJson) : Task K Unit := do
  let s ← readState
  if b.deviceId = s.deviceId then pure ()
  else
    exec (.addTarget conv b.deviceId)
    if targetUserId = s.userId then exec (.addOwn conv b.deviceId) else pure ()
    if (s.conversation conv).sessions.containsKey b.deviceId then pure ()
    else
      let pinned ← (call (checkAndPin b.deviceId targetUserId b.identityKey)).attempt
      match pinned with
      | .error (.identityChanged alert) =>
          exec (.putAlert alert)
          exec (.removeTarget conv b.deviceId)
      | .error e => raise e
      | .ok _ =>
          exec (.removeAnnonce conv)
          let init ← ask (.startSession b.toBundle)
          exec (.install conv b.deviceId init.1 (.initiated init.2))

def openEach (conv : Ref) (targetUserId : UserId) : List BundleJson → Task K Unit
  | [] => pure ()
  | b :: bundles => do
      openSession conv targetUserId b
      openEach conv targetUserId bundles

def openSessionsWith (conv : Ref) (targetUserId : UserId) : Task K Unit := do
  let bundles ← ask (.prekeyBundles targetUserId)
  openEach conv targetUserId bundles

end ZiaCrypte.Chat

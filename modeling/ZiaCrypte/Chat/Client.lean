import ZiaCrypte.Lib.Async
import ZiaCrypte.Lib.LinkedMap
import ZiaCrypte.Chat.Envelope

/-!
# The client: its memory, its engine and its vault

The Dart heap of `ChatService`, the engine isolate behind it and the encrypted
vault on disk. The isolate serves its requests one at a time in the order they
were sent; the server answers whenever it likes. A crash loses the heap and the
isolate and keeps the vault and the identity file.

`Record` and the journal are not part of the program. They keep what the
statements about it talk about: what was sealed under which key, what left the
device, what the server took, and what this launch installed or checked.
-/
namespace ZiaCrypte.Chat

open ZiaCrypte.Engine ZiaCrypte.Lib

abbrev ConvId := Nat
abbrev DeviceId := Nat
abbrev UserId := Nat
abbrev Jeton := Nat

/-- A `Conversation` object of the heap. -/
abbrev Ref := Nat

/-- The opaque identifier of a session of the isolate. -/
abbrev SessionId := Nat

/-- A sender key of the engine, by the order of its creation. -/
abbrev SenderKey := Nat

/-- What a decoded payload is to the client. -/
inductive Payload where
  | message (text : Bytes)
  | annonce (name : Bytes)
  | sync (conv : ConvId) (peerId : Option UserId) (group : Bool) (members : List UserId)
  | cleGroupe (key : SenderKey)
  | jeton (device : DeviceId) (jeton : Jeton)
  | controle (text : Bytes)
  deriving DecidableEq

/-- The primitives, and the JSON and the padding around a payload. -/
structure Platform (K : Type) extends X3dhPrimitives K where
  encodePayload : Payload → Bytes
  decodePayload : Bytes → Payload

/-! ## The heap -/

structure ContactIdentity where
  deviceId : DeviceId
  userId : UserId
  identityKey : PublicKey
  verified : Bool
  deriving DecidableEq

structure IdentityChangedException where
  deviceId : DeviceId
  userId : UserId
  previous : PublicKey
  current : PublicKey
  deriving DecidableEq

inductive ChatError where
  | identityChanged (alert : IdentityChangedException)
  | other
  deriving DecidableEq

structure Conversation where
  id : ConvId
  peerUserId : Option UserId
  isGroup : Bool
  isChannel : Bool
  memberUserIds : LinkedSet UserId
  ownDeviceIds : LinkedSet DeviceId
  targetDeviceIds : LinkedSet DeviceId
  sessions : LinkedMap DeviceId SessionId
  deriving DecidableEq

def Conversation.new (id : ConvId) (peerUserId : Option UserId) : Conversation where
  id := id
  peerUserId := peerUserId
  isGroup := false
  isChannel := false
  memberUserIds := .empty
  ownDeviceIds := .empty
  targetDeviceIds := .empty
  sessions := .empty

/-- What `Conversation.toJson` keeps of the fields above. -/
structure SavedConversation where
  id : ConvId
  peerUserId : Option UserId
  isGroup : Bool
  isChannel : Bool
  members : List UserId
  own : List DeviceId
  devices : List DeviceId
  deriving DecidableEq

def Conversation.toJson (c : Conversation) : SavedConversation where
  id := c.id
  peerUserId := c.peerUserId
  isGroup := c.isGroup
  isChannel := c.isChannel
  members := c.memberUserIds.keys
  own := c.ownDeviceIds.keys
  devices := c.targetDeviceIds.keys

def Conversation.fromJson (c : SavedConversation) : Conversation where
  id := c.id
  peerUserId := c.peerUserId
  isGroup := c.isGroup
  isChannel := c.isChannel
  memberUserIds := .ofList c.members
  ownDeviceIds := .ofList c.own
  targetDeviceIds := .ofList c.devices
  sessions := .empty

/-! ## Messages -/

/-- A message for one device, as the server relays it. -/
structure DeviceMessage where
  conversationId : ConvId
  recipientDeviceId : DeviceId
  header : Bytes
  ciphertext : Bytes
  deriving DecidableEq

/-- The inside of a sealed message this client writes. -/
structure Interieur where
  sd : DeviceId
  su : UserId
  cv : ConvId
  h : Bytes
  c : Bytes
  deriving DecidableEq

/-- `sealedSeal`: only the holder of `identity` sees the inside. -/
structure Scelle where
  identity : PublicKey
  interieur : Interieur
  deriving DecidableEq

def Scelle.toMessage (scelle : Scelle) (device : DeviceId) : DeviceMessage :=
  ⟨scelle.interieur.cv, device, scelle.interieur.h, scelle.interieur.c⟩

/-- A group message: the sender key and the plaintext under it. -/
structure GroupCiphertext where
  key : SenderKey
  plaintext : Bytes
  deriving DecidableEq

/-- One entry of `GET /messages`; any field may be missing. -/
structure ServerMessage where
  isSealed : Bool
  channelId : Option ConvId
  senderDeviceId : Option DeviceId
  senderUserId : Option UserId
  conversationId : Option ConvId
  header : Option Bytes
  ciphertext : Option Bytes
  deriving DecidableEq

/-- The JSON inside a sealed message that arrives. -/
structure SealedJson where
  sd : Option DeviceId
  su : Option UserId
  cv : Option ConvId
  h : Option Bytes
  c : Option Bytes
  deriving DecidableEq

/-- One device of `GET /users/:id/prekey-bundles`. -/
structure BundleJson where
  deviceId : DeviceId
  identityKey : PublicKey
  signedPrekey : PublicKey
  signedPrekeySignature : Bytes
  oneTimePrekey : Option PublicKey
  deriving DecidableEq

def BundleJson.toBundle (b : BundleJson) : ZiaPrekeyBundle :=
  ⟨b.identityKey, b.signedPrekey, b.signedPrekeySignature, b.oneTimePrekey, none⟩

/-- A signal on the WebSocket that reaches `_recevoirSignalAppel`. -/
structure CallSignal where
  sender : DeviceId
  invite : Bool
  entete : Bytes
  chiffre : Bytes
  deriving DecidableEq

/-! ## The isolate and the vault -/

/-- The handshake a native session comes from: one this client began, or one it
took up. Its number tells it from the others. -/
inductive Origin where
  | initiated (number : Nat) (handshake : ZiaHandshakeMaterial)
  | accepted (number : Nat) (handshake : ZiaHandshakeMaterial)
  deriving DecidableEq

def Origin.number : Origin → Nat
  | .initiated number _ => number
  | .accepted number _ => number

structure EngineSession (K : Type) where
  state : ZiaSession K
  origin : Origin

/-- An exported session. `sealedBefore` counts the messages its ratchet had
sealed by then. -/
structure StoredSession (K : Type) where
  state : ZiaSession K
  origin : Origin
  sealedBefore : Nat

structure Coffre (K : Type) where
  sess : LinkedMap (ConvId × DeviceId) (StoredSession K)
  convs : List SavedConversation
  contactIdentities : List ContactIdentity
  jetonsRemise : List (DeviceId × Jeton)

/-- How a session got into `conv.sessions`. The poll loop took the handshake up
when the journal had `since` entries. -/
inductive Source where
  | imported
  | initiated (handshake : ZiaHandshakeMaterial)
  | accepted (since : Nat) (senderUserId : Option UserId) (handshake : ZiaHandshakeMaterial)
  | acceptedCall (handshake : ZiaHandshakeMaterial)
  deriving DecidableEq

/-- What this launch did, newest first. `pinned` is the key pinned for the device
when the session was installed; `read` is what the vault had for a device. -/
inductive Entry where
  | installed (conv : ConvId) (device : DeviceId) (session : SessionId) (source : Source)
    (pinned : Option PublicKey)
  | checked (device : DeviceId) (identityKey : PublicKey)
  | opened (conv : ConvId) (sender : DeviceId) (session : SessionId)
  | prepared (session : SessionId) (message : DeviceMessage)
  | read (conv : ConvId) (device : DeviceId) (origin : Origin) (sealedBefore : Nat)
  deriving DecidableEq

/-- A successful `zia_session_encrypt`. -/
structure Seal (K : Type) where
  origin : Origin
  key : K
  plaintext : Bytes
  message : EncryptedMessage

/-- A message given to the network, and how many sender keys existed by then. -/
structure Sent where
  message : DeviceMessage
  senderKeys : Nat
  deriving DecidableEq

/-- What has happened over all launches, newest first. `matched` has the keys that
were compared with the pin of a device, or were its pin when a session was
installed for it; `refreshed` has the members a completed refresh was told. -/
structure Record (K : Type) where
  seals : List (Seal K)
  exports : List (StoredSession K)
  matched : List (DeviceId × PublicKey)
  refreshed : List (ConvId × List UserId)
  sent : List Sent
  sentToGroup : List (ConvId × List DeviceId × GroupCiphertext)
  accepted : List DeviceMessage

/-- Where `_adoptSession` stands. -/
inductive Phase where
  | off
  | opening
  | connected
  deriving DecidableEq

structure Client (K : Type) where
  userId : UserId
  deviceId : DeviceId
  phase : Phase
  objects : List Conversation
  conversations : LinkedMap ConvId Ref
  activeConversationId : Option ConvId
  pendingHandshakes : LinkedMap (ConvId × DeviceId) ZiaHandshakeMaterial
  cleGroupeDistribuee : LinkedMap ConvId (List DeviceId)
  jetonsRemise : LinkedMap DeviceId Jeton
  monJeton : Option Jeton
  jetonAnnonce : LinkedSet ConvId
  known : LinkedMap DeviceId ContactIdentity
  identityAlerts : LinkedMap DeviceId IdentityChangedException
  enAppel : Bool
  nextTicket : Nat
  engineQueue : List Nat
  engine : ZiaEngine K
  sessions : LinkedMap SessionId (EngineSession K)
  nextSession : SessionId
  nextOrigin : Nat
  senderKeys : LinkedMap ConvId SenderKey
  nextSenderKey : SenderKey
  coffre : Coffre K
  journal : List Entry
  /-- The sender keys created before this launch. -/
  keysAtLaunch : SenderKey
  record : Record K

namespace Client

variable {K : Type}

def conversation (s : Client K) (conv : Ref) : Conversation :=
  s.objects.getD conv (.new 0 none)

def sessionOf (s : Client K) (conv : Ref) (device : DeviceId) : Option SessionId :=
  (s.conversation conv).sessions.get? device

/-- `Conversation? get active` -/
def active (s : Client K) : Option Ref := s.activeConversationId.bind s.conversations.get?

def updateConversation (s : Client K) (conv : Ref) (f : Conversation → Conversation) : Client K :=
  { s with objects := s.objects.modify conv f }

/-- `bool get ready` -/
def ready (s : Client K) (conv : Ref) : Bool :=
  (s.conversation conv).isChannel || !(s.conversation conv).sessions.keys.isEmpty

def pinnedKey (s : Client K) (device : DeviceId) : Option PublicKey :=
  (s.known.get? device).map (·.identityKey)

/-- What the journal holds beyond its first `n` entries. -/
def since (s : Client K) (n : Nat) : List Entry := s.journal.take (s.journal.length - n)

/-- `_convPourDevice` -/
def convPourDevice (s : Client K) (device : DeviceId) : Option Ref :=
  (s.conversations.entries.map (·.2)).find? fun conv =>
    !(s.conversation conv).isGroup && !(s.conversation conv).isChannel &&
      (s.conversation conv).sessions.containsKey device

/-- The handshake a native session comes from. -/
def originOf (s : Client K) (session : SessionId) : Option Origin :=
  (s.sessions.get? session).map (·.origin)

/-- Messages sealed so far on the ratchet of one handshake. -/
def sealedOn (s : Client K) (origin : Origin) : Nat :=
  (s.record.seals.filter fun e => e.origin = origin).length

/-- The first launch on a device whose engine holds an identity. -/
def initial (userId : UserId) (deviceId : DeviceId) (engine : ZiaEngine K) : Client K where
  userId := userId
  deviceId := deviceId
  phase := .off
  objects := []
  conversations := .empty
  activeConversationId := none
  pendingHandshakes := .empty
  cleGroupeDistribuee := .empty
  jetonsRemise := .empty
  monJeton := none
  jetonAnnonce := .empty
  known := .empty
  identityAlerts := .empty
  enAppel := false
  nextTicket := 0
  engineQueue := []
  engine := engine
  sessions := .empty
  nextSession := 1
  nextOrigin := 0
  senderKeys := .empty
  nextSenderKey := 0
  coffre := ⟨.empty, [], [], []⟩
  journal := []
  keysAtLaunch := 0
  record := ⟨[], [], [], [], [], [], []⟩

/-- The process dies. -/
def crash (s : Client K) : Client K :=
  { initial s.userId s.deviceId s.engine with
    nextTicket := s.nextTicket
    nextSession := s.nextSession
    nextOrigin := s.nextOrigin
    nextSenderKey := s.nextSenderKey
    coffre := s.coffre
    keysAtLaunch := s.nextSenderKey
    record := s.record }

end Client

/-! ## Statements -/

/-- The assignments of `ChatService`. `checked`, `prepared`, `opened` and `refreshed`
only note that a key was compared, that a message was put together, that a
plaintext was taken as the sender's, and that the members were refreshed. -/
inductive Stmt where
  | setPhase (phase : Phase)
  | create (conv : Conversation)
  | register (id : ConvId) (conv : Ref)
  | setActive (id : ConvId)
  | setPeerUserId (conv : Ref) (user : UserId)
  | completePeerUserId (conv : Ref) (user : Option UserId)
  | setGroup (conv : Ref)
  | clearMembers (conv : Ref)
  | addMembers (conv : Ref) (users : List UserId)
  | addTarget (conv : Ref) (device : DeviceId)
  | removeTarget (conv : Ref) (device : DeviceId)
  | addOwn (conv : Ref) (device : DeviceId)
  | install (conv : Ref) (device : DeviceId) (session : SessionId) (source : Source)
  | removePending (conv : Ref) (device : DeviceId)
  | putServed (conv : Ref) (devices : List DeviceId)
  | removeServed (conv : Ref)
  | pin (identity : ContactIdentity)
  | putAlert (alert : IdentityChangedException)
  | removeAlert (device : DeviceId)
  | loadIdentities (identities : List ContactIdentity)
  | putJeton (device : DeviceId) (jeton : Jeton)
  | loadJetons (jetons : List (DeviceId × Jeton))
  | setMonJeton (jeton : Jeton)
  | addAnnonce (conv : Ref)
  | removeAnnonce (conv : Ref)
  | setEnAppel (enAppel : Bool)
  | socketAdd (message : DeviceMessage)
  | checked (device : DeviceId) (identityKey : PublicKey)
  | prepared (session : SessionId) (message : DeviceMessage)
  | opened (conv : Ref) (sender : DeviceId) (session : SessionId)
  | refreshed (conv : Ref) (members : List UserId)
  deriving DecidableEq

variable {K : Type}

def Client.note (s : Client K) (e : Entry) : Client K := { s with journal := e :: s.journal }

def Client.matchKey (s : Client K) (device : DeviceId) (identityKey : PublicKey) : Client K :=
  { s with record := { s.record with matched := (device, identityKey) :: s.record.matched } }

/-- A message leaves the device. -/
def Client.send (s : Client K) (m : DeviceMessage) : Client K :=
  { s with record := { s.record with sent := ⟨m, s.nextSenderKey⟩ :: s.record.sent } }

/-- `conv.sessions[device] = session`; an opening also assigns
`_pendingHandshakes`, with no await in between. -/
def Client.install (s : Client K) (conv : Ref) (device : DeviceId) (session : SessionId)
    (source : Source) : Client K :=
  let s' := s.updateConversation conv fun c => { c with sessions := c.sessions.insert device session }
  let noted := s'.note
    (.installed (s.conversation conv).id device session source (s.pinnedKey device))
  let matched := (s.pinnedKey device).elim noted (noted.matchKey device)
  match source with
  | .initiated handshake =>
      { matched with
        pendingHandshakes :=
          s.pendingHandshakes.insert ((s.conversation conv).id, device) handshake }
  | _ => matched

def Stmt.apply : Stmt → Client K → Client K
  | .setPhase phase, s => { s with phase := phase }
  | .create conv, s => { s with objects := s.objects ++ [conv] }
  | .register id conv, s => { s with conversations := s.conversations.insert id conv }
  | .setActive id, s => { s with activeConversationId := some id }
  | .setPeerUserId conv user, s =>
      s.updateConversation conv fun c => { c with peerUserId := some user }
  | .completePeerUserId conv user, s =>
      s.updateConversation conv fun c => { c with peerUserId := c.peerUserId.or user }
  | .setGroup conv, s => s.updateConversation conv fun c => { c with isGroup := true }
  | .clearMembers conv, s =>
      s.updateConversation conv fun c => { c with memberUserIds := c.memberUserIds.clear }
  | .addMembers conv users, s =>
      s.updateConversation conv fun c =>
        { c with memberUserIds := LinkedSet.addAll c.memberUserIds users }
  | .addTarget conv device, s =>
      s.updateConversation conv fun c =>
        { c with targetDeviceIds := LinkedSet.add c.targetDeviceIds device }
  | .removeTarget conv device, s =>
      s.updateConversation conv fun c =>
        { c with targetDeviceIds := c.targetDeviceIds.erase device }
  | .addOwn conv device, s =>
      s.updateConversation conv fun c =>
        { c with ownDeviceIds := LinkedSet.add c.ownDeviceIds device }
  | .install conv device session source, s => s.install conv device session source
  | .removePending conv device, s =>
      { s with
        pendingHandshakes := s.pendingHandshakes.erase ((s.conversation conv).id, device) }
  | .putServed conv devices, s =>
      { s with cleGroupeDistribuee := s.cleGroupeDistribuee.insert (s.conversation conv).id devices }
  | .removeServed conv, s =>
      { s with cleGroupeDistribuee := s.cleGroupeDistribuee.erase (s.conversation conv).id }
  | .pin identity, s => { s with known := s.known.insert identity.deviceId identity }
  | .putAlert alert, s => { s with identityAlerts := s.identityAlerts.insert alert.deviceId alert }
  | .removeAlert device, s => { s with identityAlerts := s.identityAlerts.erase device }
  | .loadIdentities identities, s =>
      { s with known := identities.foldl (fun m i => m.insert i.deviceId i) s.known.clear }
  | .putJeton device jeton, s => { s with jetonsRemise := s.jetonsRemise.insert device jeton }
  | .loadJetons jetons, s =>
      { s with jetonsRemise := jetons.foldl (fun m e => m.insert e.1 e.2) s.jetonsRemise.clear }
  | .setMonJeton jeton, s => { s with monJeton := some jeton }
  | .addAnnonce conv, s =>
      { s with jetonAnnonce := LinkedSet.add s.jetonAnnonce (s.conversation conv).id }
  | .removeAnnonce conv, s =>
      { s with jetonAnnonce := s.jetonAnnonce.erase (s.conversation conv).id }
  | .setEnAppel enAppel, s => { s with enAppel := enAppel }
  | .socketAdd m, s => s.send m
  | .checked device identityKey, s =>
      (s.note (.checked device identityKey)).matchKey device identityKey
  | .prepared session m, s => s.note (.prepared session m)
  | .opened conv sender session, s => s.note (.opened (s.conversation conv).id sender session)
  | .refreshed conv members, s =>
      { s with record := { s.record with
        refreshed := ((s.conversation conv).id, members) :: s.record.refreshed } }

/-! ## Requests -/

/-- What an `await` of `ChatService` waits for. `pause` is the `await` of one of
its own functions once that is over, `history` any access to the history, which
is not modelled, and `accuses` the read receipts it would call for. -/
inductive Request (K : Type) where
  | pause
  | history
  | accuses (conv : Ref)
  | encrypt (session : SessionId) (plaintext : Bytes)
  | decrypt (session : SessionId) (header ciphertext : Bytes)
  | exportSession (session : SessionId)
  | importSession (blob : StoredSession K)
  | startSession (bundle : ZiaPrekeyBundle)
  | acceptSession (handshake : ZiaHandshakeMaterial)
  | readSession (conv : ConvId) (device : DeviceId)
  | writeSession (conv : ConvId) (device : DeviceId) (blob : StoredSession K)
  | readConversations
  | writeConversations (data : List SavedConversation)
  | readIdentities
  | writeIdentities (data : List ContactIdentity)
  | readJetons
  | writeJetons (data : List (DeviceId × Jeton))
  | senderKeyCreate (conv : ConvId)
  | senderKeyEncrypt (conv : ConvId) (plaintext : Bytes)
  | senderKeyDecrypt (conv : ConvId) (sender : DeviceId) (ciphertext : Bytes)
  | senderKeyProcess (conv : ConvId) (sender : DeviceId) (key : SenderKey)
  | sealedSeal (identity : PublicKey) (interieur : Interieur)
  | sealedOpen (scelle : Bytes)
  | prekeyBundles (user : UserId)
  | lookupUser
  | createConversation (user : UserId)
  | createGroup (members : List UserId)
  | conversationMembers (conv : ConvId)
  | sendMessage (message : DeviceMessage)
  | sendGroupMessage (conv : ConvId) (devices : List DeviceId) (ciphertext : GroupCiphertext)
  | deposerScelle (jeton : Jeton) (device : DeviceId) (scelle : Scelle)
  | fetchMessages
  | publierJetonRemise

abbrev Reply (K : Type) : Request K → Type
  | .accuses _ => Option Bytes
  | .encrypt _ _ => EncryptedMessage
  | .decrypt _ _ _ => Bytes
  | .exportSession _ => StoredSession K
  | .importSession _ => SessionId
  | .startSession _ => SessionId × ZiaHandshakeMaterial
  | .acceptSession _ => SessionId
  | .readSession _ _ => Option (StoredSession K)
  | .readConversations => List SavedConversation
  | .readIdentities => List ContactIdentity
  | .readJetons => List (DeviceId × Jeton)
  | .senderKeyCreate _ => SenderKey
  | .senderKeyEncrypt _ _ => GroupCiphertext
  | .senderKeyDecrypt _ _ _ => Bytes
  | .sealedSeal _ _ => Scelle
  | .sealedOpen _ => SealedJson
  | .prekeyBundles _ => List BundleJson
  | .lookupUser => UserId
  | .createConversation _ => ConvId
  | .createGroup _ => ConvId
  | .conversationMembers _ => List UserId
  | .fetchMessages => List ServerMessage
  | .publierJetonRemise => Jeton
  | _ => Unit

/-- Requests the isolate serves; the others go to the server. -/
def Request.isEngine : Request K → Bool
  | .pause | .accuses _ | .prekeyBundles _ | .lookupUser | .createConversation _ | .createGroup _
  | .conversationMembers _ | .sendMessage _ | .sendGroupMessage _ _ _ | .deposerScelle _ _ _
  | .fetchMessages | .publierJetonRemise => false
  | _ => true

/-- What the outside decides about a request. -/
inductive Outside (K : Type) where
  /-- It throws, and nothing has changed. -/
  | failed
  | done
  /-- It was carried out, and it throws all the same. -/
  | lost
  | call (env : CallEnv K)
  | opening (env : HandshakeEnv K)
  | bundles (bundles : List BundleJson)
  | users (users : List UserId)
  | number (n : Nat)
  | messages (messages : List ServerMessage)
  | json (json : SealedJson)
  | clair (clair : Bytes)

variable (P : Platform K)

/-- The native call behind `encrypt`, on the session it names. -/
def Client.encryptOutcome (s : Client K) (session : SessionId) (plaintext : Bytes)
    (env : CallEnv K) : Option (EngineSession K × Outcome K EncryptedMessage) :=
  (s.sessions.get? session).map fun e =>
    (e, ziaSessionEncrypt P.toPrimitives env e.state plaintext)

def Client.decryptOutcome (s : Client K) (session : SessionId) (header ciphertext : Bytes)
    (env : CallEnv K) : Option (EngineSession K × Outcome K Bytes) :=
  (s.sessions.get? session).map fun e =>
    (e, ziaSessionDecrypt P.toPrimitives env e.state header ciphertext)

def Client.putSession (s : Client K) (session : SessionId) (e : EngineSession K)
    (state : ZiaSession K) : Client K :=
  { s with sessions := s.sessions.insert session { e with state := state } }

/-- A new native session of a new handshake. -/
def Client.openSession (s : Client K) (state : ZiaSession K) (origin : Origin) : Client K :=
  { s with
    sessions := s.sessions.insert s.nextSession ⟨state, origin⟩
    nextSession := s.nextSession + 1
    nextOrigin := s.nextOrigin + 1 }

/-- The message key `zia_session_encrypt` uses. -/
def sendingKey (state : ZiaSession K) : Option K :=
  (kdfCk P.toPrimitives state.sendChainKey).map (·.2)

def Client.recordSeal (s : Client K) (e : EngineSession K) (plaintext : Bytes)
    (message : EncryptedMessage) : Client K :=
  match sendingKey P e.state with
  | none => s
  | some key =>
      { s with record := { s.record with seals := ⟨e.origin, key, plaintext, message⟩ :: s.record.seals } }

def Client.exported (s : Client K) (e : EngineSession K) : StoredSession K :=
  ⟨e.state, e.origin, s.sealedOn e.origin⟩

/-- What a request does once it is carried out. -/
def Request.carryOut : Request K → Outside K → Client K → Client K
  | .encrypt session plaintext, .call env, s =>
      match s.encryptOutcome P session plaintext env with
      | some (e, .ok message state) =>
          (s.recordSeal P e plaintext message).putSession session e state
      | some (e, .error _ state) => s.putSession session e state
      | _ => s
  | .decrypt session header ciphertext, .call env, s =>
      match s.decryptOutcome P session header ciphertext env with
      | some (e, .ok _ state) => s.putSession session e state
      | some (e, .error _ state) => s.putSession session e state
      | _ => s
  | .exportSession session, .done, s =>
      match s.sessions.get? session with
      | some e => { s with record := { s.record with exports := s.exported e :: s.record.exports } }
      | none => s
  | .importSession blob, .done, s =>
      { s with
        sessions := s.sessions.insert s.nextSession ⟨restored P.zero blob.state, blob.origin⟩
        nextSession := s.nextSession + 1 }
  | .startSession bundle, .opening env, s =>
      match ziaSessionFromBundle P.toX3dhPrimitives env s.engine bundle with
      | .ok (state, handshake) => s.openSession state (.initiated s.nextOrigin handshake)
      | .error _ => s
  | .acceptSession handshake, .done, s =>
      match ziaSessionAcceptHandshake P.toX3dhPrimitives s.engine handshake with
      | .ok (state, engine) =>
          { s.openSession state (.accepted s.nextOrigin handshake) with engine := engine }
      | .error _ => s
  | .readSession conv device, .done, s =>
      match s.coffre.sess.get? (conv, device) with
      | some blob => s.note (.read conv device blob.origin blob.sealedBefore)
      | none => s
  | .writeSession conv device blob, .done, s =>
      { s with coffre := { s.coffre with sess := s.coffre.sess.insert (conv, device) blob } }
  | .writeConversations data, .done, s => { s with coffre := { s.coffre with convs := data } }
  | .writeIdentities data, .done, s =>
      { s with coffre := { s.coffre with contactIdentities := data } }
  | .writeJetons data, .done, s => { s with coffre := { s.coffre with jetonsRemise := data } }
  | .senderKeyCreate conv, .done, s | .senderKeyCreate conv, .lost, s =>
      { s with
        senderKeys := s.senderKeys.insert conv s.nextSenderKey
        nextSenderKey := s.nextSenderKey + 1 }
  | .sendMessage m, .done, s | .sendMessage m, .lost, s =>
      { s with record := { s.record with accepted := m :: s.record.accepted } }
  | .deposerScelle _ device scelle, .done, s | .deposerScelle _ device scelle, .lost, s =>
      { s with record := { s.record with accepted := scelle.toMessage device :: s.record.accepted } }
  | _, _, s => s

/-- What the client gets back, from the state the request was carried out in. -/
def Request.answer : (q : Request K) → Outside K → Client K → Except ChatError (Reply K q)
  | .pause, _, _ => .ok ()
  | .history, .done, _ => .ok ()
  | .accuses _, .clair ids, _ => .ok (some ids)
  | .accuses _, .done, _ => .ok none
  | .encrypt session plaintext, .call env, s =>
      match s.encryptOutcome P session plaintext env with
      | some (_, .ok message _) => .ok message
      | _ => .error .other
  | .decrypt session header ciphertext, .call env, s =>
      match s.decryptOutcome P session header ciphertext env with
      | some (_, .ok clair _) => .ok clair
      | _ => .error .other
  | .exportSession session, .done, s =>
      match s.sessions.get? session with
      | some e => .ok (s.exported e)
      | none => .error .other
  | .importSession _, .done, s => .ok s.nextSession
  | .startSession bundle, .opening env, s =>
      match ziaSessionFromBundle P.toX3dhPrimitives env s.engine bundle with
      | .ok (_, handshake) => .ok (s.nextSession, handshake)
      | .error _ => .error .other
  | .acceptSession handshake, .done, s =>
      match ziaSessionAcceptHandshake P.toX3dhPrimitives s.engine handshake with
      | .ok _ => .ok s.nextSession
      | .error _ => .error .other
  | .readSession conv device, .done, s => .ok (s.coffre.sess.get? (conv, device))
  | .writeSession _ _ _, .done, _ => .ok ()
  | .readConversations, .done, s => .ok s.coffre.convs
  | .writeConversations _, .done, _ => .ok ()
  | .readIdentities, .done, s => .ok s.coffre.contactIdentities
  | .writeIdentities _, .done, _ => .ok ()
  | .readJetons, .done, s => .ok s.coffre.jetonsRemise
  | .writeJetons _, .done, _ => .ok ()
  | .senderKeyCreate _, .done, s => .ok s.nextSenderKey
  | .senderKeyEncrypt conv plaintext, .done, s =>
      match s.senderKeys.get? conv with
      | some key => .ok ⟨key, plaintext⟩
      | none => .error .other
  | .senderKeyDecrypt _ _ _, .clair clair, _ => .ok clair
  | .senderKeyProcess _ _ _, .done, _ => .ok ()
  | .sealedSeal identity interieur, .done, _ => .ok ⟨identity, interieur⟩
  | .sealedOpen _, .json json, _ => .ok json
  | .prekeyBundles _, .bundles bundles, _ => .ok bundles
  | .lookupUser, .number user, _ => .ok user
  | .createConversation _, .number conv, _ => .ok conv
  | .createGroup _, .number conv, _ => .ok conv
  | .conversationMembers _, .users users, _ => .ok users
  | .sendMessage _, .done, _ => .ok ()
  | .sendGroupMessage _ _ _, .done, _ => .ok ()
  | .deposerScelle _ _ _, .done, _ => .ok ()
  | .fetchMessages, .messages messages, _ => .ok messages
  | .publierJetonRemise, .number jeton, _ => .ok jeton
  | _, _, _ => .error .other

/-- A native call that faults takes the process with it and is never answered. -/
def Request.faults : Request K → Outside K → Client K → Bool
  | .encrypt session plaintext, .call env, s =>
      match s.encryptOutcome P session plaintext env with
      | some (_, .fault) => true
      | _ => false
  | .decrypt session header ciphertext, .call env, s =>
      match s.decryptOutcome P session header ciphertext env with
      | some (_, .fault) => true
      | _ => false
  | _, _, _ => false

/-- What the record keeps of a request when it goes out. -/
def Request.log : Request K → Client K → Client K
  | .sendMessage m, s => s.send m
  | .deposerScelle _ device scelle, s => s.send (scelle.toMessage device)
  | .sendGroupMessage conv devices ciphertext, s =>
      { s with record := { s.record with
        sentToGroup := (conv, devices, ciphertext) :: s.record.sentToGroup } }
  | _, s => s

def Request.issue (q : Request K) (s : Client K) : Client K :=
  let s' := q.log s
  { s' with
    nextTicket := s'.nextTicket + 1
    engineQueue := if q.isEngine then s'.engineQueue ++ [s'.nextTicket] else s'.engineQueue }

def Request.settle (ticket : Nat) (q : Request K) (x : Outside K) (s : Client K) : Client K :=
  let s' := q.carryOut P x s
  { s' with engineQueue := s'.engineQueue.filter (· ≠ ticket) }

/-- The isolate takes its requests in order. -/
def Request.ready (ticket : Nat) (q : Request K) (x : Outside K) (s : Client K) : Bool :=
  !q.faults P x s && (!q.isEngine || s.engineQueue.head? == some ticket)

def chatSemantics : Semantics (Client K) Stmt (Request K) (Reply K) ChatError (Outside K) where
  act := Stmt.apply
  issue := Request.issue
  ticket := Client.nextTicket
  ready := Request.ready P
  settle := Request.settle P
  answer := Request.answer P
  crash := Client.crash

end ZiaCrypte.Chat

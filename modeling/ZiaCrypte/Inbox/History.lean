import ZiaCrypte.Inbox.Dart
import ZiaCrypte.Engine.X3dh
import ZiaCrypte.Lib.LinkedMap

/-!
# Conversations, their messages and the state of the client

The engine, the network and the codecs of the platform stand behind `Platform`; a
call that throws answers `none`.
-/
namespace ZiaCrypte.Inbox

open ZiaCrypte.Lib ZiaCrypte.Engine

structure AttachmentRef where
  id : Text
  keyBase64 : Text
  fileName : Text
  size : Int
  voiceDurationMs : Option Int
  deriving DecidableEq

def AttachmentRef.fromJson (json : List (Text × Json)) : Option AttachmentRef := do
  let id ← (field json "id").asString
  let keyBase64 ← (field json "k").asString
  let fileName ← (field json "n").asString
  let size ← (field json "s").asInt
  let voiceDurationMs ← (field json "vd").asInt?
  pure { id, keyBase64, fileName, size, voiceDurationMs }

/-- A message of the thread; times in microseconds. -/
structure ChatMessage where
  text : Text
  mine : Bool
  sentAt : Int
  id : Option Text
  replyToId : Option Text
  replyToText : Option Text
  replyToMine : Option Bool
  attachment : Option AttachmentRef
  pendingReceiptIds : List Text
  delivered : Bool
  editedAt : Option Int
  deletedForEveryone : Bool
  readByPeer : Bool
  readAckSent : Bool
  systeme : Bool
  expiresAt : Option Int
  author : Option Text
  sendFailed : Bool
  reactions : LinkedMap Text (List Text)
  deriving DecidableEq

/-- The defaults of the constructor. -/
def ChatMessage.new (text : Text) (mine : Bool) (sentAt : Int) : ChatMessage where
  text := text
  mine := mine
  sentAt := sentAt
  id := none
  replyToId := none
  replyToText := none
  replyToMine := none
  attachment := none
  pendingReceiptIds := []
  delivered := false
  editedAt := none
  deletedForEveryone := false
  readByPeer := false
  readAckSent := false
  systeme := false
  expiresAt := none
  author := none
  sendFailed := false
  reactions := .empty

/-- What a saved message reads back as: milliseconds, and no failed sending. -/
def ChatMessage.saved (m : ChatMessage) : ChatMessage :=
  { m with
    sentAt := millisecondsSinceEpoch m.sentAt * 1000
    editedAt := m.editedAt.map fun t => millisecondsSinceEpoch t * 1000
    expiresAt := m.expiresAt.map fun t => millisecondsSinceEpoch t * 1000
    sendFailed := false }

structure Conversation where
  id : Text
  peerUsername : Text
  peerUserId : Option Text
  isGroup : Bool
  memberUserIds : List Text
  targetDeviceIds : List Text
  sessions : LinkedMap Text Nat
  messages : List ChatMessage
  lastActivity : Int
  ttlSecondes : Int
  isChannel : Bool
  unread : Nat
  deriving DecidableEq

def Conversation.new (id peerUsername : Text) (lastActivity : Int) : Conversation where
  id := id
  peerUsername := peerUsername
  peerUserId := none
  isGroup := false
  memberUserIds := []
  targetDeviceIds := []
  sessions := .empty
  messages := []
  lastActivity := lastActivity
  ttlSecondes := 0
  isChannel := false
  unread := 0

/-- `toJson` leaves out the sessions and the messages. -/
def Conversation.saved (c : Conversation) : Conversation :=
  { c with
    sessions := .empty
    messages := []
    lastActivity := millisecondsSinceEpoch c.lastActivity * 1000 }

/-- A Dart `Set`, in the order of insertion. -/
def addToSet (set : List Text) (t : Text) : List Text := if t ∈ set then set else set ++ [t]

structure ContactIdentity where
  userId : Text
  identityKey : PublicKey
  deriving DecidableEq

/-- An `IdentityChangedException` that waits for the user. -/
structure IdentityAlert where
  userId : Text
  previous : PublicKey
  current : PublicKey
  deriving DecidableEq

/-- The entries of the vault the inbox writes. -/
structure Coffre where
  hist : LinkedMap Text (List ChatMessage)
  sess : LinkedMap (Text × Text) Bytes
  convs : List Conversation
  statuts : LinkedMap Text Text
  avatars : LinkedMap Text AttachmentRef
  jetons : LinkedMap Text Text
  contactIdentities : LinkedMap Text ContactIdentity
  deriving DecidableEq

/-- The client and, in `outside`, the engine and the network. -/
structure State (E : Type) where
  userId : Option Text
  username : Option Text
  conversations : LinkedMap Text Conversation
  activeConversationId : Option Text
  statuts : LinkedMap Text Text
  avatars : LinkedMap Text AttachmentRef
  jetonsRemise : LinkedMap Text Text
  known : LinkedMap Text ContactIdentity
  identityAlerts : LinkedMap Text IdentityAlert
  accusesLectureActifs : Bool
  error : Bool
  coffre : Coffre
  outside : E

/-- `diffuserLu` sends a read receipt to the devices of a conversation, and says which
of its sessions were saved on the way. -/
structure Platform (E : Type) where
  jsonDecode : Text → Option Json
  utf8Decode : Bytes → Option Text
  utf8DecodeMalformed : Bytes → Text
  base64Decode : Text → Option Bytes
  sealedOpen : Bytes → E → Option Bytes × E
  acceptSession : ZiaHandshakeMaterial → E → Option Nat × E
  importSession : Bytes → E → Option Nat × E
  exportSession : Nat → E → Option Bytes × E
  decrypt : Nat → Bytes → Bytes → E → Option Bytes × E
  senderKeyDecrypt : Text → Text → Bytes → E → Option Bytes × E
  senderKeyProcess : Text → Text → Bytes → E → E
  diffuserLu : Conversation → List Text → E → List (Text × Bytes) × E

variable {E : Type}

namespace State

def conv? (s : State E) (id : Text) : Option Conversation := s.conversations.get? id

def putConv (s : State E) (id : Text) (c : Conversation) : State E :=
  { s with conversations := s.conversations.insert id c }

/-- The messages of a conversation that is in memory. -/
def messagesIn (s : State E) (id : Text) : List ChatMessage :=
  ((s.conv? id).map (·.messages)).getD []

/-! ## Saving and reading back -/

def saveHistory (s : State E) (id : Text) : State E :=
  match s.conv? id with
  | none => s
  | some c => { s with coffre := { s.coffre with
      hist := s.coffre.hist.insert id (c.messages.map ChatMessage.saved) } }

def readHistory (s : State E) (id : Text) : List ChatMessage := (s.coffre.hist.get? id).getD []

def saveConversations (s : State E) : State E :=
  { s with coffre := { s.coffre with
    convs := s.conversations.entries.map fun e => e.2.saved } }

def saveStatuts (s : State E) : State E :=
  { s with coffre := { s.coffre with statuts := s.statuts } }

def saveAvatars (s : State E) : State E :=
  { s with coffre := { s.coffre with avatars := s.avatars } }

def saveJetons (s : State E) : State E :=
  { s with coffre := { s.coffre with jetons := s.jetonsRemise } }

end State

end ZiaCrypte.Inbox

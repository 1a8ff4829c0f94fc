import ZiaCrypte.Lib.Cascade
import ZiaCrypte.Server.TwoFactor

/-!
# `schema.prisma`: the keys between the tables

Every table with its primary key and its foreign keys, and what each foreign key
does `onDelete`. Of the other columns there are those that the routes over
accounts, the journal and the reports use.

`admin_actions`, `reports` and `audit_log` name accounts without a foreign key,
as `attachment_refs` does the device that sent the object.
-/
namespace ZiaCrypte.Server

open ZiaCrypte.Lib

inductive UserRole where
  | user
  | admin
  deriving DecidableEq

inductive ReceiptEventType where
  | delivered
  | read
  deriving DecidableEq

inductive ReportStatus where
  | open
  | resolved
  | dismissed
  deriving DecidableEq

namespace Rows

structure User where
  id : Uuid
  username : Chars
  passwordHash : Option String
  totpSecret : Option Chars
  totpEnabledAt : Option Nat
  role : UserRole
  deletedAt : Option Nat
  deriving DecidableEq

/-- A row with its own identifier, of a table that only names a device. -/
structure OfDevice where
  id : Uuid
  deviceId : Uuid
  deriving DecidableEq

structure WebauthnCredential where
  id : Uuid
  userId : Uuid
  deriving DecidableEq

structure DeviceSignature where
  id : Uuid
  signerDeviceId : Uuid
  signedDeviceId : Uuid
  deriving DecidableEq

structure Conversation where
  id : Uuid
  createdBy : Option Uuid
  deriving DecidableEq

structure ConversationParticipant where
  conversationId : Uuid
  userId : Uuid
  deriving DecidableEq

structure MessageBlob where
  id : Uuid
  conversationId : Option Uuid
  channelId : Option Uuid
  senderDeviceId : Option Uuid
  recipientDeviceId : Uuid
  deriving DecidableEq

structure MessageReceipt where
  messageBlobId : Uuid
  eventType : ReceiptEventType
  deriving DecidableEq

structure Channel where
  id : Uuid
  adminUserId : Option Uuid
  adminDeviceId : Option Uuid
  deriving DecidableEq

structure ChannelSubscriber where
  channelId : Uuid
  deviceId : Uuid
  userId : Uuid
  deriving DecidableEq

structure AttachmentRef where
  id : Uuid
  conversationId : Option Uuid
  ownerUserId : Option Uuid
  uploaderDeviceId : Uuid
  deriving DecidableEq

structure AuthSession where
  id : Uuid
  userId : Uuid
  deviceId : Uuid
  deriving DecidableEq

structure AdminAction where
  id : Uuid
  actorUserId : Uuid
  action : String
  targetLabel : Option Chars
  targetId : Option Uuid
  reason : Option Chars
  deriving DecidableEq

structure Report where
  id : Uuid
  reporterUserId : Option Uuid
  reporterLabel : Option Chars
  reportedUserId : Option Uuid
  reportedLabel : Option Chars
  reason : Chars
  note : Option Chars
  content : Option Chars
  context : Option Chars
  status : ReportStatus
  handledByUserId : Option Uuid
  handledAt : Option Nat
  resolution : Option Chars
  deriving DecidableEq

structure AuditLog where
  id : Uuid
  userId : Option Uuid
  deviceId : Option Uuid
  deriving DecidableEq

end Rows

inductive Row where
  | user (r : Rows.User)
  | webauthnCredential (r : Rows.WebauthnCredential)
  | device (r : Device)
  | signedPrekey (r : Rows.OfDevice)
  | oneTimePrekey (r : Rows.OfDevice)
  | deviceSignature (r : Rows.DeviceSignature)
  | conversation (r : Rows.Conversation)
  | conversationParticipant (r : Rows.ConversationParticipant)
  | messageBlob (r : Rows.MessageBlob)
  | messageReceipt (r : Rows.MessageReceipt)
  | channel (r : Rows.Channel)
  | channelSubscriber (r : Rows.ChannelSubscriber)
  | attachmentRef (r : Rows.AttachmentRef)
  | pushToken (r : Rows.OfDevice)
  | authSession (r : Rows.AuthSession)
  | block (r : Block)
  | adminAction (r : Rows.AdminAction)
  | report (r : Rows.Report)
  | auditLog (r : Rows.AuditLog)
  deriving DecidableEq

/-- A row's table and its `@id` there. -/
inductive RowKey where
  | user (id : Uuid)
  | webauthnCredential (id : Uuid)
  | device (id : Uuid)
  | signedPrekey (id : Uuid)
  | oneTimePrekey (id : Uuid)
  | deviceSignature (id : Uuid)
  | conversation (id : Uuid)
  | conversationParticipant (conversationId userId : Uuid)
  | messageBlob (id : Uuid)
  | messageReceipt (messageBlobId : Uuid) (eventType : ReceiptEventType)
  | channel (id : Uuid)
  | channelSubscriber (channelId deviceId : Uuid)
  | attachmentRef (id : Uuid)
  | pushToken (id : Uuid)
  | authSession (id : Uuid)
  | block (blockerUserId blockedUserId : Uuid)
  | adminAction (id : Uuid)
  | report (id : Uuid)
  | auditLog (id : Uuid)
  deriving DecidableEq

/-- The relations of the schema, each named by its table and its field. -/
inductive ForeignKey where
  | webauthnCredentialUser
  | deviceUser
  | signedPrekeyDevice
  | oneTimePrekeyDevice
  | deviceSignatureSigner
  | deviceSignatureSigned
  | conversationCreator
  | participantConversation
  | participantUser
  | blobConversation
  | blobChannel
  | blobSender
  | blobRecipient
  | receiptMessageBlob
  | channelAdmin
  | channelAdminDevice
  | subscriberChannel
  | subscriberDevice
  | subscriberUser
  | attachmentConversation
  | attachmentOwner
  | pushTokenDevice
  | authSessionUser
  | authSessionDevice
  | blockBlocker
  | blockBlocked
  deriving DecidableEq

namespace Row

def key : Row → RowKey
  | .user r => .user r.id
  | .webauthnCredential r => .webauthnCredential r.id
  | .device r => .device r.id
  | .signedPrekey r => .signedPrekey r.id
  | .oneTimePrekey r => .oneTimePrekey r.id
  | .deviceSignature r => .deviceSignature r.id
  | .conversation r => .conversation r.id
  | .conversationParticipant r => .conversationParticipant r.conversationId r.userId
  | .messageBlob r => .messageBlob r.id
  | .messageReceipt r => .messageReceipt r.messageBlobId r.eventType
  | .channel r => .channel r.id
  | .channelSubscriber r => .channelSubscriber r.channelId r.deviceId
  | .attachmentRef r => .attachmentRef r.id
  | .pushToken r => .pushToken r.id
  | .authSession r => .authSession r.id
  | .block r => .block r.blockerUserId r.blockedUserId
  | .adminAction r => .adminAction r.id
  | .report r => .report r.id
  | .auditLog r => .auditLog r.id

/-- A column that may be null. -/
def optional (c : ForeignKey) (k : Uuid → RowKey) (column : Option Uuid) : List (ForeignKey × RowKey) :=
  (column.map fun id => (c, k id)).toList

def refs : Row → List (ForeignKey × RowKey)
  | .user _ => []
  | .webauthnCredential r => [(.webauthnCredentialUser, .user r.userId)]
  | .device r => [(.deviceUser, .user r.userId)]
  | .signedPrekey r => [(.signedPrekeyDevice, .device r.deviceId)]
  | .oneTimePrekey r => [(.oneTimePrekeyDevice, .device r.deviceId)]
  | .deviceSignature r =>
      [(.deviceSignatureSigner, .device r.signerDeviceId),
       (.deviceSignatureSigned, .device r.signedDeviceId)]
  | .conversation r => optional .conversationCreator .user r.createdBy
  | .conversationParticipant r =>
      [(.participantConversation, .conversation r.conversationId),
       (.participantUser, .user r.userId)]
  | .messageBlob r =>
      optional .blobConversation .conversation r.conversationId ++
      optional .blobChannel .channel r.channelId ++
      optional .blobSender .device r.senderDeviceId ++
      [(.blobRecipient, .device r.recipientDeviceId)]
  | .messageReceipt r => [(.receiptMessageBlob, .messageBlob r.messageBlobId)]
  | .channel r =>
      optional .channelAdmin .user r.adminUserId ++
      optional .channelAdminDevice .device r.adminDeviceId
  | .channelSubscriber r =>
      [(.subscriberChannel, .channel r.channelId),
       (.subscriberDevice, .device r.deviceId),
       (.subscriberUser, .user r.userId)]
  | .attachmentRef r =>
      optional .attachmentConversation .conversation r.conversationId ++
      optional .attachmentOwner .user r.ownerUserId
  | .pushToken r => [(.pushTokenDevice, .device r.deviceId)]
  | .authSession r =>
      [(.authSessionUser, .user r.userId), (.authSessionDevice, .device r.deviceId)]
  | .block r => [(.blockBlocker, .user r.blockerUserId), (.blockBlocked, .user r.blockedUserId)]
  | .adminAction _ => []
  | .report _ => []
  | .auditLog _ => []

end Row

def ForeignKey.onDelete : ForeignKey → OnDelete
  | .conversationCreator => .setNull
  | .channelAdmin => .setNull
  | .channelAdminDevice => .setNull
  | _ => .cascade

theorem ForeignKey.onDelete_setNull {c : ForeignKey} : c.onDelete = .setNull ↔
    c = .conversationCreator ∨ c = .channelAdmin ∨ c = .channelAdminDevice := by
  cases c <;> simp [onDelete]

/-- `SET NULL`, for the columns that have it. -/
def Row.unset : ForeignKey → Row → Row
  | .conversationCreator, .conversation r => .conversation { r with createdBy := none }
  | .channelAdmin, .channel r => .channel { r with adminUserId := none }
  | .channelAdminDevice, .channel r => .channel { r with adminDeviceId := none }
  | _, r => r

@[simp] theorem Row.mem_optional {c : ForeignKey} {k : Uuid → RowKey} {column : Option Uuid}
    {e : ForeignKey × RowKey} : e ∈ Row.optional c k column ↔ ∃ id, column = some id ∧ (c, k id) = e := by
  simp [Row.optional]

def schema : Schema Row RowKey ForeignKey where
  id := Row.key
  refs := Row.refs
  onDelete := ForeignKey.onDelete
  unset := Row.unset
  id_unset c r := by cases c <;> cases r <;> rfl
  refs_unset c r e h := by
    obtain ⟨column, k⟩ := e
    cases c <;> cases h <;> cases r <;> simp [Row.unset, Row.refs] <;> grind

end ZiaCrypte.Server

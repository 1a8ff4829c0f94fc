import ZiaCrypte.Engine.Bytes

/-!
# `schema.prisma`: the tables the message routes read and write

A UUID is a number, and a time is the milliseconds of its clock. Each function is
one statement.
-/
namespace ZiaCrypte.Server

open ZiaCrypte.Engine

abbrev Uuid := Nat

structure User where
  id : Uuid
  deletedAt : Option Nat
  deriving DecidableEq

structure Device where
  id : Uuid
  userId : Uuid
  isActive : Bool
  deriving DecidableEq

inductive ConversationType where
  | direct
  | group
  deriving DecidableEq

structure Conversation where
  id : Uuid
  type : ConversationType
  createdBy : Option Uuid
  deriving DecidableEq

inductive ParticipantRole where
  | member
  | admin
  deriving DecidableEq

structure ConversationParticipant where
  conversationId : Uuid
  userId : Uuid
  role : ParticipantRole
  joinedAt : Nat
  leftAt : Option Nat
  deriving DecidableEq

structure Block where
  blockerUserId : Uuid
  blockedUserId : Uuid
  deriving DecidableEq

structure MessageBlob where
  id : Uuid
  conversationId : Option Uuid
  channelId : Option Uuid
  senderDeviceId : Option Uuid
  recipientDeviceId : Uuid
  clientMessageId : Uuid
  ratchetHeader : Bytes
  ciphertext : Bytes
  createdAt : Nat
  deliveredAt : Option Nat
  expiresAt : Nat
  deriving DecidableEq

structure Database where
  users : List User
  devices : List Device
  conversations : List Conversation
  participants : List ConversationParticipant
  blocks : List Block
  messageBlobs : List MessageBlob

namespace Database

def empty : Database := ⟨[], [], [], [], [], []⟩

def findUser (db : Database) (id : Uuid) : Option User := db.users.find? (·.id == id)

def findDevice (db : Database) (id : Uuid) : Option Device := db.devices.find? (·.id == id)

def findConversation (db : Database) (id : Uuid) : Option Conversation :=
  db.conversations.find? (·.id == id)

/-- By the primary key `(conversationId, userId)`. -/
def findParticipant (db : Database) (conversationId userId : Uuid) :
    Option ConversationParticipant :=
  db.participants.find? fun p => p.conversationId == conversationId && p.userId == userId

/-- Has the recipient blocked the sender? -/
def estBloque (db : Database) (expediteurUserId destinataireUserId : Uuid) : Bool :=
  db.blocks.any fun b =>
    b.blockerUserId == destinataireUserId && b.blockedUserId == expediteurUserId

/-- `leftAt` and, where it is given, `joinedAt` of one row. -/
def updateParticipant (db : Database) (conversationId userId : Uuid)
    (f : ConversationParticipant → ConversationParticipant) : Database :=
  { db with participants := db.participants.map fun p =>
      if p.conversationId = conversationId ∧ p.userId = userId then f p else p }

end Database

/-- A row with the same primary key, or the same `(recipientDeviceId,
clientMessageId)`. -/
def MessageBlob.conflicts (b b' : MessageBlob) : Bool :=
  b.id == b'.id ||
    (b.recipientDeviceId == b'.recipientDeviceId && b.clientMessageId == b'.clientMessageId)

/-- `none` is the unique violation `P2002`. -/
def createBlob (blobs : List MessageBlob) (b : MessageBlob) : Option (List MessageBlob) :=
  if blobs.any b.conflicts then none else some (blobs ++ [b])

/-- `createMany` with `skipDuplicates`. -/
def createManyBlobs : List MessageBlob → List MessageBlob → List MessageBlob
  | blobs, [] => blobs
  | blobs, b :: bs => createManyBlobs ((createBlob blobs b).getD blobs) bs

theorem mem_createBlob {blobs blobs' : List MessageBlob} {b b' : MessageBlob}
    (h : createBlob blobs b = some blobs') (hmem : b' ∈ blobs') : b' ∈ blobs ∨ b' = b := by
  unfold createBlob at h
  split at h
  · cases h
  · obtain rfl := Option.some.inj h
    rcases List.mem_append.mp hmem with hold | hnew
    · exact .inl hold
    · exact .inr (List.mem_singleton.mp hnew)

theorem mem_createManyBlobs {blobs bs : List MessageBlob} {b : MessageBlob}
    (h : b ∈ createManyBlobs blobs bs) : b ∈ blobs ∨ b ∈ bs := by
  induction bs generalizing blobs with
  | nil => exact .inl h
  | cons b' bs ih =>
    rcases ih h with hold | hnew
    · cases hcreate : createBlob blobs b' with
      | none =>
        rw [hcreate] at hold
        exact .inl hold
      | some blobs' =>
        rw [hcreate] at hold
        rcases mem_createBlob hcreate hold with hmem | rfl
        · exact .inl hmem
        · exact .inr List.mem_cons_self
    · exact .inr (List.mem_cons_of_mem _ hnew)

end ZiaCrypte.Server

import ZiaCrypte.Server.Database
import ZiaCrypte.Lib.Run

/-!
# The routes behind `requireAuth` that decide who a message is stored for

Membership, blocks, the revocation of a device, and the two routes that store
messages of a conversation. A route is run to its end before the next.
-/
namespace ZiaCrypte.Server

open ZiaCrypte.Lib ZiaCrypte.Engine

structure HttpError where
  statusCode : Nat
  message : String
  deriving DecidableEq

inductive ReplyBody where
  | id (id : Uuid)
  | conversation (id : Uuid) (type : ConversationType)
  | userId (id : Uuid)
  | deduplicated
  | ok
  | empty
  deriving DecidableEq

structure Reply where
  code : Nat
  body : ReplyBody
  deriving DecidableEq

/-- What a route answers, and the tables it leaves. -/
abbrev Answer := Except HttpError Reply × Database

/-- The claims of an access token whose signature and date are good. -/
structure Claims where
  sub : Uuid
  did : Uuid

structure Auth where
  userId : Uuid
  deviceId : Uuid

/-- What a request takes from outside: the clock, and the UUIDs it draws. -/
structure RequestEnv where
  now : Nat
  fresh : Nat → Uuid

/-- Thirty days. -/
def retention : Nat := 30 * 24 * 60 * 60 * 1000

/-- A body its schema refuses. -/
def invalidRequest : HttpError := ⟨400, "requête invalide"⟩

def requireAuth (db : Database) (claims : Claims) : Except HttpError Auth :=
  match db.findDevice claims.did with
  | none => .error ⟨401, "cet appareil a été révoqué"⟩
  | some device =>
      if !device.isActive || device.userId ≠ claims.sub then
        .error ⟨401, "cet appareil a été révoqué"⟩
      else .ok ⟨claims.sub, claims.did⟩

/-! ## `membership.ts` -/

def requireMembership (db : Database) (conversationId userId : Uuid) :
    Except HttpError ConversationParticipant :=
  match db.findParticipant conversationId userId with
  | none => .error ⟨403, "non membre de la conversation"⟩
  | some participant =>
      if participant.leftAt ≠ none then .error ⟨403, "non membre de la conversation"⟩
      else .ok participant

def requireAdmin (db : Database) (conversationId userId : Uuid) :
    Except HttpError ConversationParticipant :=
  match requireMembership db conversationId userId with
  | .error e => .error e
  | .ok participant =>
      if participant.role ≠ .admin then .error ⟨403, "réservé aux administrateurs du groupe"⟩
      else .ok participant

/-! ## `conversations.routes.ts` -/

/-- The direct conversation that two people already have. -/
def directConversation (db : Database) (participantIds : List Uuid) : Option Conversation :=
  db.conversations.find? fun c =>
    c.type == .direct &&
      participantIds.all (fun u => (db.findParticipant c.id u).isSome) &&
      (db.participants.filter (·.conversationId == c.id)).length == 2

def postConversations (env : RequestEnv) (me : Auth) (type : ConversationType)
    (ids : List Uuid) (db : Database) : Answer :=
  let participantIds := (me.userId :: ids).dedup
  if ids = [] then (.error invalidRequest, db)
  else if !participantIds.all (fun u => (db.findUser u).isSome) then
    (.error ⟨400, "participant inconnu"⟩, db)
  else
    let existing := if type = .direct ∧ participantIds.length = 2 then
      directConversation db participantIds else none
    match existing with
    | some c => (.ok ⟨200, .conversation c.id c.type⟩, db)
    | none =>
        (.ok ⟨201, .conversation (env.fresh 0) type⟩, { db with
          conversations := db.conversations ++ [⟨env.fresh 0, type, some me.userId⟩]
          participants := db.participants ++ participantIds.map fun u =>
            ⟨env.fresh 0, u, if u = me.userId then .admin else .member, env.now, none⟩ })

def postMember (env : RequestEnv) (me : Auth) (id userId : Uuid) (db : Database) : Answer :=
  match db.findConversation id with
  | none => (.error ⟨404, "conversation introuvable"⟩, db)
  | some conversation =>
      if conversation.type ≠ .group then
        (.error ⟨400, "une conversation directe a exactement deux membres"⟩, db)
      else
        match requireAdmin db id me.userId, db.findUser userId with
        | .error e, _ => (.error e, db)
        | .ok _, none => (.error ⟨404, "utilisateur introuvable"⟩, db)
        | .ok _, some _ =>
            (.ok ⟨201, .userId userId⟩,
              -- Who was a member before gets the same row back, with its role.
              match db.findParticipant id userId with
              | none => { db with
                  participants := db.participants ++ [⟨id, userId, .member, env.now, none⟩] }
              | some _ => db.updateParticipant id userId fun p =>
                  { p with leftAt := none, joinedAt := env.now })

def deleteMember (env : RequestEnv) (me : Auth) (id userId : Uuid) (db : Database) : Answer :=
  match (if userId = me.userId then requireMembership db id me.userId
    else requireAdmin db id me.userId) with
  | .error e => (.error e, db)
  | .ok _ =>
      match db.findParticipant id userId with
      | none => (.error ⟨500, "erreur interne"⟩, db)
      | some _ =>
          (.ok ⟨204, .empty⟩, db.updateParticipant id userId fun p =>
            { p with leftAt := some env.now })

/-! ## `blocks.routes.ts` -/

def postBlock (me : Auth) (userId : Uuid) (db : Database) : Answer :=
  if userId = me.userId then (.error ⟨400, "on ne se bloque pas soi-même"⟩, db)
  else
    match db.findUser userId with
    | none => (.error ⟨404, "compte introuvable"⟩, db)
    | some cible =>
        if cible.deletedAt ≠ none then (.error ⟨404, "compte introuvable"⟩, db)
        else
          (.ok ⟨204, .empty⟩, if db.estBloque userId me.userId then db
            else { db with blocks := db.blocks ++ [⟨me.userId, userId⟩] })

def deleteBlock (me : Auth) (userId : Uuid) (db : Database) : Answer :=
  (.ok ⟨204, .empty⟩, { db with blocks := db.blocks.filter fun b =>
    !(b.blockerUserId == me.userId && b.blockedUserId == userId) })

/-! ## `devices.routes.ts` -/

def deleteDevice (me : Auth) (deviceId : Uuid) (db : Database) : Answer :=
  match db.findDevice deviceId with
  | none => (.error ⟨404, "appareil introuvable"⟩, db)
  | some device =>
      if device.userId ≠ me.userId then (.error ⟨404, "appareil introuvable"⟩, db)
      else
        (.ok ⟨204, .empty⟩, { db with devices := db.devices.map fun d =>
          if d.id = device.id then { d with isActive := false } else d })

/-! ## `messages.routes.ts` -/

structure SendBody where
  conversationId : Uuid
  recipientDeviceId : Uuid
  clientMessageId : Uuid
  header : Bytes
  ciphertext : Bytes

structure GroupSendBody where
  conversationId : Uuid
  clientMessageId : Uuid
  recipientDeviceIds : List Uuid
  header : Bytes
  ciphertext : Bytes

def postMessages (env : RequestEnv) (me : Auth) (body : SendBody) (db : Database) : Answer :=
  match requireMembership db body.conversationId me.userId with
  | .error e => (.error e, db)
  | .ok _ =>
      match db.findDevice body.recipientDeviceId with
      | none => (.error ⟨404, "appareil destinataire introuvable"⟩, db)
      | some recipient =>
          if !recipient.isActive then (.error ⟨404, "appareil destinataire introuvable"⟩, db)
          -- The answer to a blocked sender is that of a message that was stored.
          else if db.estBloque me.userId recipient.userId then
            (.ok ⟨201, .id (env.fresh 0)⟩, db)
          else
            let blob : MessageBlob :=
              { id := env.fresh 0
                conversationId := some body.conversationId
                channelId := none
                senderDeviceId := some me.deviceId
                recipientDeviceId := body.recipientDeviceId
                clientMessageId := body.clientMessageId
                ratchetHeader := body.header
                ciphertext := body.ciphertext
                createdAt := env.now
                deliveredAt := none
                expiresAt := env.now + retention }
            match createBlob db.messageBlobs blob with
            | none => (.ok ⟨200, .deduplicated⟩, db)
            | some blobs => (.ok ⟨201, .id blob.id⟩, { db with messageBlobs := blobs })

/-- The rows of a group message, one for each device, with the ids drawn for them. -/
def groupBlobs (env : RequestEnv) (me : Auth) (body : GroupSendBody) (cibles : List Device) :
    List MessageBlob :=
  cibles.zipIdx.map fun (d, i) =>
    { id := env.fresh i
      conversationId := some body.conversationId
      channelId := none
      senderDeviceId := some me.deviceId
      recipientDeviceId := d.id
      clientMessageId := body.clientMessageId
      ratchetHeader := body.header
      ciphertext := body.ciphertext
      createdAt := env.now
      deliveredAt := none
      expiresAt := env.now + retention }

def postMessagesGroup (env : RequestEnv) (me : Auth) (body : GroupSendBody) (db : Database) :
    Answer :=
  if body.recipientDeviceIds = [] ∨ body.recipientDeviceIds.length > 500 then
    (.error invalidRequest, db)
  else match requireMembership db body.conversationId me.userId with
  | .error e => (.error e, db)
  | .ok _ =>
      let devices := db.devices.filter fun d =>
        body.recipientDeviceIds.contains d.id && d.isActive
      let cibles := devices.filter fun d => !db.estBloque me.userId d.userId
      (.ok ⟨201, .ok⟩, { db with
        messageBlobs := createManyBlobs db.messageBlobs (groupBlobs env me body cibles) })

/-! ## Requests -/

inductive Call where
  | postConversations (type : ConversationType) (participantIds : List Uuid)
  | postMember (id userId : Uuid)
  | deleteMember (id userId : Uuid)
  | postBlock (userId : Uuid)
  | deleteBlock (userId : Uuid)
  | deleteDevice (deviceId : Uuid)
  | postMessages (body : SendBody)
  | postMessagesGroup (body : GroupSendBody)

structure Request where
  claims : Claims
  env : RequestEnv
  call : Call

def Call.route (env : RequestEnv) (me : Auth) : Call → Database → Answer
  | .postConversations type ids => Server.postConversations env me type ids
  | .postMember id userId => Server.postMember env me id userId
  | .deleteMember id userId => Server.deleteMember env me id userId
  | .postBlock userId => Server.postBlock me userId
  | .deleteBlock userId => Server.deleteBlock me userId
  | .deleteDevice deviceId => Server.deleteDevice me deviceId
  | .postMessages body => Server.postMessages env me body
  | .postMessagesGroup body => Server.postMessagesGroup env me body

def Request.handle (r : Request) (db : Database) : Answer :=
  match requireAuth db r.claims with
  | .error e => (.error e, db)
  | .ok me => r.call.route r.env me db

/-- An account with its first device, or another device of it. -/
inductive Event where
  | register (userId deviceId : Uuid)
  | request (r : Request)

def Event.step : Event → Database → Database
  | .register userId deviceId, db =>
      { db with
        users := if (db.findUser userId).isSome then db.users else db.users ++ [⟨userId, none⟩]
        devices := if (db.findDevice deviceId).isSome then db.devices
          else db.devices ++ [⟨deviceId, userId, true⟩] }
  | .request r, db => (r.handle db).2

end ZiaCrypte.Server

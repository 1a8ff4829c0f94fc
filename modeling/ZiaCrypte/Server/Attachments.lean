import ZiaCrypte.Server.Routes
import ZiaCrypte.Lib.Slots

/-!
# Attachments, the object store, and what removes their rows

The routes on attachments, the removal of an account and the retention purge, statement
by statement. A call to the object store is a statement of its own and may fail.
-/
namespace ZiaCrypte.Server

open ZiaCrypte.Lib ZiaCrypte.Engine

/-- `avatars/<userId>/<uuid>` or `<conversationId>/<uuid>`. -/
inductive StorageKey where
  | avatar (userId uuid : Uuid)
  | conversation (conversationId uuid : Uuid)
  deriving DecidableEq

structure AttachmentRef where
  id : Uuid
  conversationId : Option Uuid
  ownerUserId : Option Uuid
  uploaderDeviceId : Uuid
  storageKey : StorageKey
  encryptedMetadata : Bytes
  ciphertextSize : Nat
  expiresAt : Option Nat
  deriving DecidableEq

/-- A signed URL for one upload. -/
structure UploadUrl where
  key : StorageKey
  expiresAt : Nat
  deriving DecidableEq

/-- What the purge looks at of an authentication session. -/
structure SessionRow where
  userId : Uuid
  expiresAt : Nat
  revokedAt : Option Nat
  deriving DecidableEq

/-- The tables, and the keys of the objects the store has. -/
structure Stored where
  db : Database
  passwordHashes : List (Uuid × String)
  roles : List (Uuid × String)
  sessions : List SessionRow
  refs : List AttachmentRef
  objects : List StorageKey
  urls : List UploadUrl

/-- A call that fails may have removed the object all the same. -/
inductive StoreOutcome where
  | done
  | failed (removed : Bool)
  deriving DecidableEq

namespace Stored

/-- `DeleteObject`, which does not mind that there is no such object. -/
def deleteObject (key : StorageKey) (s : Stored) : StoreOutcome → Stored
  | .done => { s with objects := s.objects.filter (· != key) }
  | .failed removed => if removed then { s with objects := s.objects.filter (· != key) } else s

/-- The account, with all that refers to it and is deleted on cascade. -/
def deleteUser (id : Uuid) (s : Stored) : Stored :=
  let gone := fun device => s.db.devices.any fun d => d.id == device && d.userId == id
  { s with
    db := {
      users := s.db.users.filter (·.id != id)
      devices := s.db.devices.filter (·.userId != id)
      conversations := s.db.conversations.map fun c =>
        if c.createdBy = some id then { c with createdBy := none } else c
      participants := s.db.participants.filter (·.userId != id)
      blocks := s.db.blocks.filter fun b => b.blockerUserId != id && b.blockedUserId != id
      messageBlobs := s.db.messageBlobs.filter fun b =>
        !gone b.recipientDeviceId && !b.senderDeviceId.any gone }
    passwordHashes := s.passwordHashes.filter (·.1 != id)
    roles := s.roles.filter (·.1 != id)
    sessions := s.sessions.filter (·.userId != id)
    refs := s.refs.filter (·.ownerUserId != some id) }

/-- A conversation without participants. -/
def isOrphan (s : Stored) (id : Uuid) : Bool :=
  s.db.conversations.any (·.id == id) && !s.db.participants.any (·.conversationId == id)

def deleteOrphans (s : Stored) : Stored :=
  { s with
    db := { s.db with
      conversations := s.db.conversations.filter (!s.isOrphan ·.id)
      messageBlobs := s.db.messageBlobs.filter (!·.conversationId.any s.isOrphan) }
    refs := s.refs.filter (!·.conversationId.any s.isOrphan) }

def deleteRef (id : Uuid) (s : Stored) : Stored := { s with refs := s.refs.filter (·.id != id) }

end Stored

/-! ## `attachments.routes.ts` and `users.routes.ts` -/

structure AttachmentBody where
  conversationId : Option Uuid
  ciphertextSize : Nat
  encryptedMetadata : Bytes
  deriving DecidableEq

inductive AttachmentCall where
  | postAttachment (body : AttachmentBody)
  | deleteAttachment (id : Uuid)
  | deleteMe (password : String)
  /-- Of an administrator the guard of the route has let through. -/
  | deleteUser (id : Uuid) (reason : String)
  deriving DecidableEq

inductive AttachmentReply where
  | created (attachmentId : Uuid) (uploadUrl : UploadUrl)
  | empty
  deriving DecidableEq

/-- The statement a request is at. -/
inductive AttachmentStage where
  | membership
  | findAvatars
  /-- Once there is no object left to delete, the rows are. -/
  | deleteAvatars (keys : List StorageKey)
  | create
  | sign (id : Uuid) (key : StorageKey)
  | findRef
  | deleteObject (key : StorageKey)
  | deleteRef
  | findUser
  | deleteUser
  | answered (reply : Except HttpError AttachmentReply)
  deriving DecidableEq

structure AttachmentRequest where
  me : Auth
  call : AttachmentCall
  stage : AttachmentStage

def UPLOAD_TTL : Nat := 15 * 60 * 1000

def MAX_SIZE : Nat := 64 * 1024 * 1024

/-- The length of a string in UTF-16 units. -/
def utf16Length (s : String) : Nat :=
  s.toList.foldl (fun n c => n + if c.toNat < 0x10000 then 1 else 2) 0

/-- What comes before the first statement. -/
def AttachmentCall.first (me : Auth) : AttachmentCall → AttachmentStage
  | .postAttachment body =>
      if body.ciphertextSize = 0 ∨ MAX_SIZE < body.ciphertextSize then
        .answered (.error invalidRequest)
      else if body.conversationId.isSome then .membership else .findAvatars
  | .deleteAttachment _ => .findRef
  | .deleteMe _ => .findUser
  | .deleteUser id reason =>
      if utf16Length reason < 3 ∨ 500 < utf16Length reason then .answered (.error invalidRequest)
      else if id = me.userId then
        .answered (.error ⟨400, "un administrateur ne se supprime pas lui-même"⟩)
      else .findUser

section

variable (s3 : Bool) (env : RequestEnv) (outcome : StoreOutcome) (me : Auth) (s : Stored)

def storageKey (body : AttachmentBody) : StorageKey :=
  match body.conversationId with
  | none => .avatar me.userId (env.fresh 0)
  | some c => .conversation c (env.fresh 0)

def newRef (body : AttachmentBody) : AttachmentRef where
  id := env.fresh 1
  conversationId := body.conversationId
  ownerUserId := if body.conversationId = none then some me.userId else none
  uploaderDeviceId := me.deviceId
  storageKey := storageKey env me body
  encryptedMetadata := body.encryptedMetadata
  ciphertextSize := body.ciphertextSize
  expiresAt := if body.conversationId = none then none else some (env.now + retention)

/-- The rows a row refers to exist, and its id is not taken. -/
def canCreate (ref : AttachmentRef) : Bool :=
  ref.conversationId.all (fun c => (s.db.findConversation c).isSome) &&
    ref.ownerUserId.all (fun u => (s.db.findUser u).isSome) && !s.refs.any (·.id == ref.id)

/-- The server is not configured for the object store. -/
def noStorage : HttpError := ⟨503, "stockage des pièces jointes non configuré sur ce serveur"⟩

def internalError : HttpError := ⟨500, "erreur interne"⟩

def postAttachmentNext (body : AttachmentBody) :
    AttachmentStage → Option (AttachmentStage × Stored)
  | .membership => body.conversationId.map fun c =>
      (match requireMembership s.db c me.userId with
        | .error e => .answered (.error e)
        | .ok _ => .create, s)
  | .findAvatars => some (.deleteAvatars
      ((s.refs.filter (·.ownerUserId == some me.userId)).map (·.storageKey)), s)
  -- What the call makes of the object, or that there is no store, is passed over.
  | .deleteAvatars (key :: keys) =>
      some (.deleteAvatars keys, if s3 then s.deleteObject key outcome else s)
  | .deleteAvatars [] =>
      some (.create, { s with refs := s.refs.filter (·.ownerUserId != some me.userId) })
  | .create =>
      let ref := newRef env me body
      if canCreate s ref then some (.sign ref.id ref.storageKey, { s with refs := s.refs ++ [ref] })
      else some (.answered (.error internalError), s)
  | .sign id key =>
      if s3 then
        let url : UploadUrl := ⟨key, env.now + UPLOAD_TTL⟩
        some (.answered (.ok (.created id url)), { s with urls := s.urls ++ [url] })
      else some (.answered (.error noStorage), s)
  | _ => none

def deleteAttachmentNext (id : Uuid) : AttachmentStage → Option (AttachmentStage × Stored)
  | .findRef => some (match s.refs.find? (·.id == id) with
      | none => .answered (.error ⟨404, "pièce jointe introuvable"⟩)
      | some ref =>
          if ref.uploaderDeviceId ≠ me.deviceId then
            .answered (.error ⟨403, "seul l’émetteur peut supprimer cette pièce jointe"⟩)
          else if s3 then .deleteObject ref.storageKey
          else .answered (.error noStorage), s)
  | .deleteObject key => some (match outcome with
      | .done => .deleteRef
      | .failed _ => .answered (.error internalError), s.deleteObject key outcome)
  | .deleteRef =>
      if s.refs.any (·.id == id) then some (.answered (.ok .empty), s.deleteRef id)
      else some (.answered (.error internalError), s)
  | _ => none

/-- The last statement of both routes that remove an account. -/
def deleteUserLast (id : Uuid) : AttachmentStage × Stored :=
  if (s.db.findUser id).isSome then (.answered (.ok .empty), s.deleteUser id)
  else (.answered (.error internalError), s)

def deleteMeNext (argon2Verify : String → String → Bool) (password : String) :
    AttachmentStage → Option (AttachmentStage × Stored)
  | .findUser =>
      let hash := (s.passwordHashes.lookup me.userId).getD ""
      some (if hash = "" then .answered (.error ⟨404, "utilisateur introuvable"⟩)
        else if argon2Verify hash password then .deleteUser
        else .answered (.error ⟨401, "mot de passe invalide"⟩), s)
  | .deleteUser => some (deleteUserLast s me.userId)
  | _ => none

def deleteUserNext (id : Uuid) : AttachmentStage → Option (AttachmentStage × Stored)
  | .findUser => some (match s.db.findUser id with
      | none => .answered (.error ⟨404, "compte introuvable"⟩)
      | some _ =>
          if s.roles.lookup id = some "admin" then
            .answered (.error ⟨403, "un compte d’administration ne se supprime pas par l’API"⟩)
          else .deleteUser, s)
  | .deleteUser => some (deleteUserLast s id)
  | _ => none

/-- The next statement of a request: where it is then, and the tables. -/
def AttachmentRequest.next (argon2Verify : String → String → Bool) (r : AttachmentRequest) :
    Option (AttachmentStage × Stored) :=
  match r.call with
  | .postAttachment body => postAttachmentNext s3 env outcome r.me s body r.stage
  | .deleteAttachment id => deleteAttachmentNext s3 outcome r.me s id r.stage
  | .deleteMe password => deleteMeNext r.me s argon2Verify password r.stage
  | .deleteUser id _ => deleteUserNext s id r.stage

end

/-! ## `retention.service.ts` -/

structure PurgeReport where
  blobsLivres : Nat
  blobsExpires : Nat
  piecesJointes : Nat
  piecesJointesEchouees : Nat
  sessions : Nat
  conversationsOrphelines : Nat
  deriving DecidableEq

/-- The statement a purge is at. -/
inductive PurgeStage where
  | blobsLivres
  | blobsExpires
  | findMany
  /-- Once there is no attachment left, the sessions come. -/
  | pieces (rest : List (Uuid × StorageKey))
  | deleteRef (id : Uuid) (rest : List (Uuid × StorageKey))
  | conversations
  | done
  deriving DecidableEq

structure Purge where
  maintenant : Nat
  rapport : PurgeReport
  stage : PurgeStage
  deriving DecidableEq

section

variable (s3 : Bool) (deliveredHours : Nat) (outcome : StoreOutcome) (s : Stored)

/-- The rows a purge takes at once. -/
def purgeTake : Nat := 500

def Purge.next (p : Purge) : Option (Purge × Stored) :=
  match p.stage with
  | .blobsLivres =>
      let livre := fun b : MessageBlob => b.deliveredAt.any fun t =>
        decide (t + deliveredHours * 3600 * 1000 < p.maintenant)
      some ({ p with
          rapport := { p.rapport with blobsLivres := s.db.messageBlobs.countP livre }
          stage := .blobsExpires },
        { s with db := { s.db with messageBlobs := s.db.messageBlobs.filter (!livre ·) } })
  | .blobsExpires =>
      let expire := fun b : MessageBlob => decide (b.expiresAt < p.maintenant)
      some ({ p with
          rapport := { p.rapport with blobsExpires := s.db.messageBlobs.countP expire }
          stage := .findMany },
        { s with db := { s.db with messageBlobs := s.db.messageBlobs.filter (!expire ·) } })
  | .findMany =>
      let perimees := s.refs.filter fun ref => ref.expiresAt.any fun t => decide (t < p.maintenant)
      some ({ p with stage := .pieces (if s3 then
        (perimees.take purgeTake).map fun ref => (ref.id, ref.storageKey) else []) }, s)
  | .pieces ((id, key) :: rest) => some (match outcome with
      | .done => { p with stage := .deleteRef id rest }
      | .failed _ => { p with
          rapport := { p.rapport with
            piecesJointesEchouees := p.rapport.piecesJointesEchouees + 1 }
          stage := .pieces rest }, s.deleteObject key outcome)
  | .deleteRef id rest =>
      if s.refs.any (·.id == id) then
        some ({ p with
            rapport := { p.rapport with piecesJointes := p.rapport.piecesJointes + 1 }
            stage := .pieces rest }, s.deleteRef id)
      else
        some ({ p with
            rapport := { p.rapport with
              piecesJointesEchouees := p.rapport.piecesJointesEchouees + 1 }
            stage := .pieces rest }, s)
  | .pieces [] =>
      let finie := fun x : SessionRow => decide (x.expiresAt < p.maintenant) || x.revokedAt.isSome
      some ({ p with
          rapport := { p.rapport with sessions := s.sessions.countP finie }
          stage := .conversations }, { s with sessions := s.sessions.filter (!finie ·) })
  | .conversations =>
      some ({ p with
          rapport := { p.rapport with
            conversationsOrphelines := s.db.conversations.countP (s.isOrphan ·.id) }
          stage := .done }, s.deleteOrphans)
  | .done => none

end

/-! ## Runs -/

/-- The tables and the store, and the requests and purges in the order they began. -/
structure AttachmentServer where
  stored : Stored
  requests : List AttachmentRequest
  purges : List Purge

inductive AttachmentStatement where
  | register (userId deviceId : Uuid) (passwordHash role : String)
  /-- A request to another route, run to its end. -/
  | request (r : Request)
  | addSession (row : SessionRow)
  | begin (claims : Claims) (call : AttachmentCall)
  | next (request : Nat) (env : RequestEnv) (outcome : StoreOutcome)
  | purge (maintenant : Nat)
  | nextPurge (purge : Nat) (outcome : StoreOutcome)
  /-- An upload to a signed URL that is still good. -/
  | putObject (url : UploadUrl) (now : Nat)

namespace AttachmentServer

def start : AttachmentServer := ⟨⟨Database.empty, [], [], [], [], [], []⟩, [], []⟩

/-- The server is configured for the object store, and keeps messages that were delivered
for so many hours. -/
structure Config where
  s3 : Bool
  deliveredHours : Nat
  argon2Verify : String → String → Bool

def newPurge (maintenant : Nat) : Purge := ⟨maintenant, ⟨0, 0, 0, 0, 0, 0⟩, .blobsLivres⟩

def step (config : Config) : AttachmentStatement → AttachmentServer → Option AttachmentServer
  | .register userId deviceId passwordHash role, s => some { s with stored := { s.stored with
      db := (Event.register userId deviceId).step s.stored.db
      passwordHashes := if (s.stored.db.findUser userId).isSome then s.stored.passwordHashes
        else s.stored.passwordHashes ++ [(userId, passwordHash)]
      roles := if (s.stored.db.findUser userId).isSome then s.stored.roles
        else s.stored.roles ++ [(userId, role)] } }
  | .request r, s =>
      some { s with stored := { s.stored with db := (Event.request r).step s.stored.db } }
  | .addSession row, s =>
      some { s with stored := { s.stored with sessions := s.stored.sessions ++ [row] } }
  | .begin claims call, s =>
      match requireAuth s.stored.db claims with
      | .error _ => some s
      | .ok me => some { s with requests := s.requests ++ [⟨me, call, call.first me⟩] }
  | .next i env outcome, s => do
      let r ← s.requests[i]?
      let (stage, stored) ← r.next config.s3 env outcome s.stored config.argon2Verify
      some { s with stored := stored, requests := s.requests.set i { r with stage := stage } }
  | .purge maintenant, s => some { s with purges := s.purges ++ [newPurge maintenant] }
  | .nextPurge i outcome, s => do
      let p ← s.purges[i]?
      let (p', stored) ← p.next config.s3 config.deliveredHours outcome s.stored
      some { s with stored := stored, purges := s.purges.set i p' }
  | .putObject url now, s =>
      if url ∈ s.stored.urls ∧ now < url.expiresAt then
        some { s with stored := { s.stored with objects := url.key :: s.stored.objects } }
      else none

end AttachmentServer

end ZiaCrypte.Server

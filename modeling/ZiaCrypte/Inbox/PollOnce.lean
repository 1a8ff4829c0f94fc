import ZiaCrypte.Inbox.Controls
import ZiaCrypte.Chat.Envelope

/-!
# `_pollOnce`

One message after the other, from the envelope to the thread. A message is skipped
(`continue`), touches a conversation, or throws, which gives up the rest of the
batch.
-/
namespace ZiaCrypte.Inbox

open ZiaCrypte.Lib ZiaCrypte.Engine ZiaCrypte.Chat

/-- An element of the answer to `GET /messages`. -/
structure Incoming where
  sealed : Json
  channelId : Json
  conversationId : Json
  senderDeviceId : Json
  senderUsername : Json
  senderUserId : Json
  header : Json
  ciphertext : Json
  timestampMs : Json

/-- What became of a message; `touched` names the conversation to save. -/
inductive Received where
  | skipped
  | touched (conv : Text)
  | thrown
  deriving DecidableEq

/-- The contents of a message. -/
structure Payload where
  text : Text
  attachment : Option AttachmentRef
  id : Option Text
  replyToId : Option Text
  replyToText : Option Text
  replyToMine : Option Bool

variable {E : Type} (P : Platform E)

/-! ## Contents -/

def readPayload (json : List (Text × Json)) : Option Payload := do
  let t ← (field json "t").asString
  let attachment ←
    if (field json "f").isNull then pure none
    else do pure (some (← AttachmentRef.fromJson (← (field json "f").asMap)))
  let id ← (field json "i").asString?
  let replyToId ← (field json "q").asString?
  let replyToText ← (field json "qt").asString?
  let replyToMine ← (field json "qm").asBool?
  pure { text := t, attachment, id, replyToId, replyToText, replyToMine }

/-- What is no object of the right shape is shown as it is. -/
def decodePayload (bytes : Bytes) : Payload :=
  let raw := P.utf8DecodeMalformed bytes
  let json := ((P.jsonDecode raw).bind Json.asMap).bind fun fields =>
    if containsKey fields "t" then readPayload fields else none
  json.getD ⟨raw, none, none, none, none, none⟩

/-- When a message of a conversation is to disappear; `none` where the date is out of
range. -/
def echeance (now : Int) (ttlSecondes : Int) : Option (Option Int) :=
  if ttlSecondes > 0 then (dateTime (now + wrap64 (ttlSecondes * 1000000))).map some
  else some none

/-! ## Conversations and sessions -/

/-- `_ouvrirScelle`: what is inside takes the place of the outer fields. -/
def ouvrirScelle (m : Incoming) (s : State E) : State E × Option Incoming :=
  match m.ciphertext.asString.bind P.base64Decode with
  | none => (s, none)
  | some scelle =>
      let (clair, outside) := P.sealedOpen scelle s.outside
      let s := { s with outside := outside }
      match ((clair.bind P.utf8Decode).bind P.jsonDecode).bind Json.asMap with
      | none => (s, none)
      | some json => (s, some { m with
          senderDeviceId := field json "sd"
          senderUserId := field json "su"
          conversationId := field json "cv"
          header := field json "h"
          ciphertext := field json "c" })

/-- `_restoreSessions`, for the devices of the list. -/
def restoreEach (conv : Text) : List Text → State E → State E
  | [], s => s
  | device :: devices, s =>
      let s := match s.conv? conv with
        | none => s
        | some c =>
            if c.sessions.containsKey device then s
            else
              match s.coffre.sess.get? (conv, device) with
              | none => s
              | some blob =>
                  if blob = [] then s
                  else
                    let (session, outside) := P.importSession blob s.outside
                    let s := { s with outside := outside }
                    match session with
                    | none => s
                    | some id => s.putConv conv { c with sessions := c.sessions.insert device id }
      restoreEach conv devices s

def restoreSessions (conv : Text) (s : State E) : State E :=
  restoreEach P conv (((s.conv? conv).map (·.targetDeviceIds)).getD []) s

/-- `_saveSessions`, for the entries of the list. -/
def saveEach (conv : Text) : List (Text × Nat) → State E → State E
  | [], s => s
  | (device, id) :: entries, s =>
      let (blob, outside) := P.exportSession id s.outside
      let s := { s with outside := outside }
      let s := match blob with
        | none => { s with error := true }
        | some blob => { s with coffre := { s.coffre with
            sess := s.coffre.sess.insert (conv, device) blob } }
      saveEach conv entries s

def saveSessions (conv : Text) (s : State E) : State E :=
  saveEach P conv (((s.conv? conv).map (·.sessions.entries)).getD []) s

/-- The conversation of a message, and its id; `none` where a cast throws. -/
def resolveConversation (now : Int) (m : Incoming) (s : State E) : Option (Text × State E) := do
  let convId ← m.conversationId.asString
  match s.conv? convId with
  | some existing =>
      let peerUserId ← if existing.peerUserId.isSome then some existing.peerUserId
        else m.senderUserId.asString?
      let s := s.putConv convId { existing with peerUserId := peerUserId }
      pure (convId, restoreSessions P convId s)
  | none =>
      let senderUsername ← m.senderUsername.asString?
      let senderUserId ← m.senderUserId.asString?
      let senderDeviceId ← m.senderDeviceId.asString
      let conv := { Conversation.new convId (senderUsername.getD (text "inconnu")) now with
        peerUserId := senderUserId
        targetDeviceIds := [senderDeviceId]
        messages := s.readHistory convId }
      pure (convId, restoreSessions P convId (s.putConv convId conv))

/-! ## Opening -/

inductive Pinning (E : Type) where
  | accepted (s : State E)
  | changed (s : State E)
  | thrown

/-- `checkAndPin`, where the message says whose account it is from. -/
def checkAndPin (sender : Text) (senderUserId : Json) (identityKey : PublicKey) (s : State E) :
    Pinning E :=
  match senderUserId.asString? with
  | none => .thrown
  | some none => .accepted s
  | some (some userId) =>
      match s.known.get? sender with
      | none =>
          let known := s.known.insert sender ⟨userId, identityKey⟩
          .accepted { s with
            known := known
            coffre := { s.coffre with contactIdentities := known } }
      | some existing =>
          if existing.identityKey = identityKey then .accepted s
          else .changed { s with identityAlerts :=
            s.identityAlerts.insert sender ⟨userId, existing.identityKey, identityKey⟩ }

/-- What opening a message comes to. -/
inductive Opening (E : Type) where
  | skipped (s : State E)
  | thrown (s : State E)
  | clair (s : State E) (sender : Text) (plain : Bytes)

/-- A message sealed once for a group. -/
def openGroup (conv sender : Text) (m : Incoming) (s : State E) : Opening E :=
  match m.ciphertext.asString.bind P.base64Decode with
  | none => .skipped s
  | some ciphertext =>
      let (clair, outside) := P.senderKeyDecrypt conv sender ciphertext s.outside
      let s := { s with outside := outside }
      match clair with
      | none => .skipped s
      | some plain => .clair s sender plain

/-- With the session of the sender's device, if there is one. -/
def openWithSession (conv sender : Text) (ratchetHeader : Bytes) (m : Incoming) (s : State E) :
    Opening E :=
  match (s.conv? conv).bind (·.sessions.get? sender) with
  | none => .skipped s
  | some session =>
      match m.ciphertext.asString.bind P.base64Decode with
      | none => .skipped s
      | some ciphertext =>
          let (clair, outside) := P.decrypt session ratchetHeader ciphertext s.outside
          let s := { s with outside := outside }
          match clair with
          | none => .skipped s
          | some plain => .clair s sender plain

/-- A handshake makes us the responder of a device that has no session yet. -/
def openPairwise (conv sender : Text) (unpacked : Envelope.Unpacked) (m : Incoming)
    (s : State E) : Opening E :=
  match unpacked.handshake, s.conv? conv with
  | some handshake, some c =>
      if c.sessions.containsKey sender then
        openWithSession P conv sender unpacked.ratchetHeader m s
      else
        match checkAndPin sender m.senderUserId handshake.initiatorIdentityKey s with
        | .thrown => .thrown s
        | .changed s => .skipped s
        | .accepted s =>
            let (session, outside) := P.acceptSession handshake s.outside
            let s := { s with outside := outside }
            match session with
            | none => .skipped s
            | some id =>
                openWithSession P conv sender unpacked.ratchetHeader m (s.putConv conv { c with
                  sessions := c.sessions.insert sender id
                  targetDeviceIds := addToSet c.targetDeviceIds sender })
  | _, _ => openWithSession P conv sender unpacked.ratchetHeader m s

def openMessage (conv : Text) (m : Incoming) (s : State E) : Opening E :=
  match m.senderDeviceId.asString with
  | none => .thrown s
  | some sender =>
      match m.header.asString.bind P.base64Decode with
      | none => .thrown s
      | some entete =>
          if Envelope.estGroupe entete then openGroup P conv sender m s
          else
            match Envelope.unpackHeader entete with
            | none => .thrown s
            | some unpacked => openPairwise P conv sender unpacked m s

/-! ## Reading -/

/-- A message for the thread; `none` where its date is out of range. -/
def receivedMessage (now : Int) (c : Conversation) (payload : Payload) (fromMyself : Bool)
    (senderUsername : Option Text) : Option ChatMessage := do
  let expiresAt ← echeance now c.ttlSecondes
  pure { ChatMessage.new payload.text fromMyself now with
    author := if fromMyself then none else senderUsername
    expiresAt := expiresAt
    id := payload.id
    replyToId := payload.replyToId
    replyToText := payload.replyToText
    replyToMine := payload.replyToMine.map fun mine => if fromMyself then mine else !mine
    attachment := payload.attachment }

/-- A message of the thread is added to it. -/
def addReceived (now : Int) (conv : Text) (payload : Payload) (fromMyself : Bool)
    (senderUsername : Option Text) (s : State E) : State E × Received :=
  match s.conv? conv with
  | none => (s, .thrown)
  | some c =>
      match receivedMessage now c payload fromMyself senderUsername with
      | none => (s, .thrown)
      | some message =>
          (s.putConv conv { c with
            messages := c.messages ++ [message]
            lastActivity := now
            unread := if !fromMyself && s.activeConversationId ≠ some conv then c.unread + 1
              else c.unread }, .touched conv)

/-- What the contents say: a control, a batch of history, the name of a group, or a
message of the thread. -/
def dispatch (now : Int) (conv sender : Text) (plain : Bytes) (m : Incoming) (s : State E) :
    State E × Received :=
  match m.senderUsername.asString? with
  | none => (s, .thrown)
  | some senderUsername =>
      let fromMyself := decide (senderUsername = s.username)
      let payload := decodePayload P plain
      if estControle payload.text then
        match m.senderUserId.asString? with
        | none => (s, .thrown)
        | some senderUserId =>
            (appliquerControle P now conv payload.text fromMyself sender senderUserId s, .skipped)
      else if estSync payload.text then
        (applySyncPayload P now (payload.text.drop prefixeSync.length) s, .skipped)
      else if estAnnonceInterne payload.text then
        match s.conv? conv with
        | none => (s, .skipped)
        | some c => (s.putConv conv { c with
            peerUsername := payload.text.drop prefixeAnnonce.length
            isGroup := true }, .touched conv)
      else addReceived now conv payload fromMyself senderUsername s

/-- `_recevoirCanal` -/
def recevoirCanal (now : Int) (m : Incoming) (s : State E) : State E × Received :=
  match m.channelId.asString with
  | none => (s, .thrown)
  | some canalId =>
      match s.conv? canalId with
      | none => (s, .skipped)
      | some c =>
          if !c.isChannel then (s, .skipped)
          else
            match m.senderDeviceId.asString? with
            | none => (s, .thrown)
            | some none => (s, .skipped)
            | some (some sender) =>
                match openGroup P canalId sender m s with
                | .skipped s => (s, .skipped)
                | .thrown s => (s, .thrown)
                | .clair s _ plain =>
                    let payload := decodePayload P plain
                    if estControle payload.text || estAnnonceInterne payload.text then
                      (s, .skipped)
                    else
                      let sentAt := match m.timestampMs with
                        | .null => fromMilliseconds (millisecondsSinceEpoch now)
                        | j => j.asInt.bind fromMilliseconds
                      match sentAt with
                      | none => (s, .thrown)
                      | some sentAt =>
                          ((s.putConv canalId { c with
                            messages := c.messages ++ [{ ChatMessage.new payload.text false sentAt
                              with attachment := payload.attachment }]
                            lastActivity := now
                            unread := if s.activeConversationId ≠ some canalId then c.unread + 1
                              else c.unread }).saveHistory canalId, .touched canalId)

/-- The body of the loop, behind the envelope. -/
def receiveOpen (now : Int) (m : Incoming) (s : State E) : State E × Received :=
  if !m.channelId.isNull then recevoirCanal P now m s
  else
    match resolveConversation P now m s with
    | none => (s, .thrown)
    | some (conv, s) =>
        match openMessage P conv m s with
        | .skipped s => (s, .skipped)
        | .thrown s => (s, .thrown)
        | .clair s sender plain => dispatch P now conv sender plain m s

/-- The body of the loop. -/
def receive (now : Int) (m : Incoming) (s : State E) : State E × Received :=
  if m.sealed.isTrue then
    match ouvrirScelle P m s with
    | (s, none) => (s, .skipped)
    | (s, some m) => receiveOpen P now m s
  else receiveOpen P now m s

/-! ## The batch -/

/-- The loop: the conversations to save, or `none` where it was given up. -/
def receiveAll (now : Int) : List Incoming → List Text → State E → State E × Option (List Text)
  | [], touched, s => (s, some touched)
  | m :: ms, touched, s =>
      match receive P now m s with
      | (s, .skipped) => receiveAll now ms touched s
      | (s, .touched conv) => receiveAll now ms (addToSet touched conv) s
      | (s, .thrown) => (s, none)

/-- `marquerLu`, for the messages of the conversation on the screen. -/
def marquerLu (conv : Text) (s : State E) : State E :=
  if !s.accusesLectureActifs then s
  else
    match s.conv? conv with
    | none => s
    | some c =>
        let ids := c.messages.filterMap fun m => if !m.mine && !m.readAckSent then m.id else none
        let c := { c with messages := c.messages.map fun m =>
          if !m.mine && m.id.isSome && !m.readAckSent then { m with readAckSent := true } else m }
        if ids = [] then s
        else
          let (blobs, outside) := P.diffuserLu c ids s.outside
          { s.putConv conv c with
            outside := outside
            coffre := { s.coffre with
              sess := blobs.foldl (fun sess b => sess.insert (conv, b.1) b.2) s.coffre.sess } }

/-- What is done for a conversation at the end of the batch. -/
def saveTouched (s : State E) (conv : Text) : State E :=
  let s := saveSessions P conv (s.saveHistory conv)
  if s.activeConversationId = some conv then marquerLu P conv s else s

/-- `incoming` is what `fetchMessages` answered. -/
def pollOnce (now : Int) (incoming : List Incoming) (s : State E) : State E :=
  match receiveAll P now incoming [] s with
  | (s, none) => { s with error := true }
  | (s, some []) => s
  | (s, some touched) => (touched.foldl (saveTouched P) s).saveConversations

end ZiaCrypte.Inbox

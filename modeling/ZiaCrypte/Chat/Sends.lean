import ZiaCrypte.Chat.Openings

/-!
# `ChatService`: everything that is sent

Text, control, history and call messages all advance the ratchet of a device
before anything is known to have arrived; they differ in what they do about the
pending handshake and about saving the session afterwards.
-/
namespace ZiaCrypte.Chat

open ZiaCrypte.Engine ZiaCrypte.Lib
open ZiaCrypte.Lib.Async (raise orElse)

variable {K : Type} (P : Platform K)

/-- `_pendingHandshakes['${conv.id}-$device']` -/
def Client.pendingHandshake (s : Client K) (conv : Ref) (device : DeviceId) :
    Option ZiaHandshakeMaterial :=
  s.pendingHandshakes.get? ((s.conversation conv).id, device)

/-- The message for one device, with the handshake that is pending for it. -/
def Client.messageFor (s : Client K) (conv : Ref) (device : DeviceId) (enc : EncryptedMessage) :
    DeviceMessage where
  conversationId := (s.conversation conv).id
  recipientDeviceId := device
  header := Envelope.packHeader enc.header (s.pendingHandshake conv device)
  ciphertext := enc.ciphertext

/-- Encrypts for one device and puts the message together. -/
def encryptFor (conv : Ref) (device : DeviceId) (session : SessionId) (plaintext : Bytes) :
    Task K DeviceMessage := do
  let enc ← ask (.encrypt session plaintext)
  let s ← readState
  exec (.prepared session (s.messageFor conv device enc))
  pure (s.messageFor conv device enc)

/-- The sealed path of `_sendToDevice`: whether the message went that way. -/
def sendSealed (conv : Ref) (device : DeviceId) (m : DeviceMessage) : Task K Bool := do
  let s ← readState
  match s.jetonsRemise.get? device, s.known.get? device with
  | some jeton, some identite =>
      orElse
        (do
          let scelle ← ask (.sealedSeal identite.identityKey
            ⟨s.deviceId, s.userId, m.conversationId, m.header, m.ciphertext⟩)
          ask (.deposerScelle jeton device scelle)
          exec (.removePending conv device)
          call (saveSessions conv)
          pure true)
        fun _ => pure false
  | _, _ => pure false

def sendToDevice (conv : Ref) (device : DeviceId) (payload : Payload) : Task K Unit := do
  let s ← readState
  if (s.conversation conv).sessions.containsKey device then pure ()
  else call (openSessionsWith conv s.userId)
  let s ← readState
  match s.sessionOf conv device with
  | none => pure ()
  | some session =>
      let m ← encryptFor conv device session (P.encodePayload payload)
      let parti ← sendSealed conv device m
      if parti then pure ()
      else
        ask (.sendMessage m)
        exec (.removePending conv device)
        call (saveSessions conv)

def diffuserEach (conv : Ref) (payload : Payload) : List DeviceId → Task K Unit
  | [] => pure ()
  | device :: devices => do
      orElse (call (sendToDevice P conv device payload)) fun _ => pure ()
      diffuserEach conv payload devices

def diffuserControle (conv : Ref) (payload : Payload) : Task K Unit := do
  let s ← readState
  diffuserEach P conv payload (s.conversation conv).sessions.keys

/-! ## The sender key of a group -/

/-- The devices the distribution reached. -/
def distribuerEach (conv : Ref) (key : SenderKey) : List DeviceId → Task K (List DeviceId)
  | [] => pure []
  | device :: devices => do
      let sent ← (call (sendToDevice P conv device (.cleGroupe key))).attempt
      let rest ← distribuerEach conv key devices
      match sent with
      | .ok _ => pure (device :: rest)
      | .error _ => pure rest

/-- `servis.length == cibles.length && servis.containsAll(cibles)` -/
def compositionInchangee (servis : Option (List DeviceId)) (cibles : List DeviceId) : Bool :=
  match servis with
  | none => false
  | some servis => servis.length == cibles.length && cibles.all servis.contains

def assurerCleGroupe (conv : Ref) : Task K Bool := do
  let s ← readState
  let c := s.conversation conv
  let cibles := c.sessions.keys
  if !c.isGroup || cibles.isEmpty then pure false
  else if compositionInchangee (s.cleGroupeDistribuee.get? c.id) cibles then pure true
  else
    let distribution ← (ask (.senderKeyCreate c.id)).attempt
    match distribution with
    | .error _ => pure false
    | .ok key =>
        let ok ← distribuerEach P conv key cibles
        if ok.length ≠ cibles.length then
          exec (.removeServed conv)
          pure false
        else
          exec (.putServed conv ok)
          pure true

/-! ## Text -/

/-- The grouped path of `_sendPayload`: how many devices it delivered to. -/
def sendToGroup (conv : Ref) (clearText : Bytes) : Task K Nat := do
  let s ← readState
  if !(s.conversation conv).isGroup then pure 0
  else
    let ok ← call (assurerCleGroupe P conv)
    if !ok then pure 0
    else
      let s ← readState
      let cibles := (s.conversation conv).sessions.keys
      orElse
        (do
          let chiffre ← ask (.senderKeyEncrypt (s.conversation conv).id clearText)
          ask (.sendGroupMessage (s.conversation conv).id cibles chiffre)
          pure cibles.length)
        fun _ => pure 0

/-- The body of the loop of `_sendPayload`: whether the device was reached. -/
def sendText (conv : Ref) (device : DeviceId) (clearText : Bytes) : Task K Nat := do
  let s ← readState
  match s.sessionOf conv device with
  | none => pure 0
  | some session =>
      orElse
        (do
          let m ← encryptFor conv device session clearText
          ask (.sendMessage m)
          exec (.removePending conv device)
          pure 1)
        fun _ => pure 0

def sendTextEach (conv : Ref) (clearText : Bytes) : List DeviceId → Task K Nat
  | [] => pure 0
  | device :: devices => do
      let one ← sendText conv device clearText
      let rest ← sendTextEach conv clearText devices
      pure (one + rest)

/-- `_estAnnonceInterne` -/
def Payload.estAnnonceInterne : Payload → Bool
  | .annonce _ => true
  | _ => false

def sendPayloadTo (conv : Ref) (payload : Payload) : Task K Unit := do
  let grouped ← sendToGroup P conv (P.encodePayload payload)
  let s ← readState
  let delivered ←
    if 0 < grouped then pure grouped
    else sendTextEach conv (P.encodePayload payload) (s.conversation conv).sessions.keys
  if payload.estAnnonceInterne || delivered = 0 then pure ()
  else
    call saveHistory
    call (saveSessions conv)
    call saveConversations

def sendPayload (payload : Payload) : Task K Unit := do
  let s ← readState
  match s.active with
  | none => pure ()
  | some conv =>
      if !s.ready conv then pure ()
      else orElse (sendPayloadTo P conv payload) fun _ => pure ()

/-! ## Calls, history, delivery tokens -/

def envoyerSignalAppel (conv : Ref) (device : DeviceId) (data : Bytes) : Task K Unit := do
  let s ← readState
  match s.sessionOf conv device with
  | none => pure ()
  | some session =>
      orElse
        (do
          let m ← encryptFor conv device session data
          exec (.socketAdd m))
        fun _ => pure ()

/-- `marquerLu`: what there is to confirm is the history's business. -/
def marquerLu (conv : Ref) : Task K Unit := do
  let ids ← ask (.accuses conv)
  match ids with
  | none => pure ()
  | some ids => call (diffuserControle P conv (.controle ids))

/-- `_backfillSibling`; `anciens` says which conversations have messages older
than the sibling. -/
def backfillEach (sibling : DeviceId) (anciens : ConvId → Bool) : List Ref → Task K Unit
  | [] => pure ()
  | conv :: convs => do
      let s ← readState
      let c := s.conversation conv
      if anciens c.id then
        call (sendToDevice P conv sibling
          (.sync c.id c.peerUserId c.isGroup c.memberUserIds.keys))
      else pure ()
      backfillEach sibling anciens convs

def backfillSibling (sibling : DeviceId) (anciens : ConvId → Bool) : Task K Unit := do
  let s ← readState
  backfillEach P sibling anciens (s.conversations.entries.map (·.2))

def publierJeton : Task K Unit := do
  let s ← readState
  if s.monJeton.isSome then pure ()
  else
    orElse
      (do
        let jeton ← ask .publierJetonRemise
        exec (.setMonJeton jeton))
      fun _ => pure ()

def annoncerJeton (conv : Ref) : Task K Bool := do
  let s ← readState
  match s.monJeton with
  | none => pure false
  | some jeton =>
      if (s.conversation conv).sessions.keys.isEmpty then pure false
      else
        orElse
          (do
            call (diffuserControle P conv (.jeton s.deviceId jeton))
            pure true)
          fun _ => pure false

def annoncerEach : List Ref → Task K Unit
  | [] => pure ()
  | conv :: convs => do
      let s ← readState
      let c := s.conversation conv
      if s.jetonAnnonce.containsKey c.id || c.sessions.keys.isEmpty then pure ()
      else
        let ok ← call (annoncerJeton P conv)
        if ok then exec (.addAnnonce conv) else pure ()
      annoncerEach convs

def viderFileJeton : Task K Unit := do
  let s ← readState
  if s.monJeton.isNone then call publierJeton else pure ()
  let s ← readState
  if s.monJeton.isNone then pure ()
  else annoncerEach P (s.conversations.entries.map (·.2))

/-! ## Conversations -/

/-- Opening a conversation on screen; the restore runs beside everything else. -/
def openConversation (id : ConvId) : Task K Unit := do
  let s ← readState
  match s.conversations.get? id with
  | none => pure ()
  | some conv =>
      exec (.setActive id)
      call (restoreSessions conv)
      marquerLu P conv

def startChatWith (statut : Option Bytes) : Task K Unit :=
  orElse
    (do
      let peerUserId ← ask .lookupUser
      let convId ← ask (.createConversation peerUserId)
      let s ← readState
      let conv := (s.conversations.get? convId).getD s.objects.length
      if s.conversations.containsKey convId then pure ()
      else exec (.create (.new convId (some peerUserId)))
      exec (.setPeerUserId conv peerUserId)
      if s.conversations.containsKey convId then pure ()
      else
        call readHistory
        exec (.register convId conv)
      exec (.setActive convId)
      call (restoreSessions conv)
      call (openSessionsWith conv peerUserId)
      call (openSessionsWith conv s.userId)
      match statut with
      | none => pure ()
      | some statut => call (diffuserControle P conv (.controle statut))
      call saveConversations
      call (saveSessions conv))
    fun _ => pure ()

def lookupEach : Nat → Task K (List UserId)
  | 0 => pure []
  | n + 1 => do
      let user ← ask .lookupUser
      let rest ← lookupEach n
      pure (user :: rest)

def openEachMember (conv : Ref) : List UserId → Task K Unit
  | [] => pure ()
  | member :: members => do
      call (openSessionsWith conv member)
      openEachMember conv members

/-- The object of a group that is not known yet. -/
def newGroup (id : ConvId) (members : List UserId) : Conversation :=
  { Conversation.new id none with isGroup := true, memberUserIds := .ofList members }

def createGroup (count : Nat) (name : Bytes) : Task K Unit :=
  orElse
    (do
      let memberIds ← lookupEach count
      if memberIds.isEmpty then pure ()
      else
        let convId ← ask (.createGroup memberIds)
        let s ← readState
        let conv := (s.conversations.get? convId).getD s.objects.length
        if s.conversations.containsKey convId then pure ()
        else exec (.create (newGroup convId memberIds))
        exec (.addMembers conv memberIds)
        exec (.register convId conv)
        exec (.setActive convId)
        call (restoreSessions conv)
        openEachMember conv memberIds
        call (openSessionsWith conv s.userId)
        call saveConversations
        call (saveSessions conv)
        call (sendPayload P (.annonce name)))
    fun _ => pure ()

def membersCount (conv : Ref) (s : Client K) : Nat :=
  (s.conversation conv).memberUserIds.modifications

def refreshEach (conv : Ref) (modifications : Nat) : List UserId → Task K Unit
  | [] => moveNext modifications (membersCount conv)
  | member :: members => do
      moveNext modifications (membersCount conv)
      call (openSessionsWith conv member)
      refreshEach conv modifications members

def refreshGroupMembers : Task K Unit := do
  let s ← readState
  match s.active with
  | none => pure ()
  | some conv =>
      if !(s.conversation conv).isGroup then pure ()
      else
        orElse
          (do
            let membres ← ask (.conversationMembers (s.conversation conv).id)
            exec (.clearMembers conv)
            exec (.addMembers conv membres)
            let s ← readState
            refreshEach conv (membersCount conv s) (s.conversation conv).memberUserIds.keys
            call saveConversations
            call (saveSessions conv)
            exec (.refreshed conv membres))
          fun _ => pure ()

end ZiaCrypte.Chat

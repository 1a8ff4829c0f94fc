import ZiaCrypte.Chat.Sends

/-!
# `ChatService`: everything that is received

The poll loop, the sealed envelopes and the call signals. A `continue` of the
loop is a body that ends; a cast of a missing field throws and ends the batch.
-/
namespace ZiaCrypte.Chat

open ZiaCrypte.Engine ZiaCrypte.Lib
open ZiaCrypte.Lib.Async (raise orElse)

variable {K : Type} (P : Platform K)

/-- `m['field'] as String` -/
def field {α : Type} (x : Option α) : Task K α :=
  match x with
  | some a => pure a
  | none => raise .other

/-- `_ouvrirScelle`: the fields inside replace those outside. -/
def ouvrirScelle (brut : ServerMessage) : Task K (Option ServerMessage) :=
  orElse
    (do
      let scelle ← field brut.ciphertext
      let json ← ask (.sealedOpen scelle)
      pure (some { brut with
        senderDeviceId := json.sd
        senderUserId := json.su
        conversationId := json.cv
        header := json.h
        ciphertext := json.c }))
    fun _ => pure none

def resolveConversation (m : ServerMessage) : Task K Ref := do
  let convId ← field m.conversationId
  let s ← readState
  match s.conversations.get? convId with
  | some existing =>
      exec (.completePeerUserId existing m.senderUserId)
      call (restoreSessions existing)
      pure existing
  | none =>
      let sender ← field m.senderDeviceId
      let conv := s.objects.length
      exec (.create { Conversation.new convId m.senderUserId with
        targetDeviceIds := .ofList [sender] })
      call readHistory
      call (restoreSessions conv)
      exec (.register convId conv)
      pure conv

/-- The channel the message belongs to, once it is read. -/
def recevoirCanal (m : ServerMessage) (canalId : ConvId) : Task K (Option Ref) := do
  let s ← readState
  match s.conversations.get? canalId, m.senderDeviceId with
  | some conv, some sender =>
      if !(s.conversation conv).isChannel then pure none
      else
        let clair ← (do
          let chiffre ← field m.ciphertext
          ask (.senderKeyDecrypt canalId sender chiffre)).attempt
        match clair with
        | .error _ => pure none
        | .ok clair =>
            match P.decodePayload clair with
            | .message _ | .sync _ _ _ _ =>
                call saveHistory
                pure (some conv)
            | _ => pure none
  | _, _ => pure none

/-! ## What a plaintext does -/

/-- `_appliquerControle`; edits, reactions, statuses and the like only touch the
history and the display. -/
def appliquerControle (conv : Ref) (payload : Payload) (expediteurDevice : DeviceId) :
    Task K Unit := do
  let s ← readState
  orElse
    (match payload with
      | .cleGroupe key =>
          ask (.senderKeyProcess (s.conversation conv).id expediteurDevice key)
      | .jeton appareil jeton => do
          exec (.putJeton appareil jeton)
          let s ← readState
          call (ask (.writeJetons s.jetonsRemise.entries))
      | _ => call saveHistory)
    fun _ => pure ()

def applySyncPayload (convId : ConvId) (peerId : Option UserId) (group : Bool)
    (members : List UserId) : Task K Unit :=
  orElse
    (do
      let s ← readState
      let conv := (s.conversations.get? convId).getD s.objects.length
      if s.conversations.containsKey convId then pure ()
      else
        exec (.create (.new convId none))
        exec (.register convId conv)
      exec (.completePeerUserId conv peerId)
      if group then exec (.setGroup conv) else pure ()
      exec (.addMembers conv members)
      call saveHistory
      call saveConversations)
    fun _ => pure ()

/-- `touched.add(conv)` -/
def touch (touched : List Ref) (conv : Ref) : List Ref :=
  if touched.contains conv then touched else touched ++ [conv]

/-- The end of a turn of the loop, once `clair` is there. -/
def receivePlain (conv : Ref) (sender : DeviceId) (clair : Bytes) (touched : List Ref) :
    Task K (List Ref) :=
  match P.decodePayload clair with
  | .sync convId peerId group members => do
      call (applySyncPayload convId peerId group members)
      pure touched
  | .annonce _ => do
      exec (.setGroup conv)
      pure (touch touched conv)
  | .message _ => pure (touch touched conv)
  | payload => do
      call (appliquerControle conv payload sender)
      pure touched

/-! ## `_pollOnce` -/

/-- The check of the sender's key: whether it has changed. -/
def identityRefused (sender : DeviceId) (senderUserId : Option UserId) (identityKey : PublicKey) :
    Task K Bool :=
  match senderUserId with
  | none => pure false
  | some user => do
      let pinned ← (call (checkAndPin sender user identityKey)).attempt
      match pinned with
      | .ok _ => pure false
      | .error (.identityChanged alert) =>
          exec (.putAlert alert)
          pure true
      | .error e => raise e

/-- The handshake of a message, when the sender has no session yet: whether the
loop goes on with this message. -/
def acceptHandshake (conv : Ref) (m : ServerMessage) (sender : DeviceId)
    (unpacked : Envelope.Unpacked) : Task K Bool := do
  let s ← readState
  match unpacked.handshake with
  | none => pure true
  | some handshake =>
      if (s.conversation conv).sessions.containsKey sender then pure true
      else
        let refused ← identityRefused sender m.senderUserId handshake.initiatorIdentityKey
        if refused then pure false
        else
          let session ← (ask (.acceptSession handshake)).attempt
          match session with
          | .error _ => pure false
          | .ok session =>
              exec (.install conv sender session (.accepted s.journal.length m.senderUserId handshake))
              exec (.addTarget conv sender)
              pure true

/-- A message of a pairwise session. -/
def receivePairwise (conv : Ref) (m : ServerMessage) (sender : DeviceId) (enteteBrute : Bytes)
    (touched : List Ref) : Task K (List Ref) := do
  let unpacked ← field (Envelope.unpackHeader enteteBrute)
  let goesOn ← acceptHandshake conv m sender unpacked
  let s ← readState
  match goesOn, s.sessionOf conv sender with
  | true, some session =>
      let clair ← (do
        let chiffre ← field m.ciphertext
        ask (.decrypt session unpacked.ratchetHeader chiffre)).attempt
      match clair with
      | .error _ => pure touched
      | .ok clair =>
          exec (.opened conv sender session)
          receivePlain P conv sender clair touched
  | _, _ => pure touched

/-- A message encrypted once for the whole group. -/
def receiveGroup (conv : Ref) (m : ServerMessage) (sender : DeviceId) (touched : List Ref) :
    Task K (List Ref) := do
  let s ← readState
  let clair ← (do
    let chiffre ← field m.ciphertext
    ask (.senderKeyDecrypt (s.conversation conv).id sender chiffre)).attempt
  match clair with
  | .error _ => pure touched
  | .ok clair => receivePlain P conv sender clair touched

/-- One turn of the loop of `_pollOnce`. -/
def processMessage (brut : ServerMessage) (touched : List Ref) : Task K (List Ref) := do
  let m ← if brut.isSealed then call (ouvrirScelle brut) else pure (some brut)
  match m with
  | none => pure touched
  | some m =>
      match m.channelId with
      | some canalId =>
          let c ← call (recevoirCanal P m canalId)
          match c with
          | none => pure touched
          | some conv => pure (touch touched conv)
      | none =>
          let conv ← call (resolveConversation m)
          let sender ← field m.senderDeviceId
          let enteteBrute ← field m.header
          if Envelope.estGroupe enteteBrute then receiveGroup P conv m sender touched
          else receivePairwise P conv m sender enteteBrute touched

def processEach : List ServerMessage → List Ref → Task K (List Ref)
  | [], touched => pure touched
  | brut :: rest, touched => do
      let touched ← processMessage P brut touched
      processEach rest touched

def saveTouched : List Ref → Task K Unit
  | [] => pure ()
  | conv :: convs => do
      call saveHistory
      call (saveSessions conv)
      let s ← readState
      if s.activeConversationId = some (s.conversation conv).id then call (marquerLu P conv)
      else pure ()
      saveTouched convs

def pollOnce : Task K Unit :=
  orElse
    (do
      let incoming ← ask .fetchMessages
      let touched ← processEach P incoming []
      saveTouched P touched
      if touched.isEmpty then pure () else call saveConversations)
    fun _ => pure ()

/-! ## Call signals -/

/-- The session of `_recevoirSignalAppel`. -/
def sessionForSignal (conv : Ref) (sender : DeviceId) (unpacked : Envelope.Unpacked) :
    Task K (Option SessionId) := do
  let s ← readState
  match unpacked.handshake with
  | none => pure (s.sessionOf conv sender)
  | some handshake =>
      if (s.conversation conv).sessions.containsKey sender then pure (s.sessionOf conv sender)
      else
        let session ← ask (.acceptSession handshake)
        exec (.install conv sender session (.acceptedCall handshake))
        pure (some session)

/-- The plaintext of a signal, if it has one. -/
def openSignal (conv : Ref) (signal : CallSignal) : Task K Bool :=
  orElse
    (do
      let unpacked ← field (Envelope.unpackHeader signal.entete)
      let session ← sessionForSignal conv signal.sender unpacked
      match session with
      | none => pure false
      | some session =>
          let _ ← ask (.decrypt session unpacked.ratchetHeader signal.chiffre)
          pure true)
    fun _ => pure false

/-- `_recevoirSignalAppel`, up to what an invitation starts; the signals the call
goes on to send are tasks of their own. -/
def recevoirSignalAppel (signal : CallSignal) (decline : Bytes) : Task K Unit := do
  let s ← readState
  match s.convPourDevice signal.sender with
  | none => pure ()
  | some conv =>
      let clair ← openSignal conv signal
      if clair && signal.invite then
        let s ← readState
        if s.enAppel then call (envoyerSignalAppel conv signal.sender decline)
        else exec (.setEnAppel true)
      else pure ()

end ZiaCrypte.Chat

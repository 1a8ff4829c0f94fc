import ZiaCrypte.Inbox.Controls
import ZiaCrypte.Chat.Envelope
import ZiaCrypte.Server.Routes
import ZiaCrypte.Server.Delivery
import ZiaCrypte.Lib.Async

/-!
# `_sendPayload` and what becomes of a message

The threads in memory and the saved ones, the sendings on their way, and the server's
tables. A message of a thread keeps the number of the sending it comes from. The sender
keys, the sessions and the vault are behind requests that may fail.
-/
namespace ZiaCrypte.Sending

open ZiaCrypte.Lib ZiaCrypte.Engine
open ZiaCrypte.Server (Uuid Auth Database MessageBlob SendBody GroupSendBody)
open ZiaCrypte.Inbox (Text ChatMessage AttachmentRef)

/-! ## Threads -/

/-- A message of a thread; `envoi` is none where `_sendPayload` has not made it. -/
structure Ligne where
  message : ChatMessage
  envoi : Option Nat
  deriving DecidableEq

/-- `toJson` and `fromJson` -/
def Ligne.saved (l : Ligne) : Ligne := { l with message := l.message.saved }

/-- A message that is received, announced, published in a channel or taken from a batch:
the constructor is called without receipts. -/
def Ligne.autre (m : ChatMessage) : Ligne where
  message := { m with pendingReceiptIds := [], delivered := false, sendFailed := false }
  envoi := none

/-- What is done to the messages of a thread. -/
inductive Retouche where
  | ajouter (l : Ligne)
  | recevoir (m : ChatMessage)
  /-- `conv.messages.remove(m)` -/
  | retirer (l : Ligne)
  /-- The messages of a batch, and the sort behind them. -/
  | integrer (entrants : List ChatMessage)
  | editer (cible : Text) (deMoi : Bool) (texte : Text) (now : Int)
  | supprimer (cible : Text) (deMoi : Bool)
  | reagir (cible emoji qui : Text) (pose : Bool)
  /-- A read receipt. -/
  | lire (ids : List Text)
  /-- `marquerLu` -/
  | accuser
  | balayer (now : Int)
  /-- `_checkDeliveries` -/
  | remettre (remis : List Text)
  deriving DecidableEq

/-- The first message with an id is changed. -/
def modifierPremier (cible : Text) (f : ChatMessage → ChatMessage) : List Ligne → List Ligne
  | [] => []
  | l :: ls =>
      if l.message.id = some cible then { l with message := f l.message } :: ls
      else l :: modifierPremier cible f ls

/-- A message that waits for its delivery, and one of whose receipts is there. -/
def ARemettre (remis : List Text) (m : ChatMessage) : Prop :=
  m.mine = true ∧ m.delivered = false ∧ ∃ t ∈ m.pendingReceiptIds, t ∈ remis

instance (remis : List Text) (m : ChatMessage) : Decidable (ARemettre remis m) :=
  inferInstanceAs (Decidable (_ ∧ _ ∧ _))

def Retouche.apply : Retouche → List Ligne → List Ligne
  | .ajouter l, ls => ls ++ [l]
  | .recevoir m, ls => ls ++ [.autre m]
  | .retirer l, ls => ls.erase l
  | .integrer entrants, ls =>
      (ls ++ entrants.map Ligne.autre).insertionSort fun l l' => l.message.sentAt ≤ l'.message.sentAt
  | .editer cible deMoi texte now, ls =>
      modifierPremier cible (fun m =>
        if m.mine ≠ deMoi then m else { m with text := texte, editedAt := some now }) ls
  | .supprimer cible deMoi, ls =>
      modifierPremier cible (fun m =>
        if m.mine ≠ deMoi then m else { m with deletedForEveryone := true, text := [] }) ls
  | .reagir cible emoji qui pose, ls => modifierPremier cible (Inbox.reagir emoji qui pose) ls
  | .lire ids, ls => ls.map fun l =>
      if l.message.mine && l.message.id.any ids.contains then
        { l with message := { l.message with readByPeer := true } } else l
  | .accuser, ls => ls.map fun l =>
      if !l.message.mine && l.message.id.isSome then
        { l with message := { l.message with readAckSent := true } } else l
  | .balayer now, ls => ls.filter fun l => !l.message.expiresAt.any (· < now)
  | .remettre remis, ls => ls.map fun l =>
      if ARemettre remis l.message then { l with message := { l.message with delivered := true } }
      else l

/-! ## The client and the server -/

structure Conversation where
  id : Uuid
  isGroup : Bool
  isChannel : Bool
  sessions : List Uuid
  ownDeviceIds : List Uuid
  ttlSecondes : Int
  messages : List Ligne

/-- The last fields only keep what happened: the histories handed to the vault, the copies
of each sending the server accepted, the receipts each sending waits for, and which device
fetched which of our messages. -/
structure Monde where
  me : Auth
  conversations : List Conversation
  activeConversationId : Option Uuid
  replyingTo : Option ChatMessage
  hist : LinkedMap Uuid (List Ligne)
  db : Database
  /-- The next UUID the client draws. -/
  uuid : Nat
  /-- The next key of the server's table of messages. -/
  cle : Nat
  nextTicket : Nat
  ecritures : List (List Ligne)
  copies : List (Nat × Uuid)
  recepisses : List (Nat × Uuid)
  releves : List (Uuid × Uuid)

namespace Monde

def initial (me : Auth) (db : Database) : Monde where
  me := me
  conversations := []
  activeConversationId := none
  replyingTo := none
  hist := .empty
  db := { db with messageBlobs := [] }
  uuid := 0
  cle := 0
  nextTicket := 0
  ecritures := []
  copies := []
  recepisses := []
  releves := []

def conv? (s : Monde) (id : Uuid) : Option Conversation := s.conversations.find? (·.id == id)

def sessions (s : Monde) (conv : Uuid) : List Uuid := ((s.conv? conv).map (·.sessions)).getD []

def messages (s : Monde) (conv : Uuid) : List Ligne := ((s.conv? conv).map (·.messages)).getD []

/-- A change of one conversation. -/
def mapConv (s : Monde) (id : Uuid) (f : Conversation → Conversation) : Monde :=
  { s with conversations := s.conversations.map fun c => if c.id = id then f c else c }

/-- `_readHistory` -/
def readHistory (s : Monde) (conv : Uuid) : List Ligne := (s.hist.get? conv).getD []

/-- The rows of a poll are marked when the server has read them. -/
def relever (s : Monde) (device : Uuid) (pending : List MessageBlob) (now : Nat) : Monde :=
  { s with
    db := { s.db with
      messageBlobs := Server.markDelivered (pending.map (·.id)) now s.db.messageBlobs }
    releves := ((pending.filter fun b => b.senderDeviceId = some s.me.deviceId).map fun b =>
      (device, b.clientMessageId)) ++ s.releves }

/-- What other routes store: messages of other devices, and what this one sends outside
the threads, under ids of its own. -/
def deposer (s : Monde) (rows : List MessageBlob) : Monde :=
  { s with
    db := { s.db with
      messageBlobs := Server.createManyBlobs s.db.messageBlobs (rows.zipIdx.map fun (b, i) =>
        { b with
          id := s.cle + i
          deliveredAt := none
          clientMessageId := if b.senderDeviceId = some s.me.deviceId then s.uuid
            else b.clientMessageId }) }
    uuid := s.uuid + 1
    cle := s.cle + rows.length }

def claims (s : Monde) : Server.Claims := ⟨s.me.userId, s.me.deviceId⟩

/-- The server handles one of our requests; the rows it makes get the next keys. -/
def traiter (s : Monde) (call : Server.Call) (now : Nat) : Server.Answer :=
  (⟨s.claims, ⟨now, fun i => s.cle + i⟩, call⟩ : Server.Request).handle s.db

/-- The request was made for the sending `envoi`, under the id `copie`. -/
def deposerEnvoi (s : Monde) (envoi : Nat) (copie : Uuid) (call : Server.Call) (now : Nat) :
    Monde :=
  { s with
    db := (s.traiter call now).2
    cle := s.cle + s.db.devices.length + 1
    copies := match (s.traiter call now).1 with
      | .ok _ => (envoi, copie) :: s.copies
      | .error _ => s.copies }

/-- `GET /messages/status` -/
def status (s : Monde) (nom : Uuid → Text) (ids : List Text) : List Text :=
  (s.db.messageBlobs.filter fun b =>
    decide (b.senderDeviceId = some s.me.deviceId) &&
      (ids.take 500).contains (nom b.clientMessageId) && b.deliveredAt.isSome).map
    fun b => nom b.clientMessageId

end Monde

/-! ## Statements and requests -/

inductive Stmt where
  /-- `_uuidV4()` -/
  | tirer
  | retoucher (conv : Uuid) (r : Retouche)
  /-- A conversation comes into memory, with its saved history. -/
  | charger (c : Conversation)
  | oublier (conv : Uuid)
  | regler (conv : Uuid) (isGroup : Bool) (sessions ownDeviceIds : List Uuid) (ttl : Int)
  | setActive (conv : Option Uuid)
  | setReplyingTo (m : Option ChatMessage)
  /-- `receiptIds.add(copie)` -/
  | recepisse (envoi : Nat) (copie : Uuid)
  | deposer (rows : List MessageBlob)
  /-- The purge deletes rows. -/
  | purger (ids : List Uuid)
  /-- What other routes do to the other tables. -/
  | tables (db : Database)

def Stmt.apply : Stmt → Monde → Monde
  | .tirer, s => { s with uuid := s.uuid + 1 }
  | .retoucher conv r, s => s.mapConv conv fun c => { c with messages := r.apply c.messages }
  | .charger c, s =>
      if (s.conv? c.id).isSome then s
      else { s with
        conversations := s.conversations ++ [{ c with messages := s.readHistory c.id }] }
  | .oublier conv, s => { s with conversations := s.conversations.filter (·.id ≠ conv) }
  | .regler conv isGroup sessions ownDeviceIds ttl, s => s.mapConv conv fun c =>
      { c with
        isGroup := isGroup
        sessions := sessions
        ownDeviceIds := ownDeviceIds
        ttlSecondes := ttl }
  | .setActive conv, s => { s with activeConversationId := conv }
  | .setReplyingTo m, s => { s with replyingTo := m }
  | .recepisse envoi copie, s => { s with recepisses := (envoi, copie) :: s.recepisses }
  | .deposer rows, s => s.deposer rows
  | .purger ids, s => { s with db := { s.db with
      messageBlobs := s.db.messageBlobs.filter (·.id ∉ ids) } }
  | .tables db, s => { s with db := { db with messageBlobs := s.db.messageBlobs } }

/-- What an await waits for. -/
inductive Request where
  | assurerCleGroupe (conv : Uuid)
  | senderKeyEncrypt (conv : Uuid)
  | sendGroupMessage (envoi : Nat) (body : GroupSendBody)
  | encrypt (conv device : Uuid)
  | sendMessage (envoi : Nat) (body : SendBody)
  | vaultWrite (conv : Uuid) (lignes : List Ligne)
  | deliveredAmong (ids : List Text)
  /-- The second statement of `GET /messages`. -/
  | updateMany (device : Uuid) (pending : List MessageBlob)

abbrev Reply : Request → Type
  | .assurerCleGroupe _ => Bool
  | .senderKeyEncrypt _ => Bytes
  | .encrypt _ _ => Bytes × Bytes
  | .deliveredAmong _ => List Text
  | _ => Unit

/-- What the outside decides about a request: the server handles it at a time of its
clock, and the answer may be lost. -/
inductive Outside where
  | failed
  | done
  | cleGroupe (distribuee : Bool)
  | chiffre (header ciphertext : Bytes)
  | handled (now : Nat) (received : Bool)

/-- The routes behind `sendMessage` and `sendGroupMessage`. -/
def Request.call : Request → Option (Nat × Uuid × Server.Call)
  | .sendGroupMessage envoi body => some (envoi, body.clientMessageId, .postMessagesGroup body)
  | .sendMessage envoi body => some (envoi, body.clientMessageId, .postMessages body)
  | _ => none

def Request.settle (q : Request) (x : Outside) (s : Monde) : Monde :=
  match q, x with
  | .sendGroupMessage envoi body, .handled now _ =>
      s.deposerEnvoi envoi body.clientMessageId (.postMessagesGroup body) now
  | .sendMessage envoi body, .handled now _ =>
      s.deposerEnvoi envoi body.clientMessageId (.postMessages body) now
  | .vaultWrite conv lignes, .done =>
      { s with hist := s.hist.insert conv (lignes.map Ligne.saved) }
  | .updateMany device pending, .handled now _ => s.relever device pending now
  | _, _ => s

/-- A request that the server handled and answered. -/
def Monde.acceptee (s : Monde) (call : Server.Call) (now : Nat) (received : Bool) :
    Except Unit Unit :=
  match received, (s.traiter call now).1 with
  | true, .ok _ => .ok ()
  | _, _ => .error ()

def Request.answer (nom : Uuid → Text) (q : Request) (x : Outside) (s : Monde) :
    Except Unit (Reply q) :=
  match q, x with
  | .assurerCleGroupe _, .cleGroupe distribuee => .ok distribuee
  | .senderKeyEncrypt _, .chiffre _ ciphertext => .ok ciphertext
  | .encrypt _ _, .chiffre header ciphertext => .ok (header, ciphertext)
  | .sendGroupMessage _ body, .handled now received =>
      s.acceptee (.postMessagesGroup body) now received
  | .sendMessage _ body, .handled now received => s.acceptee (.postMessages body) now received
  | .vaultWrite _ _, .done => .ok ()
  | .deliveredAmong ids, .handled _ true =>
      match Server.requireAuth s.db s.claims with
      | .ok _ => .ok (s.status nom ids)
      | .error _ => .error ()
  | .updateMany _ _, .handled _ _ => .ok ()
  | _, _ => .error ()

def Request.issue (q : Request) (s : Monde) : Monde :=
  match q with
  | .vaultWrite _ lignes =>
      { s with nextTicket := s.nextTicket + 1, ecritures := lignes :: s.ecritures }
  | _ => { s with nextTicket := s.nextTicket + 1 }

/-- A crash leaves the vault and the server. -/
def Monde.redemarrer (s : Monde) : Monde :=
  { s with
    conversations := []
    activeConversationId := none
    replyingTo := none
    ecritures := [] }

def outboxSemantics (nom : Uuid → Text) : Semantics Monde Stmt Request Reply Unit Outside where
  act := Stmt.apply
  issue := Request.issue
  ticket := Monde.nextTicket
  ready _ _ _ _ := true
  settle _ := Request.settle
  answer := Request.answer nom
  crash := Monde.redemarrer

abbrev Task (α : Type) := Async Monde Stmt Request Reply Unit α

/-! ## The bodies -/

/-- `_uuidV4()` -/
def uuidV4 : Task Uuid := do
  let s ← Async.get
  Async.exec .tirer
  pure s.uuid

/-- `_saveHistory` -/
def saveHistory (conv : Uuid) : Task Unit := do
  let s ← Async.get
  Async.request (Request.vaultWrite conv (s.messages conv))

/-- The grouped path of `_sendPayload`: how many devices it delivered to, and the receipts. -/
def envoyerGroupe (conv : Uuid) (envoi : Nat) : Task (Nat × List Uuid) := do
  if (← Async.get).conv? conv |>.any (·.isGroup) then
    if ← Async.request (Request.assurerCleGroupe conv) then
      let cibles := (← Async.get).sessions conv
      Async.orElse
        (do
          let chiffre ← Async.request (Request.senderKeyEncrypt conv)
          let copie ← uuidV4
          Async.request (Request.sendGroupMessage envoi
            ⟨conv, copie, cibles, Chat.Envelope.packGroupHeader, chiffre⟩)
          Async.exec (.recepisse envoi copie)
          pure (cibles.length, [copie]))
        fun _ => pure (0, [])
    else pure (0, [])
  else pure (0, [])

/-- One device of the loop of `_sendPayload`. -/
def envoyerA (conv : Uuid) (envoi : Nat) (device : Uuid) : Task (Nat × List Uuid) := do
  if ((← Async.get).sessions conv).contains device then
    Async.orElse
      (do
        let enc ← Async.request (Request.encrypt conv device)
        let copie ← uuidV4
        Async.request (Request.sendMessage envoi ⟨conv, device, copie, enc.1, enc.2⟩)
        if (← Async.get).conv? conv |>.any (·.ownDeviceIds.contains device) then pure (1, [])
        else
          Async.exec (.recepisse envoi copie)
          pure (1, [copie]))
      fun _ => pure (0, [])
  else pure (0, [])

def envoyerChacun (conv : Uuid) (envoi : Nat) : List Uuid → Task (Nat × List Uuid)
  | [] => pure (0, [])
  | device :: devices => do
      let un ← envoyerA conv envoi device
      let reste ← envoyerChacun conv envoi devices
      pure (un.1 + reste.1, un.2 ++ reste.2)

/-- The excerpt of the message that is quoted. -/
def extrait (t : Text) : Text := if t.length > 160 then t.take 160 ++ [0x2026] else t

/-- The message `_sendPayload` adds to the thread; `nom` is the text of a UUID. -/
def messageEnvoye (nom : Uuid → Text) (texte : Text) (attachment : Option AttachmentRef)
    (citation : Option ChatMessage) (now ttlSecondes : Int) (envoi delivered : Nat)
    (receiptIds : List Uuid) : ChatMessage :=
  { ChatMessage.new texte true now with
    expiresAt := if ttlSecondes > 0 then some (now + ttlSecondes * 1000000) else none
    id := some (nom envoi)
    replyToId := citation.bind (·.id)
    replyToText := citation.map fun c => extrait c.text
    replyToMine := citation.map (·.mine)
    attachment := attachment
    pendingReceiptIds := receiptIds.map nom
    sendFailed := decide (delivered = 0) }

variable (nom : Uuid → Text)

/-- The paths of `_sendPayload`, one after the other. -/
def diffuser (conv : Uuid) (envoi : Nat) : Task (Nat × List Uuid) := do
  let groupe ← envoyerGroupe conv envoi
  if 0 < groupe.1 then pure groupe
  else
    let chacun ← envoyerChacun conv envoi ((← Async.get).sessions conv)
    pure (chacun.1, groupe.2 ++ chacun.2)

/-- The end of `_sendPayload`: the message is added, and saved unless it has failed. -/
def inscrire (conv : Uuid) (texte : Text) (attachment : Option AttachmentRef)
    (citation : Option ChatMessage) (now : Int) (envoi : Nat) (r : Nat × List Uuid) :
    Task Unit := do
  if Inbox.estAnnonceInterne texte then Async.exec (.setReplyingTo none)
  else
    let ttl := (((← Async.get).conv? conv).map (·.ttlSecondes)).getD 0
    Async.exec (.retoucher conv (.ajouter
      ⟨messageEnvoye nom texte attachment citation now ttl envoi r.1 r.2, some envoi⟩))
    Async.exec (.setReplyingTo none)
    if r.1 = 0 then pure () else saveHistory conv

/-- `_sendPayload`; `now` is the time at its end. -/
def sendPayload (texte : Text) (attachment : Option AttachmentRef) (now : Int) : Task Unit := do
  let s ← Async.get
  match s.activeConversationId with
  | none => pure ()
  | some conv =>
      if (s.conv? conv).any fun c => c.isChannel || !c.sessions.isEmpty then
        Async.orElse
          (do
            let envoi ← uuidV4
            let r ← diffuser conv envoi
            inscrire nom conv texte attachment s.replyingTo now envoi r)
          fun _ => pure ()
      else pure ()

def renvoyer (l : Ligne) (now : Int) : Task Unit := do
  if !l.message.sendFailed then pure ()
  else
    match (← Async.get).conversations.find? (·.messages.contains l) with
    | none => pure ()
    | some c =>
        Async.exec (.retoucher c.id (.retirer l))
        Async.exec (.setActive (some c.id))
        sendPayload nom l.message.text l.message.attachment now

/-- A change of a thread that is saved at once. -/
def retoucherEtSauver (conv : Uuid) (r : Retouche) : Task Unit := do
  Async.exec (.retoucher conv r)
  saveHistory conv

/-- The receipts `_checkDeliveries` asks about. -/
def Monde.aConfirmer (s : Monde) : List Text :=
  (s.conversations.flatMap (·.messages)).flatMap fun l =>
    if l.message.mine && !l.message.delivered then l.message.pendingReceiptIds else []

/-- Its loop over the conversations. -/
def remettreChacun (remis : List Text) : List Uuid → Task Unit
  | [] => pure ()
  | conv :: convs => do
      let change := ((← Async.get).messages conv).any fun l => decide (ARemettre remis l.message)
      Async.exec (.retoucher conv (.remettre remis))
      if change then saveHistory conv
      remettreChacun remis convs

def checkDeliveries : Task Unit := do
  let s ← Async.get
  if s.aConfirmer = [] then pure ()
  else
    match ← (Async.request (Request.deliveredAmong s.aConfirmer) : Task (List Text)).attempt with
    | .error _ => pure ()
    | .ok remis =>
        if remis = [] then pure ()
        else remettreChacun remis ((← Async.get).conversations.map (·.id))

/-- `GET /messages` of a device. -/
def getMessages (claims : Server.Claims) : Task Unit := do
  let s ← Async.get
  match Server.requireAuth s.db claims with
  | .error _ => pure ()
  | .ok me =>
      let pending := Server.selectPending s.db.messageBlobs me.deviceId
      if pending = [] then pure ()
      else Async.request (Request.updateMany me.deviceId pending)

/-! ## Runs -/

inductive OutboxTask where
  | sendPayload (texte : Text) (attachment : Option AttachmentRef) (now : Int)
  | renvoyer (l : Ligne) (now : Int)
  /-- A message is received, an edit applied, …; the history is saved then or later. -/
  | retoucher (conv : Uuid) (r : Retouche)
  | retoucherEtSauver (conv : Uuid) (r : Retouche)
  | saveHistory (conv : Uuid)
  | checkDeliveries
  | getMessages (claims : Server.Claims)
  | autre (a : Stmt)

def OutboxTask.program : OutboxTask → Task Unit
  | .sendPayload texte attachment now => Sending.sendPayload nom texte attachment now
  | .renvoyer l now => Sending.renvoyer nom l now
  | .retoucher conv r => Async.exec (.retoucher conv r)
  | .retoucherEtSauver conv r => Sending.retoucherEtSauver conv r
  | .saveHistory conv => Sending.saveHistory conv
  | .checkDeliveries => Sending.checkDeliveries
  | .getMessages claims => Sending.getMessages claims
  | .autre a => Async.exec a

/-- The sendings and the checks make their own entries. -/
def Retouche.libre : Retouche → Bool
  | .ajouter _ => false
  | .remettre _ => false
  | _ => true

def Stmt.libre : Stmt → Bool
  | .retoucher _ r => r.libre
  | .recepisse _ _ => false
  | _ => true

def OutboxTask.allowed : OutboxTask → Monde → Bool
  | .retoucher _ r, _ => r.libre
  | .retoucherEtSauver _ r, _ => r.libre
  | .autre a, _ => a.libre
  | _, _ => true

abbrev OutboxPool := Pool Monde Stmt Request Reply Unit Outside

abbrev OutboxEvent := Event Stmt Request Outside

/-- The pool a schedule leads to. -/
def outboxRun (me : Auth) (db : Database) (choices : List (Choice OutboxTask Outside)) :
    Option OutboxPool :=
  run (Pool.step (outboxSemantics nom) (OutboxTask.program nom) OutboxTask.allowed) choices
    ⟨.initial me db, [], []⟩

end ZiaCrypte.Sending

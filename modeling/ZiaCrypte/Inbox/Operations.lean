import ZiaCrypte.Inbox.SavedRecords
import ZiaCrypte.Inbox.PollSteps
import ZiaCrypte.Inbox.OrdinaryTexts

/-!
# What a user and the network do to the conversations

The operations of the client that change a message or a conversation, each up to its first
wait, and what comes behind a wait as an operation of its own. The writes of the vault may
come at any time. What the network, the pins and the engine answer is an argument.
-/
namespace ZiaCrypte.Inbox

open ZiaCrypte.Lib ZiaCrypte.Engine

variable {E : Type}

/-! ## The thread and its messages -/

namespace State

/-- A conversation that is in memory is changed. -/
def changer (s : State E) (conv : Text) (f : Conversation → Conversation) : State E :=
  match s.conv? conv with
  | none => s
  | some c => s.putConv conv (f c)

/-- A message stands at the end of a thread. -/
def ajouter (s : State E) (conv : Text) (m : ChatMessage) : State E :=
  s.changer conv fun c => { c with messages := c.messages ++ [m] }

/-- A notice of the application. -/
def avis (s : State E) (conv : Text) (now : Int) (texte : Conversation → Text) : State E :=
  s.changer conv fun c => { c with
    messages := c.messages ++ [{ ChatMessage.new (texte c) false now with systeme := true }] }

/-- Every thread that `f` changes is saved. -/
def parcourir (s : State E) (f : List ChatMessage → List ChatMessage) : State E :=
  s.conversations.keys.foldl (fun s conv =>
    match s.conv? conv with
    | none => s
    | some c =>
        if f c.messages = c.messages then s
        else (s.putConv conv { c with messages := f c.messages }).saveHistory conv) s

/-- The conversation on the screen. -/
def active (s : State E) : Option Text :=
  s.activeConversationId.filter fun conv => (s.conv? conv).isSome

/-- A message that the user points at, while a conversation is open, which is then saved. -/
def surMessage (s : State E) (conv : Text) (i : Nat) (f : ChatMessage → Option ChatMessage) :
    State E :=
  match s.active, s.conv? conv with
  | some active, some c =>
      match c.messages[i]?.bind f with
      | none => s
      | some m => (s.putConv conv { c with messages := c.messages.set i m }).saveHistory active
  | _, _ => s

/-- `_balayerExpires` -/
def balayerExpires (s : State E) (now : Int) : State E :=
  s.parcourir (·.filter fun m => !m.expiresAt.any (· < now))

/-- `_checkDeliveries`, with what the server answered. -/
def checkDeliveries (s : State E) (remis : List Text) : State E :=
  s.parcourir (·.map fun m =>
    if m.mine && !m.delivered && m.pendingReceiptIds.any remis.contains then
      { m with delivered := true }
    else m)

/-- `editMessage`, up to the sending. -/
def editMessage (s : State E) (now : Int) (conv : Text) (i : Nat) (nouveauTexte : Text) :
    State E :=
  s.surMessage conv i fun m =>
    let texte := trim nouveauTexte
    if m.id = none ∨ m.mine = false ∨ texte = [] ∨ texte = m.text then none
    else some { m with text := texte, editedAt := some now }

/-- `deleteForEveryone`, up to the sending. -/
def deleteForEveryone (s : State E) (conv : Text) (i : Nat) : State E :=
  s.surMessage conv i fun m =>
    if m.id = none ∨ m.mine = false then none
    else some { m with deletedForEveryone := true, text := [] }

/-- `reagir`, up to the sending. -/
def reagir (s : State E) (conv : Text) (i : Nat) (emoji : Text) : State E :=
  match s.userId with
  | none => s
  | some moi =>
      if (s.active.bind s.conv?).any (·.isChannel) then s
      else s.surMessage conv i fun m =>
        if m.id = none then none
        else some (Inbox.reagir emoji moi (!((m.reactions.get? emoji).getD []).contains moi) m)

/-- `renvoyer`, up to the sending. -/
def renvoyer (s : State E) (conv : Text) (i : Nat) : State E :=
  match s.conv? conv with
  | none => s
  | some c =>
      if c.messages[i]?.any (·.sendFailed) then
        { s.putConv conv { c with messages := c.messages.eraseIdx i } with
          activeConversationId := some conv }
      else s

/-- `publierDansCanal`, once the post was taken. -/
def publierDansCanal (s : State E) (now : Int) (texte : Text) : State E :=
  match s.active with
  | none => s
  | some conv =>
      if trim texte = [] then s
      else (s.changer conv fun c => { c with
        messages := c.messages ++ [ChatMessage.new (trim texte) true now]
        lastActivity := now }).saveHistory conv

/-- `_tracerFinAppel`, for an outcome that leaves a trace. -/
def tracerFinAppel (s : State E) (now : Int) (conv texte : Text) : State E :=
  (s.avis conv now fun _ => texte).saveHistory conv

/-- `_annoncerAppareil` -/
def annoncerAppareil (s : State E) (now : Int) (conv : Text) (leMien : Bool) : State E :=
  (s.avis conv now fun c =>
    if leMien then text ("Un nouvel appareil a été lié à ton compte. Si ce n’est pas toi, " ++
      "révoque-le dans les options et change ton mot de passe.")
    else c.peerUsername ++ text (" a lié un nouvel appareil. Il reçoit " ++
      "désormais une copie de cette conversation.")).saveHistory conv

/-! ## Conversations -/

/-- `openConversation`, up to the sessions and the receipts. -/
def openConversation (s : State E) (conv : Text) : State E :=
  match s.conv? conv with
  | none => s
  | some c =>
      let s := { s with activeConversationId := some conv, error := false }
      if c.unread = 0 then s else s.putConv conv { c with unread := 0 }

/-- `closeConversation` -/
def closeConversation (s : State E) : State E := { s with activeConversationId := none }

/-- `startChatWith`, once the server named the conversation, up to the sessions. -/
def startChatWith (s : State E) (now : Int) (convId peer peerUserId : Text) : State E :=
  let c := (s.conv? convId).getD { Conversation.new convId peer now with
    messages := s.readHistory convId }
  { s.putConv convId { c with
      peerUsername := peer
      peerUserId := some peerUserId
      unread := 0 } with
    activeConversationId := some convId }

/-- `createGroup`, once the server named the conversation, up to the sessions. -/
def createGroup (s : State E) (now : Int) (convId name : Text) (memberIds : List Text) : State E :=
  let c := (s.conv? convId).getD { Conversation.new convId name now with
    isGroup := true
    memberUserIds := ensemble memberIds }
  { s.putConv convId { c with
      peerUsername := name
      memberUserIds := memberIds.foldl addToSet c.memberUserIds } with
    activeConversationId := some convId }

/-- `refreshGroupMembers`, once the server answered. -/
def refreshGroupMembers (s : State E) (conv : Text) (membres : List Text) : State E :=
  s.changer conv fun c => if c.isGroup then { c with memberUserIds := ensemble membres } else c

/-- A channel is put in the place of whatever was there. -/
def nouveauCanal (s : State E) (now : Int) (id nom : Text) (messages : List ChatMessage) :
    State E :=
  { s.putConv id { Conversation.new id nom now with
      isChannel := true
      messages := messages } with
    activeConversationId := some id }

/-- A conversation leaves the memory. -/
def retirer (s : State E) (conv : Text) : State E :=
  { s with
    conversations := s.conversations.erase conv
    activeConversationId :=
      if s.activeConversationId = some conv then none else s.activeConversationId }

end State

/-! ## The device -/

/-- The client and its polls, what its conversations keep beside their threads, and the entry
`convs` of the vault. -/
structure Appareil (E : Type) where
  poste : Poste E Incoming
  fiches : LinkedMap Text Fiche
  convs : Option Text

/-- A time the clock shows. -/
abbrev Instant := { t : Int // EstDate t }

inductive Operation (E : Type) where
  /-- The polls, one message and one write at a time. -/
  | arrivee (incoming : List Incoming)
  | tour (releve : Nat) (now : Instant)
  | ecrire (releve : Nat)
  /-- `_sendPayload`, behind its sendings. -/
  | envoyer (now : Instant) (texte : Text) (attachment : Option AttachmentRef)
    (citation : Option ChatMessage) (envoi : IssueEnvoi)
  | marquerLu (conv : Text)
  | definirTtl (now : Instant) (conv : Text) (secondes : Int)
  | balayerExpires (now : Instant)
  | checkDeliveries (remis : List Text)
  | editMessage (now : Instant) (conv : Text) (i : Nat) (nouveauTexte : Text)
  | deleteForEveryone (conv : Text) (i : Nat)
  | reagir (conv : Text) (i : Nat) (emoji : Text)
  | renvoyer (conv : Text) (i : Nat)
  | publierDansCanal (now : Instant) (texte : Text)
  | tracerFinAppel (now : Instant) (conv texte : Text)
  | openConversation (conv : Text)
  | closeConversation
  | basculerEpingle (conv : Text)
  | startChatWith (now : Instant) (convId peer peerUserId : Text)
  | createGroup (now : Instant) (convId name : Text) (memberIds : List Text)
  | refreshGroupMembers (conv : Text) (membres : List Text)
  | creerCanal (now : Instant) (id nom adminDevice : Text) (secret : Bytes)
  | rejoindreCanalParLien (now : Instant) (id nom adminDevice : Text)
  | renouvelerCleCanal (conv : Text) (secret : Bytes)
  | quitterCanal (conv : Text)
  /-- `_openSessionsWith`: a device of the list, up to its pin. -/
  | appareilVu (conv device : Text) (leMien : Bool)
  /-- Its pin has changed. -/
  | appareilRefuse (conv device : Text)
  /-- It is new for an account that had others. -/
  | annoncerAppareil (now : Instant) (conv : Text) (leMien : Bool)
  | sessionOuverte (conv device : Text) (session : Nat)
  | restoreSessions (conv : Text)
  | saveSessions (conv : Text)
  | saveHistory (conv : Text)
  | saveConversations
  /-- Whatever an operation does with the engine and the network. -/
  | moteur (outside : E)
  /-- The process ends, or the session is closed, and the next one starts. -/
  | redemarrer

namespace Appareil

variable (P : Platform E) (relance : E → E) (double : Text → Option Int)

abbrev client (a : Appareil E) : State E := a.poste.client

def fiche (a : Appareil E) (conv : Text) : Fiche := (a.fiches.get? conv).getD .new

/-- An operation on the client alone. -/
def surClient (a : Appareil E) (f : State E → State E) : Appareil E :=
  { a with poste := { a.poste with client := f a.client } }

/-- What a conversation that is in memory keeps beside its thread is changed. -/
def surFiche (a : Appareil E) (conv : Text) (f : Conversation → Fiche → Fiche) : Appareil E :=
  match a.client.conv? conv with
  | none => a
  | some c => { a with fiches := a.fiches.insert conv (f c (a.fiche conv)) }

/-- `conversations`: pinned ones first, then the most recent. -/
def ordonnees (a : Appareil E) : List (Conversation × Fiche) :=
  (a.client.conversations.entries.map fun e => (e.2, a.fiche e.1)).insertionSort fun x y =>
    if x.2.pinned = y.2.pinned then y.1.lastActivity ≤ x.1.lastActivity else x.2.pinned = true

/-- `_saveConversations` -/
def saveConversations (a : Appareil E) : Appareil E :=
  { a.surClient State.saveConversations with
    convs := some (jsonEncode (.arr (a.ordonnees.map fun e => .obj (e.1.toJson e.2)))) }

/-- The loop of `_loadConversations`, which an item of the wrong shape ends. -/
def charger (s : State E) : List Json → LinkedMap Text Conversation × LinkedMap Text Fiche →
    LinkedMap Text Conversation × LinkedMap Text Fiche
  | [], acc => acc
  | j :: js, acc =>
      match j.asMap.bind Conversation.fromJson with
      | none => acc
      | some (c, f) => charger s js
          (acc.1.insert c.id { c with messages := s.readHistory c.id }, acc.2.insert c.id f)

/-- `_loadConversations`, into an empty memory. -/
def loadConversations (s : State E) (convs : Option Text) :
    LinkedMap Text Conversation × LinkedMap Text Fiche :=
  match (convs.bind (jsonDecode double)).bind Json.asList with
  | none => (.empty, .empty)
  | some js => charger s js (.empty, .empty)

def redemarrer (a : Appareil E) : Appareil E :=
  let s := Inbox.redemarrer relance a.client
  let (conversations, fiches) := loadConversations double s a.convs
  { a with
    poste := ⟨{ s with conversations := conversations }, []⟩
    fiches := fiches }

/-- `creerCanal`, once the key was left with the server. -/
def creerCanal (a : Appareil E) (now : Int) (id nom adminDevice : Text) (secret : Bytes) :
    Appareil E :=
  if trim nom = [] then a
  else { a.surClient (·.nouveauCanal now id (trim nom) []) with
    fiches := a.fiches.insert id { Fiche.new with
      channelAdminDevice := some adminDevice
      channelIsAdmin := true
      channelLinkSecret := some secret } }

/-- `rejoindreCanalParLien`, once the key was opened and the subscription taken. -/
def rejoindreCanalParLien (a : Appareil E) (now : Int) (id nom adminDevice : Text) :
    Appareil E :=
  if (a.client.conv? id).any (·.isChannel) then
    a.surClient fun s => { s with activeConversationId := some id }
  else { a.surClient (fun s => s.nouveauCanal now id nom (s.readHistory id)) with
    fiches := a.fiches.insert id { Fiche.new with channelAdminDevice := some adminDevice } }

/-- `quitterCanal` -/
def quitterCanal (a : Appareil E) (conv : Text) : Appareil E :=
  if (a.client.conv? conv).any (·.isChannel) then
    { a.surClient (·.retirer conv) with fiches := a.fiches.erase conv }
  else a

/-- Only the admin of a channel publishes there. -/
def publier (a : Appareil E) (now : Int) (texte : Text) : Appareil E :=
  if a.client.active.any fun conv =>
      (a.client.conv? conv).any (·.isChannel) && (a.fiche conv).channelIsAdmin then
    a.surClient (·.publierDansCanal now texte)
  else a

/-- `targetDeviceIds.add`, and `ownDeviceIds.add` for a device of the user. -/
def appareilVu (a : Appareil E) (conv device : Text) (leMien : Bool) : Appareil E :=
  (a.surFiche conv fun _ f =>
      if leMien then { f with ownDeviceIds := addToSet f.ownDeviceIds device } else f).surClient
    (·.changer conv fun c => { c with targetDeviceIds := addToSet c.targetDeviceIds device })

def step : Operation E → Appareil E → Option (Appareil E)
  | .arrivee incoming, a =>
      (Poste.step P relance id (.arrivee incoming) a.poste).map fun p => { a with poste := p }
  | .tour i now, a =>
      (Poste.step P relance id (.tour i now) a.poste).map fun p => { a with poste := p }
  | .ecrire i, a =>
      (Poste.step P relance id (.ecrire i) a.poste).map fun p => { a with poste := p }
  | .envoyer now texte attachment citation envoi, a =>
      some (a.surClient (sendPayload P now texte attachment citation envoi))
  | .marquerLu conv, a => some (a.surClient (marquerLu P conv))
  | .definirTtl now conv secondes, a => some (a.surClient (·.definirTtl now secondes conv))
  | .balayerExpires now, a => some (a.surClient (·.balayerExpires now))
  | .checkDeliveries remis, a => some (a.surClient (·.checkDeliveries remis))
  | .editMessage now conv i texte, a => some (a.surClient (·.editMessage now conv i texte))
  | .deleteForEveryone conv i, a => some (a.surClient (·.deleteForEveryone conv i))
  | .reagir conv i emoji, a => some (a.surClient (·.reagir conv i emoji))
  | .renvoyer conv i, a => some (a.surClient (·.renvoyer conv i))
  | .publierDansCanal now texte, a => some (a.publier now texte)
  | .tracerFinAppel now conv texte, a => some (a.surClient (·.tracerFinAppel now conv texte))
  | .openConversation conv, a => some (a.surClient (·.openConversation conv))
  | .closeConversation, a => some (a.surClient State.closeConversation)
  | .basculerEpingle conv, a =>
      some (a.surFiche conv fun _ f => { f with pinned := !f.pinned })
  | .startChatWith now convId peer peerUserId, a =>
      some (a.surClient (·.startChatWith now convId peer peerUserId))
  | .createGroup now convId name memberIds, a =>
      some (a.surClient (·.createGroup now convId name memberIds))
  | .refreshGroupMembers conv membres, a =>
      some (a.surClient (·.refreshGroupMembers conv membres))
  | .creerCanal now id nom adminDevice secret, a =>
      some (a.creerCanal now id nom adminDevice secret)
  | .rejoindreCanalParLien now id nom adminDevice, a =>
      some (a.rejoindreCanalParLien now id nom adminDevice)
  | .renouvelerCleCanal conv secret, a => some (a.surFiche conv fun c f =>
      if c.isChannel && f.channelIsAdmin then { f with channelLinkSecret := some secret } else f)
  | .quitterCanal conv, a => some (a.quitterCanal conv)
  | .appareilVu conv device leMien, a => some (a.appareilVu conv device leMien)
  | .appareilRefuse conv device, a => some (a.surClient (·.changer conv fun c => { c with
      targetDeviceIds := c.targetDeviceIds.filter (· ≠ device) }))
  | .annoncerAppareil now conv leMien, a => some (a.surClient (·.annoncerAppareil now conv leMien))
  | .sessionOuverte conv device session, a => some (a.surClient (·.changer conv fun c => { c with
      sessions := c.sessions.insert device session }))
  | .restoreSessions conv, a => some (a.surClient (restoreSessions P conv))
  | .saveSessions conv, a => some (a.surClient (saveSessions P conv))
  | .saveHistory conv, a => some (a.surClient (·.saveHistory conv))
  | .saveConversations, a => some a.saveConversations
  | .moteur outside, a => some (a.surClient fun s => { s with outside := outside })
  | .redemarrer, a => some (a.redemarrer relance double)

/-- A device on which nobody has ever had a conversation. -/
def neuf (userId username : Text) (outside : E) : Appareil E where
  poste := ⟨{
    userId := some userId
    username := some username
    conversations := .empty
    activeConversationId := none
    statuts := .empty
    avatars := .empty
    jetonsRemise := .empty
    known := .empty
    identityAlerts := .empty
    accusesLectureActifs := false
    error := false
    coffre := ⟨.empty, .empty, [], .empty, .empty, .empty, .empty⟩
    outside := outside }, []⟩
  fiches := .empty
  convs := none

end Appareil

end ZiaCrypte.Inbox

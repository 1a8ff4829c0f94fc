import ZiaCrypte.Chat.Receives

/-!
# `ChatService`: its runs

A task is one call of the service by the interface, a timer or the socket. A
schedule starts tasks at any time, interleaves them at every `await`, lets the
isolate and the server answer, and may kill the process at any point.
-/
namespace ZiaCrypte.Chat

open ZiaCrypte.Engine ZiaCrypte.Lib

variable {K : Type}

inductive ServiceTask where
  | adoptSession
  | openConversation (id : ConvId)
  | startChatWith (statut : Option Bytes)
  | createGroup (count : Nat) (name : Bytes)
  | refreshGroupMembers
  | send (payload : Payload)
  | diffuserControle (id : ConvId) (charge : Bytes)
  | backfillSibling (sibling : DeviceId) (anciens : ConvId → Bool)
  | viderFileJeton
  | publierJeton
  | signalAppel (id : ConvId) (device : DeviceId) (data : Bytes)
  | recevoirSignalAppel (signal : CallSignal) (decline : Bytes)
  | terminerAppel
  | pollOnce
  | saveConversations
  | acceptIdentityChange (device : DeviceId)
  | markVerified (device : DeviceId) (verified : Bool)

/-- A task on a conversation the client knows. -/
def onConversation (id : ConvId) (body : Ref → Task K Unit) : Task K Unit := do
  let s ← Async.get
  match s.conversations.get? id with
  | none => pure ()
  | some conv => body conv

def ServiceTask.program (P : Platform K) : ServiceTask → Task K Unit
  | .adoptSession => Chat.adoptSession
  | .openConversation id => Chat.openConversation P id
  | .startChatWith statut => Chat.startChatWith P statut
  | .createGroup count name => Chat.createGroup P count name
  | .refreshGroupMembers => Chat.refreshGroupMembers
  | .send payload => Chat.sendPayload P payload
  | .diffuserControle id charge =>
      onConversation id fun conv => Chat.diffuserControle P conv (.controle charge)
  | .backfillSibling sibling anciens => Chat.backfillSibling P sibling anciens
  | .viderFileJeton => Chat.viderFileJeton P
  | .publierJeton => Chat.publierJeton
  | .signalAppel id device data =>
      onConversation id fun conv => Chat.envoyerSignalAppel conv device data
  | .recevoirSignalAppel signal decline => Chat.recevoirSignalAppel signal decline
  | .terminerAppel => Async.exec (.setEnAppel false)
  | .pollOnce => Chat.pollOnce P
  | .saveConversations => Chat.saveConversations
  | .acceptIdentityChange device => Chat.acceptIdentityChange device
  | .markVerified device verified => Chat.markVerified device verified

/-- Nothing runs before the session is adopted, and it is adopted once a launch. -/
def ServiceTask.allowed (t : ServiceTask) (s : Client K) : Bool :=
  match t, s.phase with
  | .adoptSession, .off => true
  | .adoptSession, _ => false
  | _, .connected => true
  | _, _ => false

abbrev ChatPool (K : Type) := Pool (Client K) Stmt (Request K) (Reply K) ChatError (Outside K)

abbrev ChatEvent (K : Type) := Event Stmt (Request K) (Outside K)

abbrev ChatChoice (K : Type) := Choice ServiceTask (Outside K)

def chatStep (P : Platform K) : ChatChoice K → ChatPool K → Option (ChatPool K) :=
  Pool.step (chatSemantics P) (ServiceTask.program P) ServiceTask.allowed

/-- The pool a schedule leads to from the first launch. -/
def chatRun (P : Platform K) (user : UserId) (device : DeviceId) (engine : ZiaEngine K)
    (choices : List (ChatChoice K)) : Option (ChatPool K) :=
  run (chatStep P) choices ⟨.initial user device engine, [], []⟩

end ZiaCrypte.Chat

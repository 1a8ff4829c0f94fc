import ZiaCrypte.Sending.Outbox
import ZiaCrypte.Inbox.KeyOrigins
import ZiaCrypte.Engine.Replay
import ZiaCrypte.Engine.GroupReplay

/-!
# The copies of a message, and the threads they come to

`renvoyer` sends the contents of a failed message under a new number; here each sending keeps
the number of the message that was composed. The server stores a row for each device a request
reaches, whether or not its answer arrives. A recipient opens the rows it has fetched with the
engine, in any order and as often as it likes; what it opens is added to its thread, for
`_pollOnce` looks at no id.
-/
namespace ZiaCrypte.Sending

open ZiaCrypte.Lib ZiaCrypte.Engine ZiaCrypte.Engine.SenderKeys
open ZiaCrypte.Server (Uuid Auth Database MessageBlob)
open ZiaCrypte.Inbox (Text cString)

/-- A row that the server stored for a composed message; `perdu` where the sender saw an
error. -/
structure Depot where
  compose : Nat
  rang : MessageBlob
  perdu : Bool
  deriving DecidableEq

/-- The rows that a request for a sending adds to the table. -/
def Request.depots (origine : Nat → Nat) (q : Request) (x : Outside) (s : Monde) : List Depot :=
  match q.call, x with
  | some (envoi, _, call), .handled now received =>
      ((s.traiter call now).2.messageBlobs.drop s.db.messageBlobs.length).map fun b =>
        ⟨origine envoi, b, !(s.acceptee call now received).isOk⟩
  | _, _ => []

/-! ## Recipients -/

variable {K : Type}

/-- What a recipient's device has of the sender: a session in each conversation, its keys for
groups, and the rows it has opened, the latest first. -/
structure Appareil (K : Type) where
  sessions : Uuid → Option (ZiaSession K)
  groupes : Receiver K
  lus : List Depot

namespace Appareil

def initial : Appareil K := ⟨fun _ => none, .start, []⟩

/-- The composed messages that its threads show, one for each row it has opened. -/
def fil (a : Appareil K) : List Nat := a.lus.map (·.compose)

def putSession (a : Appareil K) (conv : Uuid) (session : ZiaSession K) : Appareil K :=
  { a with sessions := Function.update a.sessions conv (some session) }

variable (P : SenderKeyPrimitives K)

/-- A row with the header of a group. -/
def ouvrirGroupe (alloc : Bool) (groupe expediteur : Identifier) (d : Depot) (a : Appareil K) :
    Appareil K :=
  { a with
    groupes := Receiver.step P (.decrypt alloc groupe expediteur d.rang.ciphertext) a.groupes
    lus := match (ziaSenderKeyDecrypt P alloc a.groupes.keys groupe expediteur
        d.rang.ciphertext).1 with
      | .ok _ => d :: a.lus
      | .error _ => a.lus }

/-- A row for the session of its conversation; `none` where the engine crashes. -/
def ouvrirSession (env : CallEnv K) (conv : Uuid) (ratchetHeader : Bytes) (d : Depot)
    (a : Appareil K) : Option (Appareil K) :=
  match a.sessions conv with
  | none => some a
  | some session =>
      match ziaSessionDecrypt P.toPrimitives env session ratchetHeader d.rang.ciphertext with
      | .ok _ session' => some { a.putSession conv session' with lus := d :: a.lus }
      | .error _ session' => some (a.putSession conv session')
      | .fault => none

/-- `_pollOnce`, one row of the sender. -/
def lire (nom : Uuid → Text) (expediteur : Uuid) (env : CallEnv K) (alloc : Bool) (d : Depot)
    (a : Appareil K) : Option (Appareil K) :=
  match d.rang.conversationId with
  | none => some a
  | some conv =>
      if Chat.Envelope.estGroupe d.rang.ratchetHeader then
        some (a.ouvrirGroupe P alloc (cString (nom conv)) (cString (nom expediteur)) d)
      else
        match Chat.Envelope.unpackHeader d.rang.ratchetHeader with
        | none => some a
        | some unpacked => a.ouvrirSession P env conv unpacked.ratchetHeader d

end Appareil

/-! ## Runs -/

/-- The sender and the server, and the devices that fetch from it. `origine` is the composed
message of a sending, `composes` a number that no composed message has yet. -/
structure Courrier (K : Type) where
  pool : OutboxPool
  origine : Nat → Nat
  composes : Nat
  depots : List Depot
  appareils : Uuid → Appareil K

inductive Fait (P : SenderKeyPrimitives K) where
  | choix (c : Choice OutboxTask Outside)
  | lire (d : Depot) (env : CallEnv K) (alloc : Bool)
  /-- A handshake is accepted, or our own bundle was used. -/
  | accepter (device conv : Uuid)
      (start : { start : SessionStart K // start.FromX3dh P.toX3dhPrimitives })
  /-- What else is done with the session: the recipient's own messages, and the controls, keys
  and batches of `_sendToDevice`, sealed or not. -/
  | appel (device conv : Uuid) (call : RatchetCall K)
  /-- Distributions, and the group messages that are not rows of the sender. -/
  | groupe (device : Uuid) (call : ReceiverCall K)

/-- The keys of the map of sessions. -/
def OutboxTask.cles : OutboxTask → Bool
  | .autre (.charger c) => decide c.sessions.Nodup
  | .autre (.regler _ _ sessions _ _) => decide sessions.Nodup
  | _ => true

def OutboxTask.permis (task : OutboxTask) (s : Monde) : Bool := task.allowed s && task.cles

namespace Courrier

variable (nom : Uuid → Text)

def initial (me : Auth) (db : Database) : Courrier K where
  pool := ⟨.initial me db, [], []⟩
  origine _ := 0
  composes := 0
  depots := []
  appareils _ := .initial

/-- The composed message that a task sends, if it sends one. -/
def messageDe (s : Courrier K) : OutboxTask → Nat
  | .renvoyer l _ => l.envoi.elim s.composes s.origine
  | _ => s.composes

/-- The rows that a choice adds to the table for a composed message. -/
def nouveaux (s : Courrier K) : Choice OutboxTask Outside → List Depot
  | .settle i x =>
      match s.pool.threads[i]? with
      | some (.blocked _ q _) => q.depots s.origine x s.pool.state
      | _ => []
  | _ => []

/-- A task that starts draws the number of its sending first. -/
def inscrire (s : Courrier K) : Choice OutboxTask Outside → Courrier K
  | .start task =>
      { s with
        origine := Function.update s.origine s.pool.state.uuid (s.messageDe task)
        composes := s.composes + 1 }
  | _ => s

def choisir (c : Choice OutboxTask Outside) (s : Courrier K) : Option (Courrier K) :=
  (Pool.step (outboxSemantics nom) (OutboxTask.program nom) OutboxTask.permis c s.pool).map
    fun pool => { s.inscrire c with pool := pool, depots := s.depots ++ s.nouveaux c }

def poser (s : Courrier K) (device : Uuid) (a : Appareil K) : Courrier K :=
  { s with appareils := Function.update s.appareils device a }

/-- The row is there, and its device has fetched it. -/
def Releve (s : Courrier K) (d : Depot) : Prop :=
  d ∈ s.depots ∧ (d.rang.recipientDeviceId, d.rang.clientMessageId) ∈ s.pool.state.releves

instance (s : Courrier K) (d : Depot) : Decidable (s.Releve d) :=
  inferInstanceAs (Decidable (_ ∧ _))

variable (P : SenderKeyPrimitives K)

def step : Fait P → Courrier K → Option (Courrier K)
  | .choix c, s => s.choisir nom c
  | .lire d env alloc, s =>
      let device := d.rang.recipientDeviceId
      if s.Releve d then
        ((s.appareils device).lire P nom s.pool.state.me.deviceId env alloc d).map (s.poser device)
      else none
  | .accepter device conv start, s =>
      match (s.appareils device).sessions conv with
      | some _ => none
      | none => some (s.poser device
          ((s.appareils device).putSession conv (start.1.session P.toPrimitives)))
  | .appel device conv call, s =>
      match (s.appareils device).sessions conv with
      | none => none
      | some session =>
          (RatchetCall.step P.toPrimitives call session).map fun session' =>
            s.poser device ((s.appareils device).putSession conv session')
  | .groupe device call, s =>
      some (s.poser device { s.appareils device with
        groupes := Receiver.step P call (s.appareils device).groupes })

/-- No device gets another copy of a message of which it has one that the sender believes
lost. -/
def SansRedepot : Fait P → Courrier K → Prop
  | .choix c, s => ∀ d ∈ s.nouveaux c, ∀ d' ∈ s.depots, d'.perdu = true →
      d'.compose = d.compose → d'.rang.recipientDeviceId ≠ d.rang.recipientDeviceId
  | _, _ => True

/-- No distribution brings back keys of a group that have opened messages. -/
def ClefsNeuves : Fait P → Courrier K → Prop
  | .groupe device call, s => FreshDistribution P call (s.appareils device).groupes
  | _, _ => True

instance (f : Fait P) (s : Courrier K) : Decidable (SansRedepot P f s) :=
  match f with
  | .choix c => inferInstanceAs (Decidable (∀ d ∈ s.nouveaux c, _))
  | .lire _ _ _ => isTrue trivial
  | .accepter _ _ _ => isTrue trivial
  | .appel _ _ _ => isTrue trivial
  | .groupe _ _ => isTrue trivial

end Courrier

end ZiaCrypte.Sending

import ZiaCrypte.Server.Database
import ZiaCrypte.Lib.Index
import ZiaCrypte.Lib.LinkedMap

/-!
# `gateway.ts`: the indexes of the real-time gateway and its handlers

A handler runs to its end, or to its next `await`, before another one starts. What
`autoriserObservation` and `bloquePourAppel` answer is an input of the step that goes
on after it. A socket keeps the claims of its handshake for as long as it lives,
whatever the indexes say of it.
-/
namespace ZiaCrypte.Realtime

open ZiaCrypte.Lib ZiaCrypte.Server

abbrev Socket := Nat

/-- `readyState`; the server never sees a socket that is still connecting. -/
inductive ReadyState where
  | opened
  | closing
  | closed
  deriving DecidableEq

structure Titulaire where
  deviceId : Uuid
  userId : Uuid
  deriving DecidableEq

/-- A socket, and what its handlers were given at the handshake. -/
structure Connexion where
  titulaire : Titulaire
  readyState : ReadyState
  deriving DecidableEq

inductive Etat where
  | online
  | offline
  deriving DecidableEq

/-- A UTF-16 string, such as the payload whose length is bounded. -/
abbrev Payload := List UInt16

inductive Envoi where
  | pong
  | ready
  | typing (stop : Bool) (conversationId : String) (expediteur : Uuid)
  | callSignal (expediteur : Uuid) (callId kind : String) (payload : Payload)
  | snapshot (online : List Uuid)
  | presence (device : Uuid) (state : Etat)
  | messagePending
  deriving DecidableEq

structure Gateway where
  byDevice : Index Uuid Socket
  titulaires : LinkedMap Socket Titulaire
  abonnements : Index Socket Uuid
  observateurs : Index Uuid Socket
  visibles : List Uuid
  /-- The sockets of the `ws` server. -/
  connexions : Socket → Option Connexion
  /-- What went out, the latest first. -/
  envois : List (Socket × Envoi)

/-- An array of the message, as far as its elements are strings. -/
abbrev Devices := Option (List (Option Uuid))

/-- `filter(typeof d === 'string').slice(0, n)`; what is no array counts as empty. -/
def Devices.firsts (xs : Devices) (n : Nat) : List Uuid := ((xs.getD []).filterMap id).take n

/-- A message, with the fields its handler looks at. -/
inductive Message where
  | ping
  | typing (stop : Bool) (cibles : Devices) (conversationId : Option String)
  | presenceMode (visible : Bool)
  | presenceSubscribe (devices : Devices)
  | callSignal (kind callId : Option String) (payload : Option Payload) (cibles : Devices)
  | autre
  deriving DecidableEq

def MAX_ABONNEMENTS : Nat := 200

def KINDS_APPEL : List String := ["invite", "offer", "answer", "ice", "hangup", "decline"]

def MAX_PAYLOAD_APPEL : Nat := 16 * 1024

namespace Gateway

def empty : Gateway where
  byDevice := .empty
  titulaires := .empty
  abonnements := .empty
  observateurs := .empty
  visibles := []
  connexions := fun _ => none
  envois := []

def isOpen (g : Gateway) (socket : Socket) : Bool :=
  (g.connexions socket).any (·.readyState = .opened)

/-- `ws` drops what is sent to a socket that is not open. -/
def send (g : Gateway) (sockets : List Socket) (e : Envoi) : Gateway :=
  { g with envois := ((sockets.filter g.isOpen).map fun w => (w, e)).reverse ++ g.envois }

def setConnexion (g : Gateway) (socket : Socket) (c : Option Connexion) : Gateway :=
  { g with connexions := Function.update g.connexions socket c }

def setReadyState (g : Gateway) (socket : Socket) (state : ReadyState) : Gateway :=
  g.setConnexion socket ((g.connexions socket).map fun c => { c with readyState := state })

/-- `socket.close()`: a socket that is closing or closed stays as it is. -/
def closeSocket (g : Gateway) (socket : Socket) : Gateway :=
  if g.isOpen socket then g.setReadyState socket .closing else g

/-! ## Presence -/

def diffuserPresence (g : Gateway) (deviceId : Uuid) (etat : Etat) : Gateway :=
  match g.observateurs.get? deviceId with
  | none => g
  | some observateurs => g.send observateurs (.presence deviceId etat)

def declarerVisibilite (g : Gateway) (deviceId : Uuid) (visible : Bool) : Gateway :=
  if visible = decide (deviceId ∈ g.visibles) then g
  else if visible then
    ({ g with visibles := g.visibles ++ [deviceId] }).diffuserPresence deviceId .online
  else
    ({ g with visibles := g.visibles.filter (· ≠ deviceId) }).diffuserPresence deviceId .offline

/-- Visible, with at least one open socket. -/
def estEnLigne (g : Gateway) (deviceId : Uuid) : Bool :=
  decide (deviceId ∈ g.visibles) &&
    match g.byDevice.get? deviceId with
    | none => false
    | some sockets => sockets.any g.isOpen

def desabonner (g : Gateway) (socket : Socket) : Gateway :=
  match g.abonnements.get? socket with
  | none => g
  | some cibles =>
      { g with
        observateurs := g.observateurs.removeAll cibles socket
        abonnements := g.abonnements.delete socket }

/-- `abonnerPresence` from the answer of `autoriserObservation` on. -/
def abonnerPresence (g : Gateway) (socket : Socket) (autorises : List Uuid) : Gateway :=
  if !g.titulaires.containsKey socket then g
  else
    let g := g.desabonner socket
    let g := if autorises = [] then g else
      { g with
        abonnements := g.abonnements.set socket autorises
        observateurs := g.observateurs.addAll autorises socket }
    g.send [socket] (.snapshot (autorises.filter g.estEnLigne))

/-- One turn of the loop of `revoquerPresence`. -/
def revoquerSocket (userA userB : Uuid) (a b : List Uuid) (g : Gateway)
    (entree : Socket × Titulaire) : Gateway :=
  let (socket, titulaire) := entree
  match (if titulaire.userId = userA then some b
    else if titulaire.userId = userB then some a else none) with
  | none => g
  | some interdits =>
      match g.abonnements.get? socket with
      | none => g
      | some cibles =>
          let reste := cibles.filter (· ∉ interdits)
          { g with
            observateurs :=
              g.observateurs.removeAll (interdits.filter (· ∈ cibles)) socket
            abonnements := if reste = [] then g.abonnements.delete socket
              else g.abonnements.set socket reste }

/-- `revoquerPresence` from the devices of the two accounts on. -/
def revoquerPresence (g : Gateway) (userA userB : Uuid) (a b : List Uuid) : Gateway :=
  g.titulaires.entries.foldl (revoquerSocket userA userB a b) g

/-! ## Connections -/

def attach (g : Gateway) (deviceId : Uuid) (socket : Socket) : Gateway :=
  { g with byDevice := g.byDevice.add deviceId socket }

/-- A device that has just lost its last connection is announced offline. -/
def masquer (g : Gateway) (deviceId : Uuid) : Gateway :=
  if deviceId ∈ g.visibles then
    ({ g with visibles := g.visibles.filter (· ≠ deviceId) }).diffuserPresence deviceId .offline
  else g

def detach (g : Gateway) (deviceId : Uuid) (socket : Socket) : Gateway :=
  let g := ({ g with titulaires := g.titulaires.erase socket }).desabonner socket
  match g.byDevice.get? deviceId with
  | none => g
  | some sockets =>
      let reste := sockets.filter (· ≠ socket)
      if reste ≠ [] then { g with byDevice := g.byDevice.set deviceId reste }
      else ({ g with byDevice := g.byDevice.delete deviceId }).masquer deviceId

/-- The handshake of a socket, and what `verifyAccess` made of its token. Without valid
claims the socket is closed, and no index has it. -/
def connexion (g : Gateway) (socket : Socket) : Option Titulaire → Gateway
  | none => g
  | some titulaire =>
      let g := g.setConnexion socket (some ⟨titulaire, .opened⟩)
      let g := g.attach titulaire.deviceId socket
      let g := { g with titulaires := g.titulaires.insert socket titulaire }
      g.send [socket] .ready

def deconnecterAppareil (g : Gateway) (deviceId : Uuid) : Gateway :=
  match g.byDevice.get? deviceId with
  | none => g
  | some sockets =>
      let g := sockets.foldl closeSocket g
      ({ g with byDevice := g.byDevice.delete deviceId }).masquer deviceId

/-! ## Relays -/

/-- The answer tells whether a socket was reached. -/
def envoyerA (g : Gateway) (deviceId : Uuid) (charge : Envoi) : Bool × Gateway :=
  match g.byDevice.get? deviceId with
  | none => (false, g)
  | some sockets => (sockets.any g.isOpen, g.send sockets charge)

def notifyPending (g : Gateway) (deviceId : Uuid) : Bool × Gateway :=
  g.envoyerA deviceId .messagePending

def relayerEphemere (g : Gateway) (expediteur : Uuid) (stop : Bool) (cibles : Devices)
    (conversationId : Option String) : Gateway :=
  match cibles, conversationId with
  | some cibles, some conversationId =>
      (Devices.firsts (some cibles) 50).foldl (fun g cible =>
        (g.envoyerA cible (.typing stop conversationId expediteur)).2) g
  | _, _ => g

end Gateway

/-! ## The steps -/

/-- A subscription between its `await` and what follows. -/
structure AbonnementEnCours where
  socket : Socket
  observateur : Uuid
  demandes : List Uuid
  deriving DecidableEq

/-- An invitation whose next target is being checked for a block. -/
structure InvitationEnCours where
  titulaire : Titulaire
  callId : String
  payload : Payload
  cibles : List Uuid
  deriving DecidableEq

def InvitationEnCours.charge (v : InvitationEnCours) : Envoi :=
  .callSignal v.titulaire.deviceId v.callId "invite" v.payload

structure Runtime where
  gateway : Gateway
  abonnements : List AbonnementEnCours
  invitations : List InvitationEnCours

inductive Input where
  | connexion (socket : Socket) (claims : Option Titulaire)
  /-- The closing handshake begins on the other side, or the transport fails. -/
  | closing (socket : Socket)
  | close (socket : Socket)
  | error (socket : Socket)
  | message (socket : Socket) (m : Message)
  /-- The answer of `autoriserObservation` to a subscription. -/
  | autorise (i : Nat) (autorises : List Uuid)
  /-- The answer of `bloquePourAppel` for the next target of an invitation. -/
  | verifie (i : Nat) (bloque : Bool)
  | revoquerPresence (userA userB : Uuid) (a b : List Uuid)
  | deconnecterAppareil (deviceId : Uuid)
  | notifyPending (deviceId : Uuid)
  deriving DecidableEq

namespace Runtime

def start : Runtime := ⟨.empty, [], []⟩

/-- Only an invitation waits, for what its targets have blocked. -/
def relayerAppel (s : Runtime) (socket : Socket) (kind callId : Option String)
    (payload : Option Payload) (cibles : Devices) : Runtime :=
  match s.gateway.titulaires.get? socket, kind, callId, payload with
  | some titulaire, some kind, some callId, some payload =>
      let cibles := cibles.firsts 10
      if kind ∉ KINDS_APPEL ∨ payload.length > MAX_PAYLOAD_APPEL ∨ cibles = [] then s
      else if kind = "invite" then
        { s with invitations := s.invitations ++ [⟨titulaire, callId, payload, cibles⟩] }
      else
        { s with
          gateway := cibles.foldl (fun g cible =>
            (g.envoyerA cible (.callSignal titulaire.deviceId callId kind payload)).2) s.gateway }
  | _, _, _, _ => s

def traiterMessage (s : Runtime) (socket : Socket) (deviceId : Uuid) : Message → Runtime
  | .ping => { s with gateway := s.gateway.send [socket] .pong }
  | .typing stop cibles conversationId =>
      { s with gateway := s.gateway.relayerEphemere deviceId stop cibles conversationId }
  | .presenceMode visible =>
      { s with gateway := s.gateway.declarerVisibilite deviceId visible }
  | .presenceSubscribe devices =>
      match s.gateway.titulaires.get? socket with
      | none => s
      | some titulaire =>
          { s with abonnements := s.abonnements ++
              [⟨socket, titulaire.userId, devices.firsts MAX_ABONNEMENTS⟩] }
  | .callSignal kind callId payload cibles => s.relayerAppel socket kind callId payload cibles
  | .autre => s

/-- What cannot come next is no step: a handshake on a socket that exists, an event of
one that does not or that is closed, the answer to a question nobody asked. -/
def step : Input → Runtime → Option Runtime
  | .connexion socket claims, s =>
      if (s.gateway.connexions socket).isSome then none
      else some { s with gateway := s.gateway.connexion socket claims }
  | .closing socket, s =>
      if s.gateway.isOpen socket then
        some { s with gateway := s.gateway.closeSocket socket }
      else none
  | .close socket, s => do
      let c ← s.gateway.connexions socket
      if c.readyState = .closed then none
      else some { s with gateway :=
        (s.gateway.setReadyState socket .closed).detach c.titulaire.deviceId socket }
  | .error socket, s => do
      let c ← s.gateway.connexions socket
      if c.readyState = .closed then none
      else some { s with gateway :=
        (s.gateway.closeSocket socket).detach c.titulaire.deviceId socket }
  | .message socket m, s => do
      let c ← s.gateway.connexions socket
      if c.readyState = .closed then none
      else some (s.traiterMessage socket c.titulaire.deviceId m)
  | .autorise i autorises, s => do
      let a ← s.abonnements[i]?
      if autorises.all (· ∈ a.demandes) then
        some { s with
          gateway := s.gateway.abonnerPresence a.socket autorises
          abonnements := s.abonnements.eraseIdx i }
      else none
  | .verifie i bloque, s => do
      let v ← s.invitations[i]?
      let cible ← v.cibles.head?
      let reste := v.cibles.tail
      some { s with
        gateway := if bloque then s.gateway else (s.gateway.envoyerA cible v.charge).2
        invitations := if reste = [] then s.invitations.eraseIdx i
          else s.invitations.set i { v with cibles := reste } }
  | .revoquerPresence userA userB a b, s =>
      some { s with gateway := s.gateway.revoquerPresence userA userB a b }
  | .deconnecterAppareil deviceId, s =>
      some { s with gateway := s.gateway.deconnecterAppareil deviceId }
  | .notifyPending deviceId, s =>
      some { s with gateway := (s.gateway.notifyPending deviceId).2 }

end Runtime

end ZiaCrypte.Realtime

import ZiaCrypte.Lib.Async

/-!
# The calls of `ChatService`

The fields of the current call, the actions of the user and the signals that are received,
each a body that other bodies may interrupt at its awaits. The ring tone, the display and
the line a call leaves in the thread are left out.
-/
namespace ZiaCrypte.Calls

open ZiaCrypte.Lib

abbrev DeviceId := Nat
abbrev ConvId := Nat
abbrev CallId := Nat
abbrev IceServers := Nat

/-- What the server gives for a call: nothing, or an object with its `iceServers`. -/
abbrev Creds := Option (Option IceServers)

inductive CallEtat where
  | aucun
  | sortant
  | entrant
  | connecte
  deriving DecidableEq

/-- `KINDS_APPEL` -/
inductive Kind where
  | invite
  | offer
  | answer
  | ice
  | hangup
  | decline
  deriving DecidableEq

/-- What is read of the JSON a signal carries. -/
structure Data where
  sdp : Option Nat
  candidate : Option Nat
  deriving DecidableEq

/-- `{'v': 1}` -/
def Data.vide : Data := ⟨none, none⟩

/-- A signal as the gateway relays it. It is authentic when its payload opens with the
session of the device it names. -/
structure Frame where
  sender : DeviceId
  kind : Kind
  callId : CallId
  authentique : Bool
  deriving DecidableEq

/-- A signal this device sends. -/
structure Signal where
  device : DeviceId
  callId : CallId
  kind : Kind
  data : Data
  deriving DecidableEq

structure Conversation where
  id : ConvId
  peerUsername : String
  isGroup : Bool
  isChannel : Bool
  sessions : List DeviceId
  ownDeviceIds : List DeviceId
  deriving DecidableEq

/-- A `CallSession`, with the candidates that came while it was the current one. -/
structure CallSession where
  conv : ConvId
  callId : CallId
  candidats : List Data
  deriving DecidableEq

/-- The fields of the current call. -/
structure Appel where
  callEtat : CallEtat
  callId : Option CallId
  callPeerName : Option String
  callConvId : Option ConvId
  callPairDevice : Option DeviceId
  callIceServers : Option IceServers
  callSession : Option CallSession
  offreEntrante : Option Data
  iceEnAttente : List Data
  iceLocalEnAttente : List Data
  callCibles : List DeviceId
  callMediaConnecte : Bool
  /-- A timer is armed. -/
  timeoutMedia : Bool
  deriving DecidableEq

def Appel.aucun : Appel where
  callEtat := .aucun
  callId := none
  callPeerName := none
  callConvId := none
  callPairDevice := none
  callIceServers := none
  callSession := none
  offreEntrante := none
  iceEnAttente := []
  iceLocalEnAttente := []
  callCibles := []
  callMediaConnecte := false
  timeoutMedia := false

/-- A call that was begun. -/
structure Debut where
  callId : CallId
  conv : ConvId
  peerName : String
  deriving DecidableEq

/-- The service. The last four fields only keep which calls were begun, which devices
called, with which devices a call was answered, and which calls were ended. -/
structure Service where
  appel : Appel
  conversations : List Conversation
  activerMediaAppel : Bool
  nextTicket : Nat
  emis : List Signal
  debuts : List Debut
  invitations : List (DeviceId × CallId)
  reponses : List (DeviceId × CallId)
  termines : List CallId

namespace Service

def initial (conversations : List Conversation) (activerMediaAppel : Bool) : Service where
  appel := .aucun
  conversations := conversations
  activerMediaAppel := activerMediaAppel
  nextTicket := 0
  emis := []
  debuts := []
  invitations := []
  reponses := []
  termines := []

/-- The fields of a `Conversation` object. -/
def conversation (s : Service) (id : ConvId) : Conversation :=
  (s.conversations.find? (·.id == id)).getD ⟨id, "inconnu", false, false, [], []⟩

/-- `_convPourDevice` -/
def convPourDevice (s : Service) (device : DeviceId) : Option ConvId :=
  (s.conversations.find? fun c => !c.isGroup && !c.isChannel && c.sessions.contains device).map
    (·.id)

def enAppel (s : Service) : Bool := s.appel.callEtat != .aucun

/-- `_terminerAppel` -/
def terminerAppel (s : Service) : Service :=
  { s with
    appel := .aucun
    termines := s.appel.callId.toList ++ s.termines }

/-- The devices of the other person that ring. -/
def cibles (s : Service) (conv : ConvId) : List DeviceId :=
  let c := s.conversation conv
  c.sessions.filter fun d => !c.ownDeviceIds.contains d

/-- `appeler`, from the id of the call to the first await behind it. -/
def sortir (s : Service) (conv : ConvId) (id : CallId) : Service :=
  let c := s.conversation conv
  let sortant : Service := { s with
    appel := { s.appel with
      callId := some id
      callPeerName := some c.peerUsername
      callConvId := some conv
      callEtat := .sortant }
    debuts := ⟨id, conv, c.peerUsername⟩ :: s.debuts }
  if s.cibles conv = [] then sortant.terminerAppel
  else { sortant with appel := { sortant.appel with
    callCibles := s.cibles conv
    callPairDevice := none } }

/-- `_recevoirSignalAppel`, at an invitation while there is no call. -/
def sonner (s : Service) (conv : ConvId) (f : Frame) (data : Data) : Service :=
  let c := s.conversation conv
  { s with
    appel := { s.appel with
      offreEntrante := some data
      callId := some f.callId
      callPairDevice := some f.sender
      callPeerName := some c.peerUsername
      callConvId := some conv
      callEtat := .entrant }
    debuts := ⟨f.callId, conv, c.peerUsername⟩ :: s.debuts
    invitations := (f.sender, f.callId) :: s.invitations }

/-- `accepterAppel`, once the relays are known: the call of a device is answered. -/
def connecter (s : Service) (device : DeviceId) (id : CallId) : Service :=
  { s with
    appel := { s.appel with callEtat := .connecte }
    reponses := (device, id) :: s.reponses }

/-- At an answer to the call that rings. -/
def decrocher (s : Service) (f : Frame) : Service :=
  { s with
    appel := { s.appel with callPairDevice := some f.sender, callEtat := .connecte }
    reponses := (f.sender, f.callId) :: s.reponses }

/-- At a candidate: it is kept until there is a session. -/
def candidat (s : Service) (data : Data) : Service :=
  match s.appel.callSession with
  | none => { s with appel := { s.appel with iceEnAttente := s.appel.iceEnAttente ++ [data] } }
  | some session => { s with appel := { s.appel with
      callSession := some { session with candidats := session.candidats ++ [data] } } }

/-- `onConnecte` of the media session. -/
def mediaConnecte (s : Service) (connecte : Bool) : Service :=
  { s with appel := { s.appel with
    callMediaConnecte := connecte
    timeoutMedia := s.appel.timeoutMedia && !connecte } }

/-- `onSignal` of the media session of a call, with a local candidate. -/
def iceLocal (s : Service) (id : CallId) (data : Data) : Service :=
  match s.appel.callPairDevice with
  | none =>
      { s with appel := { s.appel with iceLocalEnAttente := s.appel.iceLocalEnAttente ++ [data] } }
  | some device => { s with emis := s.emis ++ [⟨device, id, .ice, data⟩] }

end Service

/-! ## Statements and requests -/

/-- The assignments between two awaits. A frame is the signal they are made for. -/
inductive Stmt where
  | setIceServers (servers : Option IceServers)
  | sortir (conv : ConvId) (id : CallId)
  | setSession (conv : ConvId) (id : CallId)
  | connecter (device : DeviceId) (id : CallId)
  | viderIce
  | armerTimeoutMedia (f : Option Frame)
  | desarmer
  | terminerAppel
  | raccroche (f : Frame)
  | sonner (conv : ConvId) (f : Frame) (data : Data)
  | decrocher (f : Frame)
  | viderIceLocal (f : Frame)
  | candidat (f : Frame) (data : Data)
  | mediaConnecte (connecte : Bool)
  | iceLocal (id : CallId) (data : Data)
  /-- `unawaited(_envoyerSignalAppel(…))` -/
  | emettre (signals : List Signal)
  | setConversations (conversations : List Conversation)
  deriving DecidableEq

def Stmt.apply : Stmt → Service → Service
  | .setIceServers servers, s => { s with appel := { s.appel with callIceServers := servers } }
  | .sortir conv id, s => s.sortir conv id
  | .setSession conv id, s =>
      { s with appel := { s.appel with callSession := some ⟨conv, id, []⟩ } }
  | .connecter device id, s => s.connecter device id
  | .viderIce, s => { s with appel := { s.appel with iceEnAttente := [] } }
  | .armerTimeoutMedia _, s => { s with appel := { s.appel with timeoutMedia := true } }
  | .desarmer, s => { s with appel := { s.appel with timeoutMedia := false } }
  | .terminerAppel, s => s.terminerAppel
  | .raccroche _, s => s.terminerAppel
  | .sonner conv f data, s => s.sonner conv f data
  | .decrocher f, s => s.decrocher f
  | .viderIceLocal _, s => { s with appel := { s.appel with iceLocalEnAttente := [] } }
  | .candidat _ data, s => s.candidat data
  | .mediaConnecte connecte, s => s.mediaConnecte connecte
  | .iceLocal id data, s => s.iceLocal id data
  | .emettre signals, s => { s with emis := s.emis ++ signals }
  | .setConversations conversations, s => { s with conversations := conversations }

/-- What an await waits for. -/
inductive Request where
  | turnCredentials
  | creerOffre
  | repondre (offre : Data)
  | appliquerReponse (data : Data)
  | ajouterCandidat (data : Data)
  | envoyerSignalAppel (signal : Signal)
  | decrypt (f : Frame)

abbrev Reply : Request → Type
  | .turnCredentials => Creds
  | .creerOffre => Data
  | .repondre _ => Data
  | .decrypt _ => Data
  | _ => Unit

/-- What the outside decides about a request. -/
inductive Outside where
  | failed
  | done
  | creds (creds : Creds)
  | data (data : Data)

def Request.answer : (q : Request) → Outside → Except Unit (Reply q)
  | .turnCredentials, .creds creds => .ok creds
  | .creerOffre, .data data => .ok data
  | .repondre _, .data data => .ok data
  | .appliquerReponse _, .done => .ok ()
  | .ajouterCandidat _, .done => .ok ()
  -- What fails there is caught there.
  | .envoyerSignalAppel _, _ => .ok ()
  -- Only the holder of the session can make a payload that opens with it.
  | .decrypt f, .data data => if f.authentique then .ok data else .error ()
  | _, _ => .error ()

def Request.settle : Request → Service → Service
  | .envoyerSignalAppel signal, s => { s with emis := s.emis ++ [signal] }
  | _, s => s

def callSemantics : Semantics Service Stmt Request Reply Unit Outside where
  act := Stmt.apply
  issue _ s := { s with nextTicket := s.nextTicket + 1 }
  ticket := Service.nextTicket
  ready _ _ _ _ := true
  settle _ q _ s := q.settle s
  answer q x _ := q.answer x
  crash s := { s with appel := .aucun }

abbrev Task (α : Type) := Async Service Stmt Request Reply Unit α

/-! ## The bodies -/

/-- `await _envoyerSignalAppel(…)`, to each device in turn. -/
def envoyerChacun (id : CallId) (kind : Kind) (data : Data) : List DeviceId → Task Unit
  | [] => pure ()
  | d :: ds => do
      Async.request (Request.envoyerSignalAppel ⟨d, id, kind, data⟩)
      envoyerChacun id kind data ds

/-- The session prepares the offer that goes with the invitation, where there is one. -/
def preparerOffre (conv : ConvId) (id : CallId) : Task Data := do
  if (← Async.get).activerMediaAppel then
    match ← (Async.request Request.creerOffre : Task Data).attempt with
    | .ok data =>
        Async.exec (.setSession conv id)
        pure data
    | .error _ => pure .vide
  else pure .vide

/-- `id` is drawn at random. -/
def appeler (conv : ConvId) (id : CallId) : Task Unit := do
  let s ← Async.get
  let c := s.conversation conv
  if c.isGroup || c.isChannel || s.enAppel then pure ()
  else
    match ← (Async.request Request.turnCredentials : Task Creds).attempt with
    | .ok (some servers) =>
        Async.exec (.setIceServers servers)
        let cibles := (← Async.get).cibles conv
        Async.exec (.sortir conv id)
        if cibles = [] then pure ()
        else
          let data ← preparerOffre conv id
          envoyerChacun id .invite data cibles
    | _ => pure ()

/-- The candidates that came too early are handed to the session. The loop over
`_iceEnAttente` throws when the list has changed length meanwhile. -/
def rejouerCandidats (length : Nat) : List Data → Task Unit
  | [] => pure ()
  | c :: cs => do
      let _ ← (Async.request (Request.ajouterCandidat c) : Task Unit).attempt
      if (← Async.get).appel.iceEnAttente.length ≠ length then Async.raise ()
      else rejouerCandidats length cs

/-- The session answers the offer, where there is one. -/
def repondreOffre (conv : ConvId) (id : CallId) : Task Data := do
  let s ← Async.get
  match s.appel.offreEntrante with
  | none => pure .vide
  | some offre =>
      if s.activerMediaAppel && offre.sdp.isSome then
        match ← (Async.request (Request.repondre offre) : Task Data).attempt with
        | .error _ => pure .vide
        | .ok data =>
            Async.exec (.setSession conv id)
            let attente := (← Async.get).appel.iceEnAttente
            let _ ← (do
              rejouerCandidats attente.length attente
              Async.exec .viderIce
              Async.exec (.armerTimeoutMedia none) : Task Unit).attempt
            pure data
      else pure .vide

/-- `accepterAppel`, once the device and the id of the call are read. -/
def accepter (conv : ConvId) (device : DeviceId) (id : CallId) : Task Unit := do
  if (← Async.get).appel.callIceServers.isNone then
    match ← (Async.request Request.turnCredentials : Task Creds).attempt with
    | .ok creds => Async.exec (.setIceServers creds.join)
    | .error _ => pure ()
  -- The state is written without another look at the call.
  Async.exec (.connecter device id)
  let data ← repondreOffre conv id
  Async.request (Request.envoyerSignalAppel ⟨device, id, .answer, data⟩)

def accepterAppel : Task Unit := do
  let s ← Async.get
  match s.appel.callPairDevice, s.appel.callId with
  | some device, some id =>
      if s.appel.callEtat ≠ .entrant then pure ()
      else
        match s.convPourDevice device with
        | none => pure ()
        | some conv => accepter conv device id
  | _, _ => pure ()

/-- To each device in turn that a conversation has a session with. -/
def raccrocherChacun (id : CallId) (kind : Kind) : List DeviceId → Task Unit
  | [] => pure ()
  | d :: ds => do
      if ((← Async.get).convPourDevice d).isSome then
        Async.request (Request.envoyerSignalAppel ⟨d, id, kind, .vide⟩)
      raccrocherChacun id kind ds

def raccrocher : Task Unit := do
  let s ← Async.get
  let kind := if s.appel.callEtat = .entrant then Kind.decline else .hangup
  match s.appel.callId with
  | none => pure ()
  | some id =>
      raccrocherChacun id kind (match s.appel.callPairDevice with
        | some device => [device]
        | none => s.appel.callCibles)
  Async.exec .terminerAppel

/-- The answer to our call: the media, the candidates kept back, the other devices. -/
def conclure (f : Frame) (data : Data) : Task Unit := do
  if data.sdp.isSome then
    let _ ← (Async.request (Request.appliquerReponse data) : Task Unit).attempt
  let s ← Async.get
  Async.exec (.emettre (s.appel.iceLocalEnAttente.map fun c => ⟨f.sender, f.callId, .ice, c⟩))
  Async.exec (.viderIceLocal f)
  Async.exec (.emettre ((s.appel.callCibles.filter (· ≠ f.sender)).map fun d =>
    ⟨d, f.callId, .hangup, .vide⟩))
  if s.appel.callSession.isSome then Async.exec (.armerTimeoutMedia (some f))

/-- `_recevoirSignalAppel`, once the payload is open. -/
def traiter (conv : ConvId) (f : Frame) (data : Data) : Task Unit := do
  let s ← Async.get
  match f.kind with
  | .invite =>
      if s.enAppel then
        Async.request (Request.envoyerSignalAppel ⟨f.sender, f.callId, .decline, .vide⟩)
      else Async.exec (.sonner conv f data)
  | .answer =>
      if s.appel.callId = some f.callId ∧ s.appel.callEtat = .sortant then
        Async.exec (.decrocher f)
        conclure f data
  | .ice =>
      if s.appel.callId ≠ some f.callId ∨ data.candidate.isNone then pure ()
      else if s.appel.callPairDevice.any (· ≠ f.sender) then pure ()
      else
        Async.exec (.candidat f data)
        if s.appel.callSession.isSome then
          let _ ← (Async.request (Request.ajouterCandidat data) : Task Unit).attempt
  | _ => pure ()

def recevoirSignalAppel (f : Frame) : Task Unit := do
  let s ← Async.get
  if f.kind = .hangup ∨ f.kind = .decline then
    -- Nothing is opened, and nobody asks who hangs up.
    if s.appel.callId = some f.callId then Async.exec (.raccroche f)
  else
    match s.convPourDevice f.sender with
    | none => pure ()
    | some conv =>
        match ← (Async.request (Request.decrypt f) : Task Data).attempt with
        | .error _ => pure ()
        | .ok data => traiter conv f data

/-- The timer of `_armerTimeoutMedia`. -/
def expirer : Task Unit := do
  Async.exec .desarmer
  let s ← Async.get
  if s.appel.callEtat = .aucun ∨ s.appel.callMediaConnecte then pure ()
  else
    match s.appel.callPairDevice, s.appel.callId with
    | some device, some id =>
        if (s.convPourDevice device).isSome then
          Async.exec (.emettre [⟨device, id, .hangup, .vide⟩])
    | _, _ => pure ()
    Async.exec .terminerAppel

/-! ## Runs -/

/-- A call of the service by the interface, the socket, a timer or the media session;
`reinitialiser` is the end of the account's session, `majConversations` whatever the rest
of the service does to the conversations. -/
inductive CallTask where
  | appeler (conv : ConvId) (id : CallId)
  | accepterAppel
  | raccrocher
  | recevoirSignalAppel (f : Frame)
  | expirer
  | mediaConnecte (connecte : Bool)
  | iceLocal (id : CallId) (data : Data)
  | reinitialiser
  | majConversations (conversations : List Conversation)

def CallTask.program : CallTask → Task Unit
  | .appeler conv id => Calls.appeler conv id
  | .accepterAppel => Calls.accepterAppel
  | .raccrocher => Calls.raccrocher
  | .recevoirSignalAppel f => Calls.recevoirSignalAppel f
  | .expirer => Calls.expirer
  | .mediaConnecte connecte => Async.exec (.mediaConnecte connecte)
  | .iceLocal id data => Async.exec (.iceLocal id data)
  | .reinitialiser => Async.exec .terminerAppel
  | .majConversations conversations => Async.exec (.setConversations conversations)

/-- A timer that was cancelled does not go off. -/
def CallTask.allowed : CallTask → Service → Bool
  | .expirer, s => s.appel.timeoutMedia
  | _, _ => true

abbrev CallPool := Pool Service Stmt Request Reply Unit Outside

abbrev CallEvent := Event Stmt Request Outside

abbrev CallChoice := Choice CallTask Outside

/-- The pool a schedule leads to. -/
def callRun (conversations : List Conversation) (activerMediaAppel : Bool)
    (choices : List CallChoice) : Option CallPool :=
  run (Pool.step callSemantics CallTask.program CallTask.allowed) choices
    ⟨.initial conversations activerMediaAppel, [], []⟩

end ZiaCrypte.Calls

import ZiaCrypte.Channels.ChannelKey
import ZiaCrypte.Lib.Async

/-!
# The channels of `chat_service.dart`

Any number of devices that create channels, renew their keys, open links, publish and read,
and the rows of the server. A post is named by its number among the messages that were
encrypted, and a key by its number among those that were created. The names of the channels
and the messages on the screen are left out.
-/
namespace ZiaCrypte.Channels

open ZiaCrypte.Lib ZiaCrypte.Engine ZiaCrypte.Engine.SenderKeys

/-- What a device or the engine calls depend on: the primitives, the ids of the devices,
those the server gives to channels, and the account of each device. -/
structure Contexte (D K B : Type) where
  primitives : ChannelPrimitives K B
  ids : SenderIds D
  canalIds : SenderIds Nat
  compte : D → Nat

/-- `ziacrypte://canal/`, without the name. -/
structure Lien (K : Type) where
  id : Identifier
  secret : K
  deriving DecidableEq

structure Conversation (D K : Type) where
  id : Identifier
  channelAdminDevice : D
  channelIsAdmin : Bool
  channelLinkSecret : Option K

/-- A row of `Channel`, with those of its subscribers. -/
structure Canal (D B : Type) where
  id : Identifier
  adminUserId : Nat
  adminDeviceId : Option D
  sealedKey : Option B
  subscribers : List D

/-- When a post was published: the key of the last link, and the other devices that had opened
this link. -/
structure Publication (D : Type) where
  lien : Option Nat
  lecteurs : List D

/-- The fields from `secrets` on only keep what happened: the secret each key was to be sealed
under, the sealed keys the server took, the links that were returned, the links each device
began to open, the distributions it processed, the links it opened, and the messages that came
to it, by their key and their index. -/
structure Monde (D K B : Type) where
  moteurs : Members D K
  canaux : List (Canal D B)
  convs : D → List (Conversation D K)
  saved : D → List (Conversation D K)
  rows : List (D × Nat)
  nextTicket : Nat
  secrets : List K
  deposes : List (Identifier × B)
  liens : List (Lien K)
  tenus : List (D × Lien K)
  traites : List (D × Distribution K)
  ouverts : List (D × Lien K)
  publications : List (Publication D)
  lus : List (D × Nat × Nat)

variable {D K B : Type} [DecidableEq D] [DecidableEq K]

namespace Monde

def initial : Monde D K B where
  moteurs := .start
  canaux := []
  convs _ := []
  saved _ := []
  rows := []
  nextTicket := 0
  secrets := []
  deposes := []
  liens := []
  tenus := []
  traites := []
  ouverts := []
  publications := []
  lus := []

variable (s : Monde D K B)

def conv? (d : D) (id : Identifier) : Option (Conversation D K) :=
  (s.convs d).find? (·.id == id)

def canal? (id : Identifier) : Option (Canal D B) := s.canaux.find? (·.id == id)

def setConvs (d : D) (convs : List (Conversation D K)) : Monde D K B :=
  { s with convs := Function.update s.convs d convs }

/-- `_conversations[id] = conv` -/
def putConv (d : D) (c : Conversation D K) : Monde D K B :=
  s.setConvs d ((s.convs d).filter (·.id ≠ c.id) ++ [c])

def mapCanal (id : Identifier) (f : Canal D B → Canal D B) : Monde D K B :=
  { s with canaux := s.canaux.map fun c => if c.id = id then f c else c }

/-- The key a secret was to seal. -/
def generation (secret : K) : Option Nat := s.secrets.idxOf? secret

/-- The latest key of a channel whose link was returned. -/
def derniere (id : Identifier) : Option Nat :=
  ((s.liens.filter (·.id = id)).filterMap fun l => s.generation l.secret).max?

/-- The devices that have opened the last link of a channel. -/
def lecteurs (id : Identifier) : List D :=
  (s.ouverts.filter fun o =>
    o.2 ∈ s.liens ∧ o.2.id = id ∧ s.generation o.2.secret = s.derniere id).map (·.1)

/-- The key that the owner of a channel encrypts with. -/
def courante (id : Identifier) : Option Nat :=
  ((s.canal? id).bind (·.adminDeviceId)).bind fun m => s.moteurs.current (m, id)

/-- The key of the owner of a channel that a device has processed. -/
def detenue (d : D) (id : Identifier) : Option Nat :=
  ((s.canal? id).bind (·.adminDeviceId)).bind fun m => s.moteurs.processed (d, id, m)

/-- The key that a distribution hands out. -/
def rotationDe (d : Distribution K) : Option Nat :=
  s.moteurs.rotations.findIdx? (·.distribution = some d)

end Monde

/-! ## Statements and requests -/

inductive Stmt (D K : Type) where
  /-- A device begins to open a link. -/
  | tenir (d : D) (lien : Lien K)
  /-- The conversation of a channel that was created. -/
  | creer (d : D) (id : Identifier) (secret : K)
  /-- `conv.channelLinkSecret = secret` -/
  | lier (d : D) (id : Identifier) (secret : K)
  /-- The link is returned. -/
  | emettre (id : Identifier) (secret : K)
  /-- « Déjà abonné : on ouvre simplement le canal. » -/
  | ouvrir (d : D) (lien : Lien K)
  | rejoindre (d : D) (lien : Lien K) (adminDevice : D)
  | oublier (d : D) (id : Identifier)

def Stmt.apply : Stmt D K → Monde D K B → Monde D K B
  | .tenir d lien, s => { s with tenus := (d, lien) :: s.tenus }
  | .creer d id secret, s => s.putConv d ⟨id, d, true, some secret⟩
  | .lier d id secret, s => s.setConvs d ((s.convs d).map fun c =>
      if c.id = id then { c with channelLinkSecret := some secret } else c)
  | .emettre id secret, s => { s with liens := ⟨id, secret⟩ :: s.liens }
  | .ouvrir d lien, s => { s with ouverts := (d, lien) :: s.ouverts }
  | .rejoindre d lien adminDevice, s =>
      { s.putConv d ⟨lien.id, adminDevice, false, none⟩ with ouverts := (d, lien) :: s.ouverts }
  | .oublier d id, s => s.setConvs d ((s.convs d).filter (·.id ≠ id))

/-- What an await waits for: the engine of a device, the server, or the vault. The secret
of `senderKeyCreate` is the one that was drawn for its key. -/
inductive Request (D K B : Type) where
  | createChannel (d : D)
  | senderKeyCreate (d : D) (id : Identifier) (secret : K)
  | channelSealKey (secret : K) (distribution : Distribution K)
  | putChannelKey (d : D) (id : Identifier) (scelle : B)
  | saveConversations (d : D) (convs : List (Conversation D K))
  | channelKey (id : Identifier)
  | channelOpenKey (secret : K) (scelle : B)
  | channelInfo (id : Identifier)
  | senderKeyProcess (d : D) (id : Identifier) (adminDevice : D) (distribution : Distribution K)
  | subscribeChannel (d : D) (id : Identifier)
  | unsubscribeChannel (d : D) (id : Identifier)
  | senderKeyEncrypt (d : D) (id : Identifier) (clair : Bytes)
  | postChannel (d : D) (id : Identifier) (message : Nat)
  | senderKeyDecrypt (d : D) (message : Nat)

abbrev Reply : Request D K B → Type
  | .createChannel _ => Identifier
  | .senderKeyCreate _ _ _ => Distribution K
  | .channelSealKey _ _ => B
  | .channelKey _ => B
  | .channelOpenKey _ _ => Distribution K
  | .channelInfo _ => Option D
  | .senderKeyEncrypt _ _ _ => Nat
  | .senderKeyDecrypt _ _ => Bytes
  | _ => Unit

/-- What the outside decides about a request. The server handles it, and the answer may be
lost; a call of the engine is made with the bytes it draws. -/
inductive Outside (K : Type) where
  | failed
  | done
  | cree (env : SenderKeyEnv K)
  | scelle (alloc : Bool) (nonce : Bytes)
  | handled (received : Bool)

variable (C : Contexte D K B)

namespace Monde

def createChannel (d : D) (s : Monde D K B) : Monde D K B :=
  { s with canaux := s.canaux ++
      [⟨C.canalIds.id s.canaux.length, C.compte d, some d, none, []⟩] }

def senderKeyCreate (d : D) (id : Identifier) (secret : K) (env : SenderKeyEnv K)
    (s : Monde D K B) : Monde D K B :=
  { s with
    moteurs := Members.step C.primitives.toSenderKeyPrimitives C.ids (.create d id env) s.moteurs
    secrets := if id = [] then s.secrets else s.secrets ++ [secret] }

/-- `PUT /channels/:id/key` is kept to the account of the admin. -/
def administre (d : D) (id : Identifier) (s : Monde D K B) : Bool :=
  (s.canal? id).any fun c => decide (c.adminUserId = C.compte d)

def putChannelKey (d : D) (id : Identifier) (scelle : B) (s : Monde D K B) : Monde D K B :=
  if s.administre C d id then
    { s.mapCanal id fun c => { c with sealedKey := some scelle } with
      deposes := (id, scelle) :: s.deposes }
  else s

def senderKeyProcess (d : D) (id : Identifier) (adminDevice : D) (distribution : Distribution K)
    (s : Monde D K B) : Monde D K B :=
  let keys := (ziaSenderKeyProcess (s.moteurs.engine d) id (C.ids.id adminDevice)
    (some distribution)).2
  { s with
    moteurs := { s.moteurs.setEngine d keys with
      processed := Function.update s.moteurs.processed (d, id, adminDevice)
        (s.rotationDe distribution)
      taken := Function.update s.moteurs.taken (d, id, adminDevice) [] }
    traites := (d, distribution) :: s.traites }

def subscribeChannel (d : D) (id : Identifier) (s : Monde D K B) : Monde D K B :=
  s.mapCanal id fun c => { c with
    subscribers := if d ∈ c.subscribers then c.subscribers else c.subscribers ++ [d] }

def unsubscribeChannel (d : D) (id : Identifier) (s : Monde D K B) : Monde D K B :=
  s.mapCanal id fun c => { c with subscribers := c.subscribers.filter (· ≠ d) }

def senderKeyEncrypt (d : D) (id : Identifier) (clair : Bytes) (s : Monde D K B) :
    Monde D K B :=
  { s with
    moteurs := Members.step C.primitives.toSenderKeyPrimitives C.ids (.encrypt d id true clair)
      s.moteurs
    publications :=
      match (ziaSenderKeyEncrypt C.primitives.toSenderKeyPrimitives true (s.moteurs.engine d) id
        clair).1 with
      | .ok _ => s.publications ++ [⟨s.derniere id, (s.lecteurs id).filter (· ≠ d)⟩]
      | .error _ => s.publications }

/-- `POST /channels/:id/messages`: a row for each subscriber but the device that publishes. -/
def postChannel (d : D) (id : Identifier) (message : Nat) (s : Monde D K B) : Monde D K B :=
  if s.administre C d id then
    { s with rows := s.rows ++
        ((((s.canal? id).map (·.subscribers)).getD []).filter (· ≠ d)).map fun r => (r, message) }
  else s

def senderKeyDecrypt (d : D) (message : Nat) (s : Monde D K B) : Monde D K B :=
  { s with
    moteurs := Members.step C.primitives.toSenderKeyPrimitives C.ids (.deliver d message true)
      s.moteurs
    lus :=
      match s.moteurs.messages[message]? with
      | some p => (d, p.rotation, p.index) :: s.lus
      | none => s.lus }

/-- A device restarts: the sender keys are in the memory of its engine only. -/
def redemarrer (victime : D) (s : Monde D K B) : Monde D K B :=
  { s with
    moteurs := { s.moteurs.setEngine victime [] with
      current := fun (m, g) => if m = victime then none else s.moteurs.current (m, g)
      processed := fun (r, g, m) => if r = victime then none else s.moteurs.processed (r, g, m) }
    convs := Function.update s.convs victime (s.saved victime) }

end Monde

def Request.settle (q : Request D K B) (x : Outside K) (s : Monde D K B) : Monde D K B :=
  match q, x with
  | .createChannel d, .handled _ => s.createChannel C d
  | .senderKeyCreate d id secret, .cree env => s.senderKeyCreate C d id secret env
  | .putChannelKey d id scelle, .handled _ => s.putChannelKey C d id scelle
  | .saveConversations d convs, .done => { s with saved := Function.update s.saved d convs }
  | .senderKeyProcess d id adminDevice distribution, .done =>
      s.senderKeyProcess C d id adminDevice distribution
  | .subscribeChannel d id, .handled _ => s.subscribeChannel d id
  | .unsubscribeChannel d id, .handled _ => s.unsubscribeChannel d id
  | .senderKeyEncrypt d id clair, .done => s.senderKeyEncrypt C d id clair
  | .postChannel d id message, .handled _ => s.postChannel C d id message
  | .senderKeyDecrypt d message, .done => s.senderKeyDecrypt C d message
  | _, _ => s

/-- A status of the engine as the exception of the bridge. -/
def verifier {α : Type} : Except ZiaError α → Except Unit α
  | .ok a => .ok a
  | .error _ => .error ()

/-- An answer of the server that arrives. -/
def recue {α : Type} (received : Bool) (answer : Option α) : Except Unit α :=
  match received, answer with
  | true, some a => .ok a
  | _, _ => .error ()

def Request.answer (q : Request D K B) (x : Outside K) (s : Monde D K B) :
    Except Unit (Reply q) :=
  match q, x with
  | .createChannel _, .handled received => recue received (some (C.canalIds.id s.canaux.length))
  | .senderKeyCreate d id _, .cree env =>
      verifier (ziaSenderKeyCreate C.primitives.toSenderKeyPrimitives env (s.moteurs.engine d)
        id).1
  | .channelSealKey secret distribution, .scelle alloc nonce =>
      verifier (ziaChannelSealKey C.primitives alloc nonce secret distribution)
  | .putChannelKey d id _, .handled received =>
      recue received (if s.administre C d id then some () else none)
  | .saveConversations _ _, .done => .ok ()
  | .channelKey id, .handled received => recue received ((s.canal? id).bind (·.sealedKey))
  | .channelOpenKey secret scelle, .done =>
      verifier (ziaChannelOpenKey C.primitives true secret scelle)
  | .channelInfo id, .handled received => recue received ((s.canal? id).map (·.adminDeviceId))
  | .senderKeyProcess d id adminDevice distribution, .done =>
      verifier (ziaSenderKeyProcess (s.moteurs.engine d) id (C.ids.id adminDevice)
        (some distribution)).1
  | .subscribeChannel _ id, .handled received => recue received ((s.canal? id).map fun _ => ())
  | .unsubscribeChannel _ _, .handled received => recue received (some ())
  | .senderKeyEncrypt d id clair, .done =>
      (verifier (ziaSenderKeyEncrypt C.primitives.toSenderKeyPrimitives true (s.moteurs.engine d)
        id clair).1).map fun _ => s.moteurs.messages.length
  | .postChannel d id _, .handled received =>
      recue received (if s.administre C d id then some () else none)
  | .senderKeyDecrypt d message, .done =>
      match s.moteurs.messages[message]? with
      | none => .error ()
      | some p => verifier (ziaSenderKeyDecrypt C.primitives.toSenderKeyPrimitives true
          (s.moteurs.engine d) p.group (C.ids.id p.sender) p.bytes).1
  | _, _ => .error ()

/-- The device `victime` is the one that a crash stops. -/
def canalSemantics (victime : D) :
    Semantics (Monde D K B) (Stmt D K) (Request D K B) Reply Unit (Outside K) where
  act := Stmt.apply
  issue _ s := { s with nextTicket := s.nextTicket + 1 }
  ticket := Monde.nextTicket
  ready _ _ _ _ := true
  settle _ := Request.settle C
  answer := Request.answer C
  crash := Monde.redemarrer victime

abbrev Task (D K B : Type) (α : Type) :=
  Async (Monde D K B) (Stmt D K) (Request D K B) Reply Unit α

/-! ## The bodies -/

/-- `_saveConversations` -/
def saveConversations (d : D) : Task D K B Unit := do
  let s ← Async.get
  Async.request (Request.saveConversations d (s.convs d))

/-- `creerCanal`; `secret` is what `_octetsAleatoires(32)` draws. -/
def creerCanal (d : D) (secret : K) : Task D K B (Option (Lien K)) :=
  Async.orElse
    (do
      let id ← Async.request (Request.createChannel d)
      let distribution ← Async.request (Request.senderKeyCreate d id secret)
      let scelle ← Async.request (Request.channelSealKey secret distribution)
      Async.request (Request.putChannelKey d id scelle)
      Async.exec (.creer d id secret)
      saveConversations d
      Async.exec (.emettre id secret)
      pure (some ⟨id, secret⟩))
    fun _ => pure none

/-- `renouvelerCleCanal` -/
def renouvelerCleCanal (d : D) (id : Identifier) (secret : K) :
    Task D K B (Option (Lien K)) := do
  if ((← Async.get).conv? d id).any (·.channelIsAdmin) then
    Async.orElse
      (do
        let distribution ← Async.request (Request.senderKeyCreate d id secret)
        let scelle ← Async.request (Request.channelSealKey secret distribution)
        Async.request (Request.putChannelKey d id scelle)
        Async.exec (.lier d id secret)
        saveConversations d
        Async.exec (.emettre id secret)
        pure (some ⟨id, secret⟩))
      fun _ => pure none
  else pure none

/-- `rejoindreCanalParLien` -/
def rejoindreCanalParLien (d : D) (lien : Lien K) : Task D K B Bool := do
  Async.exec (.tenir d lien)
  if ((← Async.get).conv? d lien.id).isSome then
    Async.exec (.ouvrir d lien)
    pure true
  else
    Async.orElse
      (do
        let scelle ← Async.request (Request.channelKey lien.id)
        let distribution ← Async.request (Request.channelOpenKey lien.secret scelle)
        match ← Async.request (Request.channelInfo lien.id) with
        | none => pure false
        | some adminDevice =>
            Async.request (Request.senderKeyProcess d lien.id adminDevice distribution)
            Async.request (Request.subscribeChannel d lien.id)
            Async.exec (.rejoindre d lien adminDevice)
            saveConversations d
            pure true)
      fun _ => pure false

/-- `publierDansCanal`; `clair` is what is encrypted. -/
def publierDansCanal (d : D) (id : Identifier) (clair : Bytes) : Task D K B Unit := do
  if ((← Async.get).conv? d id).any (·.channelIsAdmin) then
    Async.orElse
      (do
        let message ← Async.request (Request.senderKeyEncrypt d id clair)
        Async.request (Request.postChannel d id message))
      fun _ => pure ()
  else pure ()

/-- `_recevoirCanal` -/
def recevoirCanal (d : D) (message : Nat) : Task D K B Unit := do
  match (← Async.get).moteurs.messages[message]? with
  | none => pure ()
  | some p =>
      if ((← Async.get).conv? d p.group).isSome then
        let _ ← (Async.request (Request.senderKeyDecrypt d message) : Task D K B Bytes).attempt
        pure ()
      else pure ()

/-- `quitterCanal` -/
def quitterCanal (d : D) (id : Identifier) : Task D K B Unit := do
  let _ ← (Async.request (Request.unsubscribeChannel d id) : Task D K B Unit).attempt
  Async.exec (.oublier d id)
  saveConversations d

/-! ## Runs -/

inductive CanalTask (D K : Type) where
  | creerCanal (d : D) (secret : K)
  | renouvelerCleCanal (d : D) (id : Identifier) (secret : K)
  | rejoindreCanalParLien (d : D) (lien : Lien K)
  | publierDansCanal (d : D) (id : Identifier) (clair : Bytes)
  | recevoirCanal (d : D) (message : Nat)
  | quitterCanal (d : D) (id : Identifier)

def CanalTask.program : CanalTask D K → Task D K B Unit
  | .creerCanal d secret => Channels.creerCanal d secret >>= fun _ => pure ()
  | .renouvelerCleCanal d id secret =>
      Channels.renouvelerCleCanal d id secret >>= fun _ => pure ()
  | .rejoindreCanalParLien d lien => Channels.rejoindreCanalParLien d lien >>= fun _ => pure ()
  | .publierDansCanal d id clair => Channels.publierDansCanal d id clair
  | .recevoirCanal d message => Channels.recevoirCanal d message
  | .quitterCanal d id => Channels.quitterCanal d id

/-- A link is opened by someone who was given it, and a post is read from a row. -/
def CanalTask.allowed : CanalTask D K → Monde D K B → Bool
  | .rejoindreCanalParLien _ lien, s => decide (lien ∈ s.liens)
  | .recevoirCanal d message, s => decide ((d, message) ∈ s.rows)
  | _, _ => true

abbrev CanalPool (D K B : Type) :=
  Pool (Monde D K B) (Stmt D K) (Request D K B) Reply Unit (Outside K)

abbrev CanalEvent (D K B : Type) := Event (Stmt D K) (Request D K B) (Outside K)

/-- The pool a schedule leads to. -/
def canalRun (victime : D) (choices : List (Choice (CanalTask D K) (Outside K))) :
    Option (CanalPool D K B) :=
  run (Pool.step (canalSemantics C victime) CanalTask.program CanalTask.allowed) choices
    ⟨.initial, [], []⟩

end ZiaCrypte.Channels

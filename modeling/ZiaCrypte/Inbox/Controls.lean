import ZiaCrypte.Inbox.History
import Mathlib.Data.List.Sort

/-!
# `_appliquerControle` and `_applySyncPayload`

One function for each kind of control message; `none` where it throws, which
`_appliquerControle` catches before anything was changed.
-/
namespace ZiaCrypte.Inbox

open ZiaCrypte.Lib ZiaCrypte.Engine

def prefixeAnnonce : Text := text "__zia_groupe__:"
def prefixeSync : Text := text "__zia_sync__:"
def prefixeEdit : Text := text "__zia_edit__:"
def prefixeSuppr : Text := text "__zia_del__:"
def prefixeReaction : Text := text "__zia_react__:"
def prefixeLu : Text := text "__zia_read__:"
def prefixeAvatar : Text := text "__zia_avatar__:"
def prefixeTtl : Text := text "__zia_ttl__:"
def prefixeJeton : Text := text "__zia_dtok__:"
def prefixeCleGroupe : Text := text "__zia_skey__:"
def prefixeStatut : Text := text "__zia_status__:"

def estAnnonceInterne (t : Text) : Bool := startsWith t prefixeAnnonce

def estSync (t : Text) : Bool := startsWith t prefixeSync

def prefixesControle : List Text :=
  [prefixeEdit, prefixeSuppr, prefixeLu, prefixeAvatar, prefixeTtl, prefixeJeton,
    prefixeCleGroupe, prefixeStatut, prefixeReaction]

def estControle (t : Text) : Bool := prefixesControle.any (startsWith t)

def statutMax : Nat := 80

variable {E : Type} (P : Platform E)

/-- `jsonDecode(texte.substring(prefixe.length)) as Map` -/
def decodeCharge (texte prefixe : Text) : Option (List (Text × Json)) :=
  (P.jsonDecode (texte.drop prefixe.length)).bind Json.asMap

/-- The loop over `conv.messages` that changes the first one with an id and returns;
`none` where it changes none. -/
def modifierPremier (cible : Text) (f : ChatMessage → Option ChatMessage) :
    List ChatMessage → Option (List ChatMessage)
  | [] => none
  | m :: ms =>
      if m.id = some cible then (f m).map (· :: ms)
      else (modifierPremier cible f ms).map (m :: ·)

/-- The thread after a change of one message, saved. -/
def State.modifier (s : State E) (conv cible : Text) (f : ChatMessage → Option ChatMessage) :
    State E :=
  match s.conv? conv with
  | none => s
  | some c =>
      match modifierPremier cible f c.messages with
      | none => s
      | some messages => (s.putConv conv { c with messages := messages }).saveHistory conv

/-! ## The controls -/

/-- A reaction is put or taken back. -/
def reagir (emoji qui : Text) (pose : Bool) (m : ChatMessage) : ChatMessage :=
  let set := (m.reactions.get? emoji).getD []
  if pose then { m with reactions := m.reactions.insert emoji (addToSet set qui) }
  else
    let reste := set.filter (· ≠ qui)
    { m with reactions :=
        if reste = [] then m.reactions.erase emoji else m.reactions.insert emoji reste }

def reaction (conv texte : Text) (deMoi : Bool) (reacteurUserId : Option Text) (s : State E) :
    Option (State E) := do
  let json ← decodeCharge P texte prefixeReaction
  let cible ← (field json "id").asString?
  let emoji ← (field json "e").asString?
  let pose ← (field json "on").asBool?
  let qui := if deMoi then s.userId else reacteurUserId
  match cible, emoji, qui with
  | some cible, some emoji, some qui =>
      some (s.modifier conv cible fun m => some (reagir emoji qui (pose.getD true) m))
  | _, _, _ => some s

def cleGroupe (conv texte : Text) (expediteurDevice : Text) (s : State E) : Option (State E) := do
  let json ← decodeCharge P texte prefixeCleGroupe
  let k ← (field json "k").asString?
  match k.bind P.base64Decode with
  | some distribution =>
      some { s with outside := P.senderKeyProcess conv expediteurDevice distribution s.outside }
  | none => some s

def jeton (texte : Text) (s : State E) : Option (State E) := do
  let json ← decodeCharge P texte prefixeJeton
  let appareil ← (field json "d").asString?
  let jeton ← (field json "t").asString?
  match appareil, jeton with
  | some appareil, some jeton =>
      some { s with jetonsRemise := s.jetonsRemise.insert appareil jeton }.saveJetons
  | _, _ => some s

/-- `dureesEphemeres` -/
def dureeEphemere (secondes : Int) : Text :=
  if secondes = 3600 then text "1 heure"
  else if secondes = 86400 then text "1 jour"
  else if secondes = 604800 then text "1 semaine"
  else if secondes = 2592000 then text "4 semaines"
  else text (toString secondes) ++ text " s"

/-- `_annoncerTtl` -/
def annonceTtl (peerUsername : Text) (secondes : Int) (parMoi : Bool) (now : Int) : ChatMessage :=
  let qui := if parMoi then text "Tu as" else peerUsername ++ text " a"
  let avis := if secondes = 0 then qui ++ text " désactivé les messages éphémères."
    else qui ++ text " réglé les messages éphémères sur " ++ dureeEphemere secondes ++
      text ". Le compte démarre à l’envoi."
  { ChatMessage.new avis false now with systeme := true }

def ttl (now : Int) (conv texte : Text) (deMoi : Bool) (s : State E) : Option (State E) := do
  let json ← decodeCharge P texte prefixeTtl
  let secondes := ((← (field json "s").asInt?)).getD 0
  match s.conv? conv with
  | none => some s
  | some c =>
      if secondes = c.ttlSecondes then some s
      else some ((s.putConv conv { c with
        ttlSecondes := secondes
        messages := c.messages ++ [annonceTtl c.peerUsername secondes deMoi now] }).saveHistory
          conv)

/-- Whose status or avatar a control is taken to announce. -/
def proprietaire (conv : Text) (deMoi : Bool) (s : State E) : Option Text :=
  if deMoi then s.userId else (s.conv? conv).bind (·.peerUserId)

def statut (conv texte : Text) (deMoi : Bool) (s : State E) : Option (State E) := do
  let json ← decodeCharge P texte prefixeStatut
  let valeur := trim (((← (field json "t").asString?)).getD [])
  match proprietaire conv deMoi s with
  | none => some s
  | some proprietaire =>
      let borne := valeur.take statutMax
      some { s with statuts :=
        if borne = [] then s.statuts.erase proprietaire
        else s.statuts.insert proprietaire borne }.saveStatuts

def avatar (conv texte : Text) (deMoi : Bool) (s : State E) : Option (State E) := do
  let json ← decodeCharge P texte prefixeAvatar
  let ref ← AttachmentRef.fromJson json
  match proprietaire conv deMoi s with
  | none => some s
  | some proprietaire =>
      some { s with avatars := s.avatars.insert proprietaire ref }.saveAvatars

/-- My messages of these ids are read. -/
def marquerLus (ids : List Text) (messages : List ChatMessage) : List ChatMessage :=
  messages.map fun m =>
    if m.mine && m.id.any ids.contains && !m.readByPeer then { m with readByPeer := true } else m

def lu (conv texte : Text) (deMoi : Bool) (s : State E) : Option (State E) :=
  if deMoi then some s
  else do
    let json ← decodeCharge P texte prefixeLu
    let ids ← ((← (field json "ids").asList?).getD []).mapM Json.asString
    match s.conv? conv with
    | none => some s
    | some c =>
        let messages := marquerLus ids c.messages
        if messages = c.messages then some s
        else some ((s.putConv conv { c with messages := messages }).saveHistory conv)

/-- The new text of an edit, or the mark of a deletion. -/
def editer (now : Int) (estEdit : Bool) (t : Option (Option Text)) (m : ChatMessage) :
    Option ChatMessage :=
  if estEdit then t.map fun t => { m with text := t.getD m.text, editedAt := some now }
  else some { m with deletedForEveryone := true, text := [] }

def editerOuSupprimer (now : Int) (conv texte : Text) (deMoi : Bool) (s : State E) :
    Option (State E) := do
  let estEdit := startsWith texte prefixeEdit
  let json ← decodeCharge P texte (if estEdit then prefixeEdit else prefixeSuppr)
  let cible ← (field json "id").asString?
  match cible with
  | none => some s
  | some cible =>
      some (s.modifier conv cible fun m =>
        if m.mine ≠ deMoi then none else editer now estEdit (field json "t").asString? m)

def appliquerControle (now : Int) (conv texte : Text) (deMoi : Bool) (expediteurDevice : Text)
    (reacteurUserId : Option Text) (s : State E) : State E :=
  let done := if startsWith texte prefixeReaction then reaction P conv texte deMoi reacteurUserId s
    else if startsWith texte prefixeCleGroupe then cleGroupe P conv texte expediteurDevice s
    else if startsWith texte prefixeJeton then jeton P texte s
    else if startsWith texte prefixeTtl then ttl P now conv texte deMoi s
    else if startsWith texte prefixeStatut then statut P conv texte deMoi s
    else if startsWith texte prefixeAvatar then avatar P conv texte deMoi s
    else if startsWith texte prefixeLu then lu P conv texte deMoi s
    else editerOuSupprimer P now conv texte deMoi s
  done.getD s

/-! ## A batch of history -/

/-- `memberUserIds.addAll`, which stops at the first element that is no string. -/
def addMembers (members : List Text) : List Json → List Text × Bool
  | [] => (members, true)
  | j :: js =>
      match j.asString with
      | some t => addMembers (addToSet members t) js
      | none => (members, false)

/-- One message of a batch; `some none` where its time is there already. -/
def syncMessage (presents : List Int) (j : Json) : Option (Option ChatMessage) := do
  let e ← j.asMap
  let ms ← (field e "a").asInt
  if ms ∈ presents then pure none
  else
    let t ← (field e "t").asString
    let mine ← (field e "m").asBool
    let at' ← fromMilliseconds ms
    let attachment ←
      if (field e "f").isNull then pure none
      else do pure (some (← AttachmentRef.fromJson (← (field e "f").asMap)))
    pure (some { ChatMessage.new t mine at' with attachment := attachment })

/-- The messages of a batch that are new to a thread. -/
def syncEntrants (data : List (Text × Json)) (messages : List ChatMessage) :
    Option (List ChatMessage) := do
  let msgs ← (field data "msgs").asList
  let entrants ← msgs.mapM (syncMessage (messages.map fun m => millisecondsSinceEpoch m.sentAt))
  pure entrants.reduceOption

/-- `messages.sort` by time. -/
def trier (messages : List ChatMessage) : List ChatMessage :=
  messages.insertionSort fun a b => a.sentAt ≤ b.sentAt

/-- What is done before the messages are read stays when the rest throws. -/
def applySyncPayload (now : Int) (json : Text) (s : State E) : State E :=
  match (P.jsonDecode json).bind Json.asMap with
  | none => s
  | some data =>
      match (field data "conv").asString with
      | none => s
      | some convId =>
          match (field data "peer").asString? with
          | none => s
          | some peer =>
              let c := (s.conv? convId).getD (.new convId (peer.getD (text "inconnu")) now)
              let c := { c with peerUsername := peer.getD c.peerUsername }
              let s := s.putConv convId c
              match (if c.peerUserId.isSome then some c.peerUserId
                else (field data "peerId").asString?) with
              | none => s
              | some peerUserId =>
                  let c := { c with
                    peerUserId := peerUserId
                    isGroup := c.isGroup || (field data "group").isTrue }
                  let s := s.putConv convId c
                  match (field data "members").asList? with
                  | none => s
                  | some members =>
                      let (memberUserIds, all) := addMembers c.memberUserIds (members.getD [])
                      let c := { c with memberUserIds := memberUserIds }
                      let s := s.putConv convId c
                      if !all then s
                      else
                        match syncEntrants data c.messages with
                        | none => s
                        | some [] => s
                        | some entrants =>
                            ((s.putConv convId { c with
                              messages := trier (c.messages ++ entrants) }).saveHistory
                                convId).saveConversations

end ZiaCrypte.Inbox

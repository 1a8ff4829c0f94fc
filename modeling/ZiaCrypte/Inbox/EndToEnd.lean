import ZiaCrypte.Engine.Delivery
import ZiaCrypte.Engine.Instances
import ZiaCrypte.Inbox.Convergence
import ZiaCrypte.Inbox.Readings
import Mathlib.Data.List.InsertIdx

/-!
# A conversation from end to end

The two devices of a conversation, each with the thread of its client and the session of its
engine, and the messages on their way. What a user does is sealed for the other device, and
the network delivers each message at most once, in any order, or loses it: what is delivered
decrypts, is read as what was done, and is shown.
-/
namespace ZiaCrypte.Inbox

open ZiaCrypte.Lib ZiaCrypte.Engine ZiaCrypte.Chat

variable {K : Type}

/-! ## The engine of a device -/

/-- The session with the other device, under its number, and what the next call takes from
outside. -/
structure Cliquet (K : Type) where
  numero : Nat
  session : ZiaSession K
  env : CallEnv K

/-- `zia_session_decrypt`, for the number of a session. -/
def Cliquet.decrypt (p : Primitives K) (numero : Nat) (header ciphertext : Bytes) (e : Cliquet K) :
    Option Bytes × Cliquet K :=
  if numero = e.numero then
    match ziaSessionDecrypt p e.env e.session header ciphertext with
    | .ok clair t => (some clair, { e with session := t })
    | .error _ t => (none, { e with session := t })
    | .fault => (none, e)
  else (none, e)

/-- The codecs of a device, and its engine. -/
structure CliquetReel (p : Primitives K) (double : Text → Option Int) (Q : Platform (Cliquet K)) :
    Prop where
  decodeurs : DecodeursDart double Q
  base64Decode : ∀ b, Q.base64Decode (Base64.encode false b) = some b
  decrypt : Q.decrypt = Cliquet.decrypt p
  exportSession : ∀ numero e, (Q.exportSession numero e).2 = e

/-! ## The conversation and its session -/

variable {conv : Text}

/-- The conversation has the session of the engine with the other device, and one with every
device it knows of. -/
def Relie (conv pair : Text) (s : State (Cliquet K)) : Prop :=
  ∃ c, s.conv? conv = some c ∧ c.sessions.get? pair = some s.outside.numero ∧
    ∀ device ∈ c.targetDeviceIds, c.sessions.containsKey device = true

/-- The conversation keeps its sessions, and the engine its own. -/
structure Fidele (conv : Text) (s s' : State (Cliquet K)) : Prop where
  conv : ∀ c, s.conv? conv = some c → ∃ c', s'.conv? conv = some c' ∧
    c'.sessions = c.sessions ∧ c'.targetDeviceIds = c.targetDeviceIds
  outside : s'.outside = s.outside

namespace Fidele

variable {s s' s'' : State (Cliquet K)}

theorem of_untouched (h : Untouched s s') : Fidele conv s s' := ⟨h.keeps.conv conv, h.outside⟩

theorem trans (h : Fidele conv s s') (h' : Fidele conv s' s'') : Fidele conv s s'' := by
  refine ⟨fun c hc => ?_, h'.outside.trans h.outside⟩
  obtain ⟨c', hc', hsessions, htargets⟩ := h.conv c hc
  obtain ⟨c'', hc'', hsessions', htargets'⟩ := h'.conv c' hc'
  exact ⟨c'', hc'', hsessions'.trans hsessions, htargets'.trans htargets⟩

theorem relie (h : Fidele conv s s') {pair : Text} (hs : Relie conv pair s) :
    Relie conv pair s' := by
  obtain ⟨c, hc, hsession, htargets⟩ := hs
  obtain ⟨c', hc', hsessions, hdevices⟩ := h.conv c hc
  refine ⟨c', hc', ?_, ?_⟩
  · rw [hsessions, h.outside, hsession]
  · rw [hsessions, hdevices]
    exact htargets

theorem refl (s : State (Cliquet K)) : Fidele conv s s := of_untouched (.refl s)

/-- What is neither a conversation nor of the engine. -/
theorem of_same (hconversations : s'.conversations = s.conversations)
    (houtside : s'.outside = s.outside) : Fidele conv s s' := by
  refine ⟨fun c hc => ⟨c, ?_, rfl, rfl⟩, houtside⟩
  rw [State.conv?, hconversations]
  exact hc

/-- A record is put in the place of one with the same sessions and devices. -/
theorem putConv {id : Text} {c c' : Conversation} (hc : s.conv? id = some c)
    (hsessions : c'.sessions = c.sessions) (htargets : c'.targetDeviceIds = c.targetDeviceIds) :
    Fidele conv s (s.putConv id c') :=
  ⟨(KeepsSessions.putConv hc hsessions htargets).conv conv, rfl⟩

theorem saveHistory (s : State (Cliquet K)) (id : Text) : Fidele conv s (s.saveHistory id) :=
  ⟨(KeepsSessions.saveHistory s id).conv conv, outside_saveHistory s id⟩

end Fidele

/-! ## A message that arrives -/

/-- A message on its way: what it says was done, and what the engine sealed. -/
structure Pli where
  fait : Fait
  handshake : Option ZiaHandshakeMaterial
  paquet : Packet

/-- How the server hands it over. -/
def Pli.entrant (compte : Party → Membre) (appareil : Party → Text) (conv : Text) (pli : Pli) :
    Incoming where
  sealed := .bool false
  channelId := .null
  conversationId := .str conv
  senderDeviceId := .str (appareil pli.paquet.sender)
  senderUsername := .str (compte pli.paquet.sender).username
  senderUserId := .str (compte pli.paquet.sender).userId
  header := .str (Base64.encode false (Envelope.packHeader pli.paquet.header pli.handshake))
  ciphertext := .str (Base64.encode false pli.paquet.ciphertext)
  timestampMs := .null

section Reception

variable {p : Primitives K} {double : Text → Option Int} {Q : Platform (Cliquet K)}
  {compte : Party → Membre} {appareil : Party → Text} {s : State (Cliquet K)} {pair : Text}

/-- There is a session with every device already. -/
theorem restoreEach_relie {c : Conversation} (hc : s.conv? conv = some c) {devices : List Text}
    (h : ∀ device ∈ devices, c.sessions.containsKey device = true) :
    restoreEach Q conv devices s = s := by
  induction devices with
  | nil => rfl
  | cons device devices ih =>
    have hdevice := h device List.mem_cons_self
    simp only [restoreEach, hc, hdevice, if_true]
    exact ih fun d hd => h d (List.mem_cons_of_mem device hd)

/-- The conversation of the message is the one that is in memory. -/
theorem resolveConversation_relie (now : Int) {m : Incoming} {userId : Text} {c : Conversation}
    (hconv : m.conversationId = .str conv) (huser : m.senderUserId = .str userId)
    (hc : s.conv? conv = some c)
    (htargets : ∀ device ∈ c.targetDeviceIds, c.sessions.containsKey device = true) :
    ∃ peer, resolveConversation Q now m s =
      some (conv, s.putConv conv { c with peerUserId := peer }) := by
  have hput : ∀ peer, (s.putConv conv { c with peerUserId := peer }).conv? conv =
      some { c with peerUserId := peer } := fun peer => by rw [conv?_putConv, if_pos rfl]
  have hrestore : ∀ peer, restoreSessions Q conv (s.putConv conv { c with peerUserId := peer }) =
      s.putConv conv { c with peerUserId := peer } := fun peer => by
    rw [restoreSessions, hput]
    exact restoreEach_relie (hput peer) htargets
  have hid : m.conversationId.asString = some conv := by rw [hconv]; rfl
  have huserId : m.senderUserId.asString? = some (some userId) := by rw [huser]; rfl
  simp only [resolveConversation, hid, huserId, hc, hrestore, Option.bind_eq_bind,
    Option.bind_some]
  split
  · exact ⟨_, rfl⟩
  · exact ⟨_, rfl⟩

theorem estGroupe_packHeader (header : Bytes) (handshake : Option ZiaHandshakeMaterial) :
    Envelope.estGroupe (Envelope.packHeader header handshake) = false := by
  cases handshake <;> rfl

theorem unpackHeader_packHeader (header : Bytes) (handshake : Option ZiaHandshakeMaterial) :
    ∃ handshake', Envelope.unpackHeader (Envelope.packHeader header handshake) =
      some ⟨handshake', header⟩ := by
  cases handshake with
  | none => exact ⟨none, Envelope.unpackHeader_packHeader_none header⟩
  | some h => exact ⟨_, Envelope.unpackHeader_packHeader_some header h⟩

/-- With a session for the sender a handshake is not looked at. -/
theorem openPairwise_relie {unpacked : Envelope.Unpacked} {m : Incoming} {c : Conversation}
    {numero : Nat} (hc : s.conv? conv = some c) (hsession : c.sessions.get? pair = some numero) :
    openPairwise Q conv pair unpacked m s =
      openWithSession Q conv pair unpacked.ratchetHeader m s := by
  have hcontains : c.sessions.containsKey pair = true := by
    rw [LinkedMap.containsKey, hsession]
    rfl
  cases hh : unpacked.handshake with
  | none => simp only [openPairwise, hh]
  | some handshake => simp only [openPairwise, hh, hc, hcontains, if_true]

/-- The next call of the engine takes this from outside. -/
def State.pour (s : State (Cliquet K)) (env : CallEnv K) : State (Cliquet K) :=
  { s with outside := { s.outside with env := env } }

/-- The conversation once a message of it was opened. -/
def State.ouvert (s : State (Cliquet K)) (conv : Text) (c : Conversation) (peer : Option Text)
    (t : ZiaSession K) : State (Cliquet K) :=
  { s.putConv conv { c with peerUserId := peer } with
    outside := { s.outside with session := t } }

/-- What decrypts is read. -/
theorem receive_pli (hQ : CliquetReel p double Q) (compte : Party → Membre) (now : Int)
    {pli : Pli} {plain : Bytes} {t : ZiaSession K} {c : Conversation}
    (hc : s.conv? conv = some c)
    (hsession : c.sessions.get? (appareil pli.paquet.sender) = some s.outside.numero)
    (htargets : ∀ device ∈ c.targetDeviceIds, c.sessions.containsKey device = true)
    (hdecrypt : ziaSessionDecrypt p s.outside.env s.outside.session pli.paquet.header
      pli.paquet.ciphertext = .ok plain t) :
    ∃ peer, receive Q now (pli.entrant compte appareil conv) s =
      dispatch Q now conv (appareil pli.paquet.sender) plain (pli.entrant compte appareil conv)
        (s.ouvert conv c peer t) := by
  obtain ⟨peer, hresolve⟩ := resolveConversation_relie (Q := Q) now
    (m := pli.entrant compte appareil conv) rfl rfl hc htargets
  obtain ⟨handshake, hunpack⟩ := unpackHeader_packHeader pli.paquet.header pli.handshake
  have hc' : (s.putConv conv { c with peerUserId := peer }).conv? conv =
      some { c with peerUserId := peer } := by rw [conv?_putConv, if_pos rfl]
  have hheader : (pli.entrant compte appareil conv).header.asString.bind Q.base64Decode =
      some (Envelope.packHeader pli.paquet.header pli.handshake) := hQ.base64Decode _
  have hciphertext : (pli.entrant compte appareil conv).ciphertext.asString.bind
      Q.base64Decode = some pli.paquet.ciphertext := hQ.base64Decode _
  have hsender : (pli.entrant compte appareil conv).senderDeviceId.asString =
      some (appareil pli.paquet.sender) := rfl
  have houtside : (s.putConv conv { c with peerUserId := peer }).outside = s.outside := rfl
  have hopen : openMessage Q conv (pli.entrant compte appareil conv)
      (s.putConv conv { c with peerUserId := peer }) =
        .clair (s.ouvert conv c peer t) (appareil pli.paquet.sender) plain := by
    simp only [openMessage, hsender, hheader, estGroupe_packHeader, Bool.false_eq_true, if_false,
      hunpack, openPairwise_relie hc' hsession]
    simp only [openWithSession, hc', Option.bind_some, hsession, hciphertext, hQ.decrypt,
      Cliquet.decrypt, houtside, if_true, hdecrypt]
    rfl
  have hopens : Opens Q now (pli.entrant compte appareil conv) s (pli.entrant compte appareil conv)
      conv (appareil pli.paquet.sender) plain (s.ouvert conv c peer t) :=
    ⟨rfl, s, _, rfl, hresolve, hopen⟩
  exact ⟨peer, hopens.receive_eq⟩

/-- What was done on the one device is taken in on the other. -/
theorem receive_fait (hQ : CliquetReel p double Q) (now : Int) {env : CallEnv K} {pli : Pli}
    {moi : Membre} {t : ZiaSession K} (hs : Relie conv (appareil pli.paquet.sender) s)
    (huserId : s.userId = some moi.userId) (husername : s.username = some moi.username)
    (hauteur : pli.fait.auteur = compte pli.paquet.sender)
    (hnoms : pli.fait.auteur.username = moi.username ↔ pli.fait.auteur.userId = moi.userId)
    (hordinaire : ∀ id texte attachment replyTo,
      pli.fait.acte = .message id texte attachment replyTo → ordinaire texte = true)
    (hdate : ∀ c, s.conv? conv = some c → (echeance now c.ttlSecondes).isSome)
    (hdecrypt : ziaSessionDecrypt p env s.outside.session pli.paquet.header
      pli.paquet.ciphertext = .ok (pli.fait.acte.contenu.encode encodeursDart) t) :
    ∃ s' recu ms, receive Q now (pli.entrant compte appareil conv) (s.pour env) = (s', recu) ∧
      Devient conv s s' ms ∧ Change moi.userId (s.messagesIn conv) pli.fait ms ∧
      Relie conv (appareil pli.paquet.sender) s' ∧ s'.outside.session = t := by
  obtain ⟨c, hc, hsession, htargets⟩ := hs
  obtain ⟨peer, hreceive⟩ := receive_pli (s := s.pour env) hQ compte now hc hsession htargets
    hdecrypt
  have hc' : ((s.pour env).ouvert conv c peer t).conv? conv =
      some { c with peerUserId := peer } :=
    (conv?_putConv (s.pour env) conv conv _).trans (if_pos rfl)
  have hmessages : ((s.pour env).ouvert conv c peer t).messagesIn conv = s.messagesIn conv := by
    rw [messagesIn_of_conv? hc', messagesIn_of_conv? hc]
  have hrelie : Relie conv (appareil pli.paquet.sender) ((s.pour env).ouvert conv c peer t) :=
    ⟨_, hc', hsession, htargets⟩
  have hvient : VientDe (pli.entrant compte appareil conv) pli.fait.auteur moi := by
    rw [hauteur]
    exact ⟨rfl, .inl rfl⟩
  have huserId' : ((s.pour env).ouvert conv c peer t).userId = some moi.userId := huserId
  have husername' : ((s.pour env).ouvert conv c peer t).username = some moi.username := husername
  rw [hreceive]
  cases hmessage : pli.fait.acte.estMessage with
  | false =>
    rw [dispatch_acte hQ.decodeurs hmessage hvient hnoms huserId' husername']
    have hfidele : Fidele conv ((s.pour env).ouvert conv c peer t)
        (((s.pour env).ouvert conv c peer t).modifier conv pli.fait.acte.sujet
          (pli.fait.acte.surMessage now (decide (pli.fait.auteur.userId = moi.userId))
            pli.fait.auteur.userId)) :=
      .of_untouched (modifier_untouched _ _)
    have hdevient := @modifier_devient _ conv ((s.pour env).ouvert conv c peer t)
      pli.fait.acte.sujet (pli.fait.acte.surMessage now
        (decide (pli.fait.auteur.userId = moi.userId)) pli.fait.auteur.userId)
    rw [hmessages] at hdevient
    exact ⟨_, _, _, rfl, ⟨hdevient.userId, hdevient.username, hdevient.messages⟩,
      .modifie hmessage now, hfidele.relie hrelie, congrArg Cliquet.session hfidele.outside⟩
  | true =>
    cases hacte : pli.fait.acte with
    | message id texte attachment replyTo =>
      obtain ⟨senderUsername, hname, hside⟩ := hvient.deMoi hnoms
      rw [dispatch_ordinaire hQ.decodeurs hname hside husername' (hordinaire _ _ _ _ hacte)]
      have hfidele : Fidele conv ((s.pour env).ouvert conv c peer t) (addReceived now conv
          (payloadRecu id texte attachment replyTo) (decide (pli.fait.auteur.userId = moi.userId))
          senderUsername ((s.pour env).ouvert conv c peer t)).1 :=
        .of_untouched (addReceived_untouched now _ _ _)
      obtain ⟨s', message, heq, hid, hmine, hcorps, hdevient⟩ := addReceived_message id texte
        attachment replyTo (decide (pli.fait.auteur.userId = moi.userId)) senderUsername hc'
        (hdate c hc)
      rw [heq] at hfidele ⊢
      rw [hmessages] at hdevient
      exact ⟨s', _, _, rfl, ⟨hdevient.userId, hdevient.username, hdevient.messages⟩,
        .message hacte hid hmine hcorps, hfidele.relie hrelie,
        congrArg Cliquet.session hfidele.outside⟩
    | _ =>
      rw [hacte] at hmessage
      cases hmessage

end Reception

/-! ## What the user does -/

section Gestes

variable {ι E : Type}

/-- Whose device it is. -/
def Mouvement.qui : Mouvement ι → ι
  | .send i .. => i
  | .editMessage i .. => i
  | .deleteForEveryone i .. => i
  | .reagir i .. => i
  | .recevoir i .. => i
  | .controle i .. => i
  | .openConversation i _ => i
  | .closeConversation i => i
  | .marquerLu i _ => i
  | .checkDeliveries i _ => i

/-- What is sent for it. -/
def Mouvement.acte? (conv : Text) (postes : ι → State E) : Mouvement ι → Option Acte
  | .send _ _ texte attachment citation envoi =>
      some (.message envoi.messageId texte attachment citation)
  | .editMessage i _ k nouveauTexte => (postes i).edition? conv k nouveauTexte
  | .deleteForEveryone i k => (postes i).suppression? conv k
  | .reagir i k emoji => (postes i).reaction? conv k emoji
  | _ => none

end Gestes

section Gestes

variable {p : Primitives K} {double : Text → Option Int} {Q : Platform (Cliquet K)}
  {compte : Party → Membre} {s : State (Cliquet K)}

theorem surMessage_fidele (i : Nat) (f : ChatMessage → Option ChatMessage) :
    Fidele conv s (s.surMessage conv i f) := by
  unfold State.surMessage
  split
  · rename_i active c hactive hc
    split
    · exact .refl s
    · refine (Fidele.putConv hc ?_ ?_).trans (.saveHistory _ active)
      · rfl
      · rfl
  · exact .refl s

theorem reagir_fidele (i : Nat) (emoji : Text) : Fidele conv s (s.reagir conv i emoji) := by
  unfold State.reagir
  split
  · exact .refl s
  · split
    · exact .refl s
    · exact surMessage_fidele i _

theorem openConversation_fidele (id : Text) : Fidele conv s (s.openConversation id) := by
  unfold State.openConversation
  split
  · exact .refl s
  · rename_i c hc
    have hactive : Fidele conv s { s with activeConversationId := some id, error := false } :=
      .of_same rfl rfl
    dsimp only
    split
    · exact hactive
    · refine hactive.trans (Fidele.putConv hc ?_ ?_)
      · rfl
      · rfl

theorem saveEach_outside (hQ : CliquetReel p double Q) (id : Text) (entries : List (Text × Nat))
    (s : State (Cliquet K)) : (saveEach Q id entries s).outside = s.outside := by
  induction entries generalizing s with
  | nil => rfl
  | cons entry entries ih =>
    rw [saveEach, ih]
    dsimp only
    split
    · exact hQ.exportSession _ _
    · exact hQ.exportSession _ _

/-- A conversation is saved. -/
theorem saved_fidele (hQ : CliquetReel p double Q) (id : Text) :
    Fidele conv s (saveSessions Q id (s.saveHistory id)).saveConversations := by
  obtain ⟨hconv, -⟩ := saved_frame (P := Q) id s
  refine ⟨fun c hc => ⟨c, (hconv conv).trans hc, rfl, rfl⟩, ?_⟩
  exact (saveEach_outside hQ id _ _).trans (outside_saveHistory s id)

theorem sendPayload_fidele (hQ : CliquetReel p double Q) (now : Int) (texte : Text)
    (attachment : Option AttachmentRef) (citation : Option ChatMessage) (envoi : IssueEnvoi) :
    Fidele conv s (sendPayload Q now texte attachment citation envoi s) := by
  unfold sendPayload
  split
  · exact .refl s
  rename_i id hactive
  split
  · exact .refl s
  rename_i c hc
  split
  · exact .refl s
  unfold inscrire
  split
  · exact .refl s
  split
  · exact .of_same rfl rfl
  · rename_i message hmessage
    have hput : Fidele conv s (s.putConv id { c with
        messages := c.messages ++ [message], lastActivity := now }) := .putConv hc rfl rfl
    dsimp only
    split
    · exact hput.trans (.of_same rfl rfl)
    · exact hput.trans (saved_fidele hQ id)

/-- A device that acts adds its act, and its engine is left alone. -/
theorem pose_of_step (hQ : CliquetReel p double Q) {m : Mouvement Party} {acte : Acte}
    {r r' : Reseau Party (Cliquet K)} (hacte : m.acte? conv r.postes = some acte)
    (h : Reseau.step compte Q conv m r = some r') :
    ∃ s, r' = r.pose compte m.qui s acte ∧ Fidele conv (r.postes m.qui) s := by
  have hagit : ∀ {i : Party} {s : State (Cliquet K)} {acte? : Option Acte},
      acte? = some acte → r.agit compte conv i s acte? = some r' →
        r' = r.pose compte i s acte := fun hsome h => by
    unfold Reseau.agit at h
    split at h
    · rw [hsome] at h
      exact (Option.some.inj h).symm
    · cases h
  cases m with
  | send i now texte attachment citation envoi =>
    obtain rfl := Option.some.inj hacte
    simp only [Reseau.step] at h
    split at h
    · split at h
      · have hfidele := @sendPayload_fidele _ conv _ _ _ (r.postes i) hQ now texte attachment
          citation envoi
        exact ⟨_, (Option.some.inj h).symm, hfidele⟩
      · cases h
    · cases h
  | editMessage i now k nouveauTexte => exact ⟨_, hagit hacte h, surMessage_fidele k _⟩
  | deleteForEveryone i k => exact ⟨_, hagit hacte h, surMessage_fidele k _⟩
  | reagir i k emoji => exact ⟨_, hagit hacte h, reagir_fidele k emoji⟩
  | _ => cases hacte

end Gestes

/-! ## The two devices -/

/-- The two devices, the messages on their way, and the public halves of the ratchet pairs
drawn so far. -/
structure Duplex (K : Type) where
  reseau : Reseau Party (Cliquet K)
  plis : List Pli
  drawn : List PublicKey

inductive Trafic (K : Type) where
  /-- A user acts, and what is sent for it is sealed. -/
  | agir (m : Mouvement Party) (env : CallEnv K) (handshake : Option ZiaHandshakeMaterial)
  | openConversation (who : Party) (id : Text)
  | closeConversation (who : Party)
  | deliver (i : Nat) (now : Int) (env : CallEnv K)
  | lose (i : Nat)

namespace Duplex

def session (x : Duplex K) (who : Party) : ZiaSession K := (x.reseau.postes who).outside.session

/-- What the engines and the network see of it. -/
def echange (x : Duplex K) : Exchange K := ⟨x.session, x.plis.map (·.paquet), x.drawn⟩

/-- A call of the engine leaves this session behind. -/
def avec (x : Duplex K) (who : Party) (t : ZiaSession K) : Reseau Party (Cliquet K) :=
  x.reseau.touche who { x.reseau.postes who with
    outside := { (x.reseau.postes who).outside with session := t } }

section Systeme

variable (p : Primitives K) (Q : Platform (Cliquet K)) (compte : Party → Membre)
  (appareil : Party → Text) (conv : Text)

def step : Trafic K → Duplex K → Option (Duplex K)
  | .agir m env handshake, x =>
      (m.acte? conv x.reseau.postes).bind fun acte =>
        let clair := acte.contenu.encode encodeursDart
        match ziaSessionEncrypt p env (x.session m.qui) clair with
        | .ok chiffre t => (Reseau.step compte Q conv m (x.avec m.qui t)).map fun r =>
            { x with
              reseau := r
              plis := x.plis ++ [⟨⟨x.reseau.faits.length, compte m.qui, acte⟩, handshake,
                ⟨m.qui, chiffre.header, chiffre.ciphertext, clair⟩⟩] }
        | .error _ t => (Reseau.step compte Q conv m (x.avec m.qui t)).map fun r =>
            { x with reseau := r }
        | .fault => none
  | .openConversation who id, x =>
      (Reseau.step compte Q conv (.openConversation who id) x.reseau).map fun r =>
        { x with reseau := r }
  | .closeConversation who, x =>
      (Reseau.step compte Q conv (.closeConversation who) x.reseau).map fun r =>
        { x with reseau := r }
  | .deliver i now env, x =>
      match x.plis[i]? with
      | none => some x
      | some pli =>
          let who := pli.paquet.sender.other
          let s := x.reseau.postes who
          let (s', _) := receive Q now (pli.entrant compte appareil conv) (s.pour env)
          some {
            reseau := x.reseau.prend who s' pli.fait
            plis := x.plis.eraseIdx i
            drawn := if Exchange.drawsPair s.outside.session pli.paquet
              then x.drawn ++ [p.x25519Base env.fresh] else x.drawn }
  | .lose i, x => some { x with plis := x.plis.eraseIdx i }

/-- The assumptions of the engines on one event, and a clock that shows a date a message can
disappear at. -/
def Fair : Trafic K → Duplex K → Prop
  | .agir m env _, x => Exchange.Fair p (.send m.qui env []) x.echange
  | .deliver i now env, x => Exchange.Fair p (.deliver i env) x.echange ∧
      ∀ pli, x.plis[i]? = some pli →
        ∀ c, (x.reseau.postes pli.paquet.sender.other).conv? conv = some c →
          (echeance now c.ttlSecondes).isSome
  | _, _ => True

/-- The devices, each with its side of one handshake. -/
def debut (env : CallEnv K) (ad : FixedBytes 64) (sk signedPrekey : K)
    (postes : Party → State (Cliquet K)) : Duplex K :=
  let depart := Exchange.start p env ad sk signedPrekey
  { reseau := .debut fun who => { postes who with
      outside := { (postes who).outside with session := depart.session who } }
    plis := []
    drawn := depart.drawn }

/-- What is shown is what was taken in, and what is on its way can be opened and was not taken
in before. -/
structure Sain (sk : K) (ad : FixedBytes 64) (x : Duplex K) : Prop where
  reseau : x.reseau.Sain conv compte
  echange : ExchangeOk p sk ad x.echange
  relies : ∀ who : Party, Relie conv (appareil who.other) (x.reseau.postes who)
  clair : ∀ pli ∈ x.plis, pli.paquet.plaintext = pli.fait.acte.contenu.encode encodeursDart
  auteurs : ∀ pli ∈ x.plis, pli.fait.auteur = compte pli.paquet.sender
  faits : ∀ pli ∈ x.plis, pli.fait ∈ x.reseau.faits
  neufs : ∀ pli ∈ x.plis,
    pli.fait.numero ∉ (x.reseau.recus pli.paquet.sender.other).map (·.numero)
  distincts : (x.plis.map (·.fait.numero)).Nodup

end Systeme

variable {p : Primitives K} {double : Text → Option Int} {Q : Platform (Cliquet K)}
  {compte : Party → Membre} {appareil : Party → Text} {sk : K} {ad : FixedBytes 64}
  {x x' : Duplex K}

/-! ## One event -/

theorem Sain.numero_lt (h : x.Sain p compte appareil conv sk ad) {d : Fait}
    (hd : d ∈ x.reseau.faits) : d.numero < x.reseau.faits.length := by
  obtain ⟨n, hn⟩ := List.mem_iff_getElem?.mp hd
  rw [h.reseau.numeros n d hn]
  exact (List.getElem?_eq_some_iff.mp hn).1

/-- A message leaves the network. -/
theorem Sain.eraseIdx (h : x.Sain p compte appareil conv sk ad) (i : Nat) :
    Sain p compte appareil conv sk ad { x with plis := x.plis.eraseIdx i } := by
  have hmem : ∀ pli ∈ x.plis.eraseIdx i, pli ∈ x.plis := fun pli hp => List.mem_of_mem_eraseIdx hp
  obtain ⟨E, level, pos, hinv⟩ := h.echange
  have herase : Duplex.echange { x with plis := x.plis.eraseIdx i } =
      { x.echange with flight := x.echange.flight.eraseIdx i } := by
    rw [Duplex.echange, Duplex.echange, List.eraseIdx_map]
    rfl
  exact { h with
    echange := ⟨E, level, pos, herase ▸ hinv.erase i⟩
    clair := fun pli hp => h.clair pli (hmem pli hp)
    auteurs := fun pli hp => h.auteurs pli (hmem pli hp)
    faits := fun pli hp => h.faits pli (hmem pli hp)
    neufs := fun pli hp => h.neufs pli (hmem pli hp)
    distincts := h.distincts.sublist ((List.eraseIdx_sublist _ i).map _) }

/-- The session of a device that moved. -/
theorem session_update (f : Party → State (Cliquet K)) (who : Party) (s : State (Cliquet K)) :
    (fun w => (Function.update f who s w).outside.session) =
      Function.update (fun w => (f w).outside.session) who s.outside.session :=
  Function.comp_update (fun s : State (Cliquet K) => s.outside.session) f who s

/-- Nothing was sent, or sent for nothing. -/
theorem Sain.sans_envoi (h : x.Sain p compte appareil conv sk ad) {r : Reseau Party (Cliquet K)}
    (hr : r.Sain conv compte) (hsession : (fun w => (r.postes w).outside.session) = x.session)
    (hrelies : ∀ who : Party, Relie conv (appareil who.other) (r.postes who))
    (hrecus : ∀ pli ∈ x.plis,
      pli.fait.numero ∉ (r.recus pli.paquet.sender.other).map (·.numero))
    (hfaits : ∀ d ∈ x.reseau.faits, d ∈ r.faits) :
    Sain p compte appareil conv sk ad { x with reseau := r } := by
  have heq : Duplex.echange { x with reseau := r } = x.echange := by
    rw [Duplex.echange, Duplex.echange]
    exact congrArg (Exchange.mk · _ _) hsession
  exact { h with
    reseau := hr
    echange := heq ▸ h.echange
    relies := hrelies
    faits := fun pli hp => hfaits _ (h.faits pli hp)
    neufs := hrecus }

/-- A device turns to another conversation. -/
theorem Sain.ecran (hQ : CliquetReel p double Q) (hnoms : Reseau.NomsDistincts compte)
    (h : x.Sain p compte appareil conv sk ad) {m : Mouvement Party} {who : Party}
    {s : State (Cliquet K)} (hfidele : Fidele conv (x.reseau.postes who) s)
    (hstep : Reseau.step compte Q conv m x.reseau = some (x.reseau.touche who s)) :
    Sain p compte appareil conv sk ad { x with reseau := x.reseau.touche who s } := by
  refine h.sans_envoi (Reseau.sain_coup h.reseau
    (Reseau.coup_of_step hQ.decodeurs hnoms h.reseau hstep)) ?_ (fun w => ?_) h.neufs fun d hd => hd
  · rw [Reseau.touche, session_update, hfidele.outside]
    exact Function.update_eq_self who x.session
  · by_cases hw : w = who
    · subst hw
      simp only [Reseau.touche, Function.update_self]
      exact hfidele.relie (h.relies w)
    · simp only [Reseau.touche, Function.update_of_ne hw]
      exact h.relies w

theorem postes_avec (x : Duplex K) (who : Party) (t : ZiaSession K) :
    (x.avec who t).postes who = { x.reseau.postes who with
      outside := { (x.reseau.postes who).outside with session := t } } :=
  Function.update_self _ _ _

/-- The engine has no part in what is sent. -/
theorem acte?_avec (m : Mouvement Party) (t : ZiaSession K) :
    m.acte? conv (x.avec m.qui t).postes = m.acte? conv x.reseau.postes := by
  cases m with
  | editMessage i =>
    rw [Mouvement.acte?, Mouvement.acte?, Mouvement.qui, postes_avec]
    rfl
  | deleteForEveryone i =>
    rw [Mouvement.acte?, Mouvement.acte?, Mouvement.qui, postes_avec]
    rfl
  | reagir i =>
    rw [Mouvement.acte?, Mouvement.acte?, Mouvement.qui, postes_avec]
    rfl
  | _ => rfl

/-- What a move of the user comes to, once its engine left a session behind. -/
structure Agi (compte : Party → Membre) (appareil : Party → Text) (conv : Text) (x : Duplex K)
    (who : Party) (t : ZiaSession K) (d : Fait) (r : Reseau Party (Cliquet K)) : Prop where
  sain : r.Sain conv compte
  session : (fun w => (r.postes w).outside.session) = Function.update x.session who t
  relies : ∀ w : Party, Relie conv (appareil w.other) (r.postes w)
  faits : r.faits = x.reseau.faits ++ [d]
  recus : r.recus = Function.update x.reseau.recus who (x.reseau.recus who ++ [d])

theorem Sain.agi (hQ : CliquetReel p double Q) (hnoms : Reseau.NomsDistincts compte)
    (h : x.Sain p compte appareil conv sk ad) {m : Mouvement Party} {acte : Acte}
    {t : ZiaSession K} {r : Reseau Party (Cliquet K)}
    (hacte : m.acte? conv x.reseau.postes = some acte)
    (hstep : Reseau.step compte Q conv m (x.avec m.qui t) = some r) :
    Agi compte appareil conv x m.qui t ⟨x.reseau.faits.length, compte m.qui, acte⟩ r := by
  have hsain : (x.avec m.qui t).Sain conv compte :=
    Reseau.sain_coup (P := Q) h.reseau (.touche (.of_conversations rfl rfl rfl))
  rw [← acte?_avec m t] at hacte
  obtain ⟨s, rfl, hfidele⟩ := pose_of_step hQ hacte hstep
  rw [postes_avec] at hfidele
  have hrelie : Relie conv (appareil m.qui.other) s := hfidele.relie (h.relies m.qui)
  have hupdate : ((x.avec m.qui t).pose compte m.qui s acte).postes =
      Function.update x.reseau.postes m.qui s := Function.update_idem _ _ _
  refine ⟨Reseau.sain_coup hsain (Reseau.coup_of_step hQ.decodeurs hnoms hsain hstep), ?_,
    fun w => ?_, rfl, rfl⟩
  · rw [hupdate, session_update, hfidele.outside]
    rfl
  · rw [hupdate]
    by_cases hw : w = m.qui
    · subst hw
      rw [Function.update_self]
      exact hrelie
    · rw [Function.update_of_ne hw]
      exact h.relies w

/-- The act is new to the messages on their way. -/
theorem Agi.neufs (h : x.Sain p compte appareil conv sk ad) {who : Party} {t : ZiaSession K}
    {acte : Acte} {r : Reseau Party (Cliquet K)}
    (hagi : Agi compte appareil conv x who t ⟨x.reseau.faits.length, compte who, acte⟩ r) :
    ∀ pli ∈ x.plis, pli.fait.numero ∉ (r.recus pli.paquet.sender.other).map (·.numero) := by
  intro pli hp
  rw [hagi.recus]
  by_cases hw : pli.paquet.sender.other = who
  · rw [hw, Function.update_self, List.map_append, List.mem_append, not_or]
    refine ⟨hw ▸ h.neufs pli hp, fun hmem => ?_⟩
    have hlt := h.numero_lt (h.faits pli hp)
    have heq : pli.fait.numero = x.reseau.faits.length := List.mem_singleton.mp hmem
    omega
  · rw [Function.update_of_ne hw]
    exact h.neufs pli hp

/-- A message that is delivered decrypts, and what it says is taken in. -/
theorem Sain.deliver (hQ : CliquetReel p double Q) (hP : AeadCorrect p) (hdh : DhAgreement p)
    (hnoms : Reseau.NomsDistincts compte) (h : x.Sain p compte appareil conv sk ad) {i : Nat}
    {now : Int} {env : CallEnv K} {pli : Pli} (hi : x.plis[i]? = some pli)
    (hfair : Fair p conv (.deliver i now env) x)
    (hstep : step p Q compte appareil conv (.deliver i now env) x = some x') :
    x'.Sain p compte appareil conv sk ad ∧ x'.reseau.faits = x.reseau.faits ∧
      x'.plis = x.plis.eraseIdx i ∧ x'.reseau.recus = Function.update x.reseau.recus
        pli.paquet.sender.other (x.reseau.recus pli.paquet.sender.other ++ [pli.fait]) := by
  have hmem : pli ∈ x.plis := List.mem_of_getElem? hi
  have hflight : x.echange.flight[i]? = some pli.paquet := by
    rw [Duplex.echange, List.getElem?_map, hi]
    rfl
  obtain ⟨E, level, pos, hinv⟩ := h.echange
  obtain ⟨t, hok, hnext⟩ := deliver_ok hP hdh hinv hflight hfair.1
  rw [h.clair pli hmem] at hok
  obtain ⟨j, hj⟩ := h.reseau.auteurs pli.fait (h.faits pli hmem)
  have hside : pli.fait.auteur.username = (compte pli.paquet.sender.other).username ↔
      pli.fait.auteur.userId = (compte pli.paquet.sender.other).userId := by
    rw [hj]
    exact hnoms j _
  have hrelie := h.relies pli.paquet.sender.other
  rw [Party.other_other] at hrelie
  obtain ⟨s', recu, ms, hreceive, hdevient, hchange, hrelie', hsession⟩ := receive_fait hQ now
    hrelie (h.reseau.userId _) (h.reseau.username _) (h.auteurs pli hmem) hside
    (h.reseau.ordinaires pli.fait (h.faits pli hmem)) (hfair.2 pli hi) hok
  simp only [step, hi, hreceive] at hstep
  obtain rfl := Option.some.inj hstep
  have herase := h.eraseIdx i
  refine ⟨?_, rfl, rfl, rfl⟩
  constructor
  case reseau =>
    exact Reseau.sain_coup h.reseau
      (.prend (P := Q) (h.faits pli hmem) (h.neufs pli hmem) hdevient hchange)
  case echange =>
    convert hnext using 1
    rw [Duplex.echange, Duplex.echange, Exchange.setSession, List.eraseIdx_map]
    have hsessions := session_update x.reseau.postes pli.paquet.sender.other s'
    rw [hsession] at hsessions
    exact congrArg (Exchange.mk · _ _) hsessions
  case relies =>
    intro w
    by_cases hw : w = pli.paquet.sender.other
    · subst hw
      simp only [Reseau.prend, Reseau.touche, Function.update_self, Party.other_other]
      exact hrelie'
    · simp only [Reseau.prend, Reseau.touche, Function.update_of_ne hw]
      exact h.relies w
  case clair => exact herase.clair
  case auteurs => exact herase.auteurs
  case faits => exact herase.faits
  case neufs =>
    intro pli' hp
    by_cases hw : pli'.paquet.sender.other = pli.paquet.sender.other
    · simp only [Reseau.prend, hw, Function.update_self, List.map_append, List.mem_append, not_or]
      refine ⟨hw ▸ herase.neufs pli' hp, fun hsame => ?_⟩
      have heq : pli'.fait.numero = pli.fait.numero := List.mem_singleton.mp hsame
      obtain ⟨k, hki, hk⟩ := List.mem_eraseIdx_iff_getElem?.mp hp
      have hnumeros : (x.plis.map (·.fait.numero))[k]? = (x.plis.map (·.fait.numero))[i]? := by
        rw [List.getElem?_map, List.getElem?_map, hk, hi, Option.map_some, Option.map_some, heq]
      have hlt : k < (x.plis.map (·.fait.numero)).length := by
        rw [List.length_map]
        exact (List.getElem?_eq_some_iff.mp hk).1
      exact hki ((List.getElem?_inj hlt h.distincts).mp hnumeros)
    · simp only [Reseau.prend, Function.update_of_ne hw]
      exact herase.neufs pli' hp
  case distincts => exact herase.distincts

/-- What is sent for an act is sealed, and on its way. -/
theorem Sain.envoi (h : x.Sain p compte appareil conv sk ad) {who : Party} {env : CallEnv K}
    {acte : Acte} {handshake : Option ZiaHandshakeMaterial} {chiffre : EncryptedMessage}
    {t : ZiaSession K} {r : Reseau Party (Cliquet K)} (hP : AeadCorrect p) (hdh : DhAgreement p)
    (hfair : Exchange.Fair p (.send who env []) x.echange)
    (hencrypt : ziaSessionEncrypt p env (x.session who) (acte.contenu.encode encodeursDart) =
      .ok chiffre t)
    (hagi : Agi compte appareil conv x who t ⟨x.reseau.faits.length, compte who, acte⟩ r) :
    Sain p compte appareil conv sk ad { x with
      reseau := r
      plis := x.plis ++ [⟨⟨x.reseau.faits.length, compte who, acte⟩, handshake,
        ⟨who, chiffre.header, chiffre.ciphertext, acte.contenu.encode encodeursDart⟩⟩] } := by
  have hneufs := hagi.neufs h
  constructor
  case reseau => exact hagi.sain
  case echange =>
    refine exchangeOk_step hP hdh (.send who env (acte.contenu.encode encodeursDart)) x.echange _
      h.echange hfair ?_
    have hsession : x.echange.session who = x.session who := rfl
    simp only [Exchange.step, hsession, hencrypt]
    rw [Duplex.echange, Duplex.echange, Exchange.setSession, List.map_append]
    exact congrArg (fun f => some (Exchange.mk f _ _)) hagi.session.symm
  case relies => exact hagi.relies
  case clair =>
    intro pli hp
    rcases List.mem_append.mp hp with hold | hlast
    · exact h.clair pli hold
    · obtain rfl := List.mem_singleton.mp hlast
      rfl
  case auteurs =>
    intro pli hp
    rcases List.mem_append.mp hp with hold | hlast
    · exact h.auteurs pli hold
    · obtain rfl := List.mem_singleton.mp hlast
      rfl
  case faits =>
    intro pli hp
    rw [hagi.faits]
    rcases List.mem_append.mp hp with hold | hlast
    · exact List.mem_append_left _ (h.faits pli hold)
    · obtain rfl := List.mem_singleton.mp hlast
      exact List.mem_append_right _ List.mem_cons_self
  case neufs =>
    intro pli hp
    rcases List.mem_append.mp hp with hold | hlast
    · exact hneufs pli hold
    · obtain rfl := List.mem_singleton.mp hlast
      rw [hagi.recus, Function.update_of_ne (Party.other_ne who)]
      intro hmem
      obtain ⟨d, hd, hnumero⟩ := List.mem_map.mp hmem
      have hlt := h.numero_lt (h.reseau.recus who.other hd)
      have heq : d.numero = x.reseau.faits.length := hnumero
      omega
  case distincts =>
    rw [List.map_append, List.nodup_append]
    refine ⟨h.distincts, List.nodup_singleton _, ?_⟩
    intro a ha b hb hab
    obtain ⟨pli, hp, rfl⟩ := List.mem_map.mp ha
    have hlt := h.numero_lt (h.faits pli hp)
    have heq : b = x.reseau.faits.length := List.mem_singleton.mp hb
    omega

/-- One event keeps all of it. -/
theorem sain_step (hQ : CliquetReel p double Q) (hP : AeadCorrect p) (hdh : DhAgreement p)
    (hnoms : Reseau.NomsDistincts compte) (e : Trafic K) (x x' : Duplex K)
    (h : x.Sain p compte appareil conv sk ad) (hfair : Fair p conv e x)
    (hstep : step p Q compte appareil conv e x = some x') :
    x'.Sain p compte appareil conv sk ad := by
  cases e with
  | agir m env handshake =>
    obtain ⟨acte, hacte, hstep⟩ := Option.bind_eq_some_iff.mp hstep
    cases hencrypt : ziaSessionEncrypt p env (x.session m.qui)
        (acte.contenu.encode encodeursDart) with
    | fault => simp only [hencrypt] at hstep; cases hstep
    | ok chiffre t =>
      simp only [hencrypt] at hstep
      obtain ⟨r, hr, rfl⟩ := Option.map_eq_some_iff.mp hstep
      exact h.envoi hP hdh hfair hencrypt (h.agi hQ hnoms hacte hr)
    | error rc t =>
      simp only [hencrypt] at hstep
      obtain ⟨r, hr, rfl⟩ := Option.map_eq_some_iff.mp hstep
      have hagi := h.agi hQ hnoms hacte hr
      refine h.sans_envoi hagi.sain ?_ hagi.relies (hagi.neufs h) fun d hd => ?_
      · rw [hagi.session, encrypt_error p hencrypt]
        exact Function.update_eq_self _ _
      · rw [hagi.faits]
        exact List.mem_append_left _ hd
  | openConversation who id =>
    simp only [step] at hstep
    obtain ⟨r, hr, rfl⟩ := Option.map_eq_some_iff.mp hstep
    obtain rfl := Option.some.inj hr
    exact h.ecran hQ hnoms (openConversation_fidele id) hr
  | closeConversation who =>
    simp only [step] at hstep
    obtain ⟨r, hr, rfl⟩ := Option.map_eq_some_iff.mp hstep
    obtain rfl := Option.some.inj hr
    exact h.ecran hQ hnoms (.of_same rfl rfl) hr
  | deliver i now env =>
    cases hi : x.plis[i]? with
    | none =>
      simp only [step, hi] at hstep
      obtain rfl := Option.some.inj hstep
      exact h
    | some pli => exact (h.deliver hQ hP hdh hnoms hi hfair hstep).1
  | lose i =>
    obtain rfl := Option.some.inj hstep
    exact h.eraseIdx i

/-! ## All runs -/

section Runs

variable {env : CallEnv K} {signedPrekey : K} {postes : Party → State (Cliquet K)}
  {trafics : List (Trafic K)}

theorem sain_debut (hdh : DhAgreement p)
    (hne : p.x25519Base env.fresh ≠ p.x25519Base signedPrekey)
    (hdebut : Reseau.Debut compte conv postes)
    (hrelies : ∀ who : Party, Relie conv (appareil who.other) (postes who)) :
    (debut p env ad sk signedPrekey postes).Sain p compte appareil conv sk ad where
  reseau := Reseau.sain_debut ⟨hdebut.userId, hdebut.username, hdebut.vide⟩
  echange := ⟨_, _, _, exchangeInv_start hdh env ad sk signedPrekey hne⟩
  relies := hrelies
  clair _ hp := absurd hp List.not_mem_nil
  auteurs _ hp := absurd hp List.not_mem_nil
  faits _ hp := absurd hp List.not_mem_nil
  neufs _ hp := absurd hp List.not_mem_nil
  distincts := List.nodup_nil

theorem sain_of_run (hQ : CliquetReel p double Q) (hP : AeadCorrect p) (hdh : DhAgreement p)
    (hnoms : Reseau.NomsDistincts compte)
    (hne : p.x25519Base env.fresh ≠ p.x25519Base signedPrekey)
    (hdebut : Reseau.Debut compte conv postes)
    (hrelies : ∀ who : Party, Relie conv (appareil who.other) (postes who))
    (hfair : Always (step p Q compte appareil conv) (Fair p conv) trafics
      (debut p env ad sk signedPrekey postes))
    (h : run (step p Q compte appareil conv) trafics (debut p env ad sk signedPrekey postes) =
      some x) : x.Sain p compte appareil conv sk ad :=
  run_invariant_of_always (fun x => x.Sain p compte appareil conv sk ad)
    (sain_step hQ hP hdh hnoms) (sain_debut hdh hne hdebut hrelies) hfair h

end Runs

end Duplex

/-! ## One message overtakes another, which is lost -/

/-- The codecs of a device, and the engine over the sample primitives. -/
def plateformeCliquet : Platform (Cliquet Key) where
  jsonDecode := jsonDecode fun _ => none
  utf8Decode := utf8Decode
  utf8DecodeMalformed b := (utf8Decode b).getD []
  base64Decode := Base64.decode
  sealedOpen _ e := (none, e)
  acceptSession _ e := (none, e)
  importSession _ e := (none, e)
  exportSession _ e := (none, e)
  decrypt := Cliquet.decrypt sample
  senderKeyDecrypt _ _ _ e := (none, e)
  senderKeyProcess _ _ _ e := e
  diffuserLu _ _ e := ([], e)

theorem plateformeCliquet_reel : CliquetReel sample (fun _ => none) plateformeCliquet where
  decodeurs := {
    jsonDecode := rfl
    utf8Decode := fun b t h => by
      change (utf8Decode b).getD [] = t
      rw [h]
      rfl }
  base64Decode := Base64.decode_encode false
  decrypt := rfl
  exportSession _ _ := rfl

theorem sample_dhAgreement : DhAgreement sample := by
  intro a b
  refine ⟨_, rfl, ?_⟩
  have hcomm : List.zipWith (· + ·) b.bytes a.bytes = List.zipWith (· + ·) a.bytes b.bytes :=
    List.zipWith_comm_of_comm fun x y => UInt8.add_comm x y
  simp only [sample, hcomm]

def compteDe (who : Party) : Membre := aliceEtBob (decide (who = .alice))

def appareilDe : Party → Text
  | .alice => text "d-a"
  | .bob => text "d-b"

/-- Their conversation is on the screen of both, with the session of the other's device. -/
def posteDe (who : Party) : State (Cliquet Key) :=
  { (Appareil.neuf (compteDe who).userId (compteDe who).username
      (⟨7, initAsResponder sampleAd (sampleKey 2) (sampleKey 3) (sampleKey 3), sampleEnv 0⟩ :
        Cliquet Key)).client.putConv (text "c")
      { Conversation.new (text "c") (text "c") 0 with
        targetDeviceIds := [appareilDe who.other]
        sessions := LinkedMap.empty.insert (appareilDe who.other) 7 } with
    activeConversationId := some (text "c") }

theorem posteDe_debut : Reseau.Debut compteDe (text "c") posteDe where
  userId who := by cases who <;> rfl
  username who := by cases who <;> rfl
  vide who := by cases who <;> rfl

theorem posteDe_relie (who : Party) : Relie (text "c") (appareilDe who.other) (posteDe who) := by
  refine ⟨_, conv?_putConv _ _ _ _ |>.trans (if_pos rfl), ?_⟩
  cases who <;> decide

theorem compteDe_noms : Reseau.NomsDistincts compteDe := by
  intro i j
  cases i <;> cases j <;> decide

namespace Duplex

instance decidableExchangeFair (e : ExchangeEvent Key) (x : Exchange Key) :
    Decidable (Exchange.Fair sample e x) :=
  match e with
  | .send _ _ _ => inferInstanceAs (Decidable (_ < _))
  | .deliver i env => inferInstanceAs (Decidable (∀ q ∈ x.flight[i]?, env.alloc = true ∧
      (Exchange.drawsPair (x.session q.sender.other) q = true →
        sample.x25519Base env.fresh ∉ x.drawn) ∧
      (x.session q.sender.other).skipped.length +
        storedBy (x.session q.sender.other) (decodeHeader q.header) ≤ kMaxSkippedKeys))
  | .lose _ => isTrue trivial

instance decidableFair (conv : Text) (e : Trafic Key) (x : Duplex Key) :
    Decidable (Fair sample conv e x) :=
  match e with
  | .agir m env _ =>
      inferInstanceAs (Decidable (Exchange.Fair sample (.send m.qui env []) x.echange))
  | .deliver i now env => inferInstanceAs (Decidable (
      Exchange.Fair sample (.deliver i env) x.echange ∧
      ∀ pli ∈ x.plis[i]?, ∀ c ∈ (x.reseau.postes pli.paquet.sender.other).conv? conv,
        (echeance now c.ttlSecondes).isSome))
  | .openConversation _ _ => isTrue trivial
  | .closeConversation _ => isTrue trivial
  | .lose _ => isTrue trivial

/-- Alice and Bob after their handshake. -/
def aliceAvecBob : Duplex Key :=
  debut sample (sampleEnv 1) sampleAd (sampleKey 2) (sampleKey 3) posteDe

def stepEntreEux : Trafic Key → Duplex Key → Option (Duplex Key) :=
  step sample plateformeCliquet compteDe appareilDe (text "c")

end Duplex

end ZiaCrypte.Inbox

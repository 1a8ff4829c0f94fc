import ZiaCrypte.Inbox.Backfill
import ZiaCrypte.Inbox.PollSteps
import ZiaCrypte.Sending.Outbox

/-!
# The texts a user composes

A composed text goes out in the field that controls, batches of history and group names use
too, and only its first characters tell them apart. What the sender adds to the thread and
what a device that decrypts it does are compared for one text.
-/
namespace ZiaCrypte.Inbox

open ZiaCrypte.Lib ZiaCrypte.Engine

variable {E : Type} (P : Platform E)

/-! ## Contents on the way out -/

def palierBourrage : Nat := 160

def taillePaliee (longueur : Nat) : Nat :=
  if longueur = 0 then palierBourrage
  else (longueur + palierBourrage - 1) / palierBourrage * palierBourrage

/-- Spaces up to the next size. -/
def bourrer (chargeJsonUtf8 : Bytes) : Bytes :=
  chargeJsonUtf8 ++
    List.replicate (taillePaliee chargeJsonUtf8.length - chargeJsonUtf8.length) 0x20

/-- The encoders of the platform. -/
structure Encodeurs where
  jsonEncode : Json → Text
  utf8Encode : Text → Bytes

def payloadJson (texte : Text) (attachment : Option AttachmentRef) (messageId : Option Text)
    (replyTo : Option ChatMessage) : List (Text × Json) :=
  [(text "t", .str texte)] ++
  (attachment.toList.map fun a => (text "f", .obj a.toJson)) ++
  (messageId.toList.map fun id => (text "i", .str id)) ++
  replyTo.toList.flatMap fun m =>
    [(text "q", m.id.elim .null .str), (text "qt", .str (Sending.extrait m.text)),
      (text "qm", .bool m.mine)]

def encodePayload (C : Encodeurs) (texte : Text) (attachment : Option AttachmentRef)
    (messageId : Option Text) (replyTo : Option ChatMessage) : Bytes :=
  bourrer (C.utf8Encode (C.jsonEncode (.obj (payloadJson texte attachment messageId replyTo))))

/-! ## Sending -/

def Conversation.ready (c : Conversation) : Bool := c.isChannel || !c.sessions.entries.isEmpty

/-- The id of a message, and how its grouped or pairwise sendings ended. -/
structure IssueEnvoi where
  messageId : Text
  delivered : Nat
  receiptIds : List Text

/-- The message of the thread; `none` where its date is out of range. -/
def sentMessage (now : Int) (c : Conversation) (texte : Text) (attachment : Option AttachmentRef)
    (citation : Option ChatMessage) (envoi : IssueEnvoi) : Option ChatMessage := do
  let expiresAt ← echeance now c.ttlSecondes
  pure { ChatMessage.new texte true now with
    expiresAt := expiresAt
    id := some envoi.messageId
    replyToId := citation.bind (·.id)
    replyToText := citation.map fun m => Sending.extrait m.text
    replyToMine := citation.map (·.mine)
    attachment := attachment
    pendingReceiptIds := envoi.receiptIds
    sendFailed := decide (envoi.delivered = 0) }

/-- The end of `_sendPayload`, once the contents were sent to the devices. -/
def inscrire (now : Int) (conv : Text) (c : Conversation) (texte : Text)
    (attachment : Option AttachmentRef) (citation : Option ChatMessage) (envoi : IssueEnvoi)
    (s : State E) : State E :=
  if estAnnonceInterne texte then s
  else
    match sentMessage now c texte attachment citation envoi with
    | none => { s with error := true }
    | some message =>
        let s := s.putConv conv { c with
          messages := c.messages ++ [message]
          lastActivity := now }
        if envoi.delivered = 0 then { s with error := false }
        else (saveSessions P conv (s.saveHistory conv)).saveConversations

/-- `_sendPayload`, in the state its sendings left. -/
def sendPayload (now : Int) (texte : Text) (attachment : Option AttachmentRef)
    (citation : Option ChatMessage) (envoi : IssueEnvoi) (s : State E) : State E :=
  match s.activeConversationId with
  | none => s
  | some conv =>
      match s.conv? conv with
      | none => s
      | some c =>
          if !c.ready then s else inscrire P now conv c texte attachment citation envoi s

/-- `send` -/
def send (now : Int) (texte : Text) (citation : Option ChatMessage) (envoi : IssueEnvoi)
    (s : State E) : State E := sendPayload P now texte none citation envoi s

/-! ## One message, and nothing else -/

/-- The thread of the sender gains the text, and its settings are as they were. -/
structure SentOne (conv texte : Text) (s after : State E) : Prop where
  gained : ∃ c m lastActivity, s.conv? conv = some c ∧ m.text = texte ∧ m.mine = true ∧
    m.systeme = false ∧ after.conv? conv = some { c with
      messages := c.messages ++ [m]
      lastActivity := lastActivity }
  others : ∀ id, id ≠ conv → after.conv? id = s.conv? id
  statuts : after.statuts = s.statuts
  avatars : after.avatars = s.avatars
  jetons : after.jetonsRemise = s.jetonsRemise

/-- So does the thread of a recipient, and it is saved with its batch: no control, batch of
history or name of a group was taken from the message. -/
def GainsOne (conv texte : Text) (s : State E) (after : State E × Received) : Prop :=
  after.2 = .touched conv ∧ ∃ c m lastActivity unread, s.conv? conv = some c ∧ m.text = texte ∧
    m.systeme = false ∧ after.1 = s.putConv conv { c with
      messages := c.messages ++ [m]
      lastActivity := lastActivity
      unread := unread }

/-- A message `m` that a device receives at `now` in `s`, and the state `opened` in which its
contents are read. -/
structure Reception (E : Type) where
  now : Int
  m : Incoming
  s : State E
  inner : Incoming
  conv : Text
  sender : Text
  opened : State E

/-- The contents are read to the end. -/
structure Lisible (r : Reception E) : Prop where
  username : (r.inner.senderUsername.asString?).isSome
  date : ∀ c, r.opened.conv? r.conv = some c → (echeance r.now c.ttlSecondes).isSome

variable {P}

/-! ## The sender -/

theorem saveEach_frame (conv : Text) (entries : List (Text × Nat)) (s : State E) :
    ∃ outside error sess, saveEach P conv entries s =
      { s with outside := outside, error := error, coffre := { s.coffre with sess := sess } } := by
  induction entries generalizing s with
  | nil => exact ⟨s.outside, s.error, s.coffre.sess, rfl⟩
  | cons entry entries ih =>
    rw [saveEach]
    dsimp only
    split
    · obtain ⟨outside, error, sess, heq⟩ := ih _
      exact ⟨outside, error, sess, heq⟩
    · obtain ⟨outside, error, sess, heq⟩ := ih _
      exact ⟨outside, error, sess, heq⟩

/-- Saving a conversation changes nothing in memory. -/
theorem saved_frame (conv : Text) (s : State E) :
    (∀ id, ((saveSessions P conv (s.saveHistory conv)).saveConversations).conv? id = s.conv? id) ∧
      ((saveSessions P conv (s.saveHistory conv)).saveConversations).statuts = s.statuts ∧
      ((saveSessions P conv (s.saveHistory conv)).saveConversations).avatars = s.avatars ∧
      ((saveSessions P conv (s.saveHistory conv)).saveConversations).jetonsRemise =
        s.jetonsRemise := by
  obtain ⟨outside, error, sess, hframe⟩ := saveEach_frame (P := P) conv
    ((((s.saveHistory conv).conv? conv).map (·.sessions.entries)).getD []) (s.saveHistory conv)
  rw [saveSessions, hframe]
  refine ⟨fun id => conv?_saveHistory s conv id, ?_⟩
  show (s.saveHistory conv).statuts = _ ∧ (s.saveHistory conv).avatars = _ ∧
    (s.saveHistory conv).jetonsRemise = _
  unfold State.saveHistory
  split <;> exact ⟨rfl, rfl, rfl⟩

/-- A thread that stays as it is has gained nothing. -/
theorem not_sentOne {conv texte : Text} {s after : State E}
    (hsame : after.conv? conv = s.conv? conv) : ¬ SentOne conv texte s after := by
  intro h
  obtain ⟨c, m, lastActivity, hc, -, -, -, hafter⟩ := h.gained
  rw [hsame, hc] at hafter
  have hlen := congrArg (fun c : Conversation => c.messages.length) (Option.some.inj hafter)
  simp at hlen

theorem sentMessage_of_date {now : Int} {c : Conversation} (texte : Text)
    (attachment : Option AttachmentRef) (citation : Option ChatMessage) (envoi : IssueEnvoi)
    (h : (echeance now c.ttlSecondes).isSome) :
    ∃ m, sentMessage now c texte attachment citation envoi = some m ∧ m.text = texte ∧
      m.mine = true ∧ m.systeme = false := by
  obtain ⟨expiresAt, hdate⟩ := Option.isSome_iff_exists.mp h
  rw [sentMessage, hdate]
  exact ⟨_, rfl, rfl, rfl, rfl⟩

theorem sentMessage_none {now : Int} {c : Conversation} {texte : Text}
    {attachment : Option AttachmentRef} {citation : Option ChatMessage} {envoi : IssueEnvoi}
    (h : ¬ (echeance now c.ttlSecondes).isSome) :
    sentMessage now c texte attachment citation envoi = none := by
  rw [Bool.not_eq_true, Option.isSome_eq_false_iff, Option.isNone_iff_eq_none] at h
  rw [sentMessage, h]
  rfl

/-- The message is in memory whatever becomes of its sendings and its saving. -/
theorem inscrire_sentOne_iff {now : Int} {conv : Text} {c : Conversation} {texte : Text}
    {attachment : Option AttachmentRef} {citation : Option ChatMessage} {envoi : IssueEnvoi}
    {s : State E} (hc : s.conv? conv = some c) :
    SentOne conv texte s (inscrire P now conv c texte attachment citation envoi s) ↔
      estAnnonceInterne texte = false ∧ (echeance now c.ttlSecondes).isSome := by
  unfold inscrire
  by_cases hannonce : estAnnonceInterne texte = true
  · rw [if_pos hannonce, hannonce]
    exact ⟨fun h => absurd h (not_sentOne rfl), fun h => by cases h.1⟩
  rw [if_neg hannonce]
  by_cases hdate : (echeance now c.ttlSecondes).isSome
  swap
  · rw [sentMessage_none hdate]
    exact ⟨fun h => absurd h (not_sentOne rfl), fun h => absurd h.2 hdate⟩
  obtain ⟨m, hm, htexte, hmine, hsysteme⟩ :=
    sentMessage_of_date texte attachment citation envoi hdate
  refine ⟨fun _ => ⟨by simpa using hannonce, hdate⟩, fun _ => ?_⟩
  rw [hm]
  dsimp only
  have hput := conv?_putConv s conv
  split
  · exact {
      gained := ⟨c, m, now, hc, htexte, hmine, hsysteme, (hput conv _).trans (if_pos rfl)⟩
      others := fun id hid => (hput id _).trans (if_neg hid)
      statuts := rfl
      avatars := rfl
      jetons := rfl }
  · obtain ⟨hconv, hstatuts, havatars, hjetons⟩ := saved_frame (P := P) conv (s.putConv conv
      { c with messages := c.messages ++ [m], lastActivity := now })
    exact {
      gained := ⟨c, m, now, hc, htexte, hmine, hsysteme,
        (hconv conv).trans ((hput conv _).trans (if_pos rfl))⟩
      others := fun id hid => (hconv id).trans ((hput id _).trans (if_neg hid))
      statuts := hstatuts
      avatars := havatars
      jetons := hjetons }

/-! ## The recipients -/

/-- What a composed text is read as. -/
theorem decodePayload_composed {plain : Bytes} {texte messageId : Text}
    {citation : Option ChatMessage}
    (hjson : P.jsonDecode (P.utf8DecodeMalformed plain) =
      some (.obj (payloadJson texte none (some messageId) citation))) :
    (decodePayload P plain).text = texte := by
  unfold decodePayload
  dsimp only
  rw [hjson]
  cases citation with
  | none => rfl
  | some cited =>
    obtain ⟨_, _, _, id, _⟩ := cited
    cases id <;> rfl

/-- The contents of a message are read as one of the thread exactly when nothing internal
starts like them. -/
theorem dispatch_gainsOne_iff {now : Int} {conv sender texte : Text} {plain : Bytes} {m : Incoming}
    {s : State E} {c : Conversation} (hc : s.conv? conv = some c)
    (htexte : (decodePayload P plain).text = texte) :
    GainsOne conv texte s (dispatch P now conv sender plain m s) ↔
      estControle texte = false ∧ estSync texte = false ∧ estAnnonceInterne texte = false ∧
        (m.senderUsername.asString?).isSome ∧ (echeance now c.ttlSecondes).isSome := by
  unfold dispatch
  cases hname : m.senderUsername.asString? with
  | none =>
    refine ⟨fun h => ?_, fun h => by cases h.2.2.2.1⟩
    cases h.1
  | some senderUsername =>
    dsimp only
    rw [htexte]
    by_cases hcontrole : estControle texte = true
    · rw [if_pos hcontrole, hcontrole]
      refine ⟨fun h => ?_, fun h => by cases h.1⟩
      split at h <;> cases h.1
    rw [if_neg hcontrole]
    by_cases hsync : estSync texte = true
    · rw [if_pos hsync, hsync]
      refine ⟨fun h => ?_, fun h => by cases h.2.1⟩
      cases h.1
    rw [if_neg hsync, hc]
    rw [Bool.not_eq_true] at hcontrole hsync
    by_cases hannonce : estAnnonceInterne texte = true
    · rw [if_pos hannonce, hannonce]
      refine ⟨fun h => ?_, fun h => by cases h.2.2.1⟩
      -- The name is taken, and the thread has gained nothing.
      obtain ⟨-, c', m', lastActivity, unread, hc', -, -, hafter⟩ := h
      obtain rfl := Option.some.inj (hc.symm.trans hc')
      have hthread := congrArg (fun s => s.messagesIn conv) hafter
      simp at hthread
    rw [if_neg hannonce, addReceived, hc]
    rw [Bool.not_eq_true] at hannonce
    dsimp only
    cases hdate : echeance now c.ttlSecondes with
    | none =>
      have hnone : receivedMessage now c (decodePayload P plain)
          (decide (senderUsername = s.username)) senderUsername = none := by
        rw [receivedMessage, hdate]
        rfl
      rw [hnone]
      refine ⟨fun h => ?_, fun h => by cases h.2.2.2.2⟩
      cases h.1
    | some expiresAt =>
      refine ⟨fun _ => ⟨hcontrole, hsync, hannonce, rfl, rfl⟩, fun _ => ?_⟩
      rw [receivedMessage, hdate]
      exact ⟨rfl, c, _, _, _, hc, htexte, rfl, rfl⟩

/-- One text: the sender and every device that decrypts it gain it and nothing else happens,
exactly when it does not start like the name of a group and, where a device decrypts it, like
a control or a batch of history, and the times of the threads are dates. -/
theorem composedText_gainsOne_iff {C : Encodeurs} {now : Int} {conv texte : Text}
    {citation : Option ChatMessage} {envoi : IssueEnvoi} {s : State E} {c : Conversation}
    (hactive : s.activeConversationId = some conv) (hc : s.conv? conv = some c)
    (hready : c.ready = true) {recipients : List (Reception E)}
    (hjson : P.jsonDecode (P.utf8DecodeMalformed
        (encodePayload C texte none (some envoi.messageId) citation)) =
      some (.obj (payloadJson texte none (some envoi.messageId) citation)))
    (hopens : ∀ r ∈ recipients, Opens P r.now r.m r.s r.inner r.conv r.sender
      (encodePayload C texte none (some envoi.messageId) citation) r.opened) :
    (SentOne conv texte s (send P now texte citation envoi s) ∧
      ∀ r ∈ recipients, GainsOne r.conv texte r.opened (receive P r.now r.m r.s)) ↔
    (estAnnonceInterne texte = false ∧ (echeance now c.ttlSecondes).isSome ∧
      ∀ r ∈ recipients, estControle texte = false ∧ estSync texte = false ∧ Lisible r) := by
  have hsend : send P now texte citation envoi s =
      inscrire P now conv c texte none citation envoi s := by
    simp only [send, sendPayload, hactive, hc, hready, Bool.not_true, Bool.false_eq_true, if_false]
  have hreceive : ∀ r ∈ recipients, GainsOne r.conv texte r.opened (receive P r.now r.m r.s) ↔
      estControle texte = false ∧ estSync texte = false ∧ estAnnonceInterne texte = false ∧
        Lisible r := by
    intro r hr
    have hopen := hopens r hr
    obtain ⟨c', hc', -⟩ := hopen.readIn.messages
    rw [hopen.receive_eq, dispatch_gainsOne_iff hc' (decodePayload_composed hjson)]
    have hlisible : Lisible r ↔ (r.inner.senderUsername.asString?).isSome ∧
        (echeance r.now c'.ttlSecondes).isSome := by
      refine ⟨fun h => ⟨h.username, h.date c' hc'⟩, fun h => ⟨h.1, fun c'' hc'' => ?_⟩⟩
      obtain rfl := Option.some.inj (hc'.symm.trans hc'')
      exact h.2
    rw [hlisible]
  rw [hsend, inscrire_sentOne_iff hc]
  constructor
  · intro ⟨⟨hannonce, hdate⟩, hall⟩
    refine ⟨hannonce, hdate, fun r hr => ?_⟩
    obtain ⟨hcontrole, hsync, -, hlisible⟩ := (hreceive r hr).mp (hall r hr)
    exact ⟨hcontrole, hsync, hlisible⟩
  · intro ⟨hannonce, hdate, hall⟩
    refine ⟨⟨hannonce, hdate⟩, fun r hr => (hreceive r hr).mpr ?_⟩
    obtain ⟨hcontrole, hsync, hlisible⟩ := hall r hr
    exact ⟨hcontrole, hsync, hannonce, hlisible⟩

/-! ## Two texts -/

/-- A field whose text needs no escape. -/
def champSimple (field : Text × Json) : Text :=
  text "\"" ++ field.1 ++ text "\":\"" ++ field.2.asString.getD [] ++ text "\""

/-- The encoders, on objects of such fields and on ASCII. -/
def encodeursSimples : Encodeurs where
  jsonEncode
    | .obj fields =>
        text "\x7b" ++ (text ",").intercalate (fields.map champSimple) ++ text "\x7d"
    | _ => []
  utf8Encode t := t.map fun c => c.toUInt8

def envoiSimple : IssueEnvoi := ⟨text "m-1", 1, [text "r-1"]⟩

def composed (texte : Text) : Bytes :=
  encodePayload encodeursSimples texte none (some envoiSimple.messageId) none

def composedScript (texte : Text) : Script where
  json := [((composed texte).map fun b => b.toUInt16,
    .obj (payloadJson texte none (some envoiSimple.messageId) none))]
  base64 := [(text "Ag==", [2]), (text "YQ==", [97])]
  opened := [([97], composed texte)]

/-- Bob, with the conversation on his screen. -/
def bobComposes : State Unit :=
  { (loggedIn (text "u-bob") (text "bob")).putConv (text "bob")
      { Conversation.new (text "bob") (text "moi") 0 with
        sessions := LinkedMap.empty.insert (text "me-1") 7 } with
    activeConversationId := some (text "bob") }

/-- The text arrives. -/
def composedArrives (texte : Text) : Reception Unit where
  now := 0
  m := fromBob (text "YQ==")
  s := talkOfBob
  inner := fromBob (text "YQ==")
  conv := text "bob"
  sender := text "bob-1"
  opened := (resolveConversation (scripted (composedScript texte)) 0 (fromBob (text "YQ=="))
    talkOfBob).elim talkOfBob Prod.snd

theorem bonjour_gainsOne :
    SentOne (text "bob") (text "bonjour") bobComposes (send (scripted
        (composedScript (text "bonjour"))) 0 (text "bonjour") none envoiSimple bobComposes) ∧
      ∀ r ∈ [composedArrives (text "bonjour")], GainsOne r.conv (text "bonjour") r.opened
        (receive (scripted (composedScript (text "bonjour"))) r.now r.m r.s) := by
  refine (composedText_gainsOne_iff (C := encodeursSimples) rfl rfl rfl rfl fun r hr => ?_).mpr
    ⟨by decide +kernel, rfl, fun r hr => ?_⟩
  · obtain rfl := List.mem_singleton.mp hr
    exact ⟨rfl, talkOfBob, _, rfl, rfl, rfl⟩
  · obtain rfl := List.mem_singleton.mp hr
    refine ⟨by decide +kernel, by decide +kernel, rfl, fun c hc => ?_⟩
    obtain rfl := Option.some.inj hc
    rfl

/-- What Bob types is the name of a group: his own thread has nothing, and ours is a group of
that name. -/
theorem annonceComposee_lost :
    (send (scripted (composedScript (text "__zia_groupe__:amis"))) 0 (text "__zia_groupe__:amis")
        none envoiSimple bobComposes).messagesIn (text "bob") = [] ∧
      ((receive (scripted (composedScript (text "__zia_groupe__:amis"))) 0
        (fromBob (text "YQ==")) talkOfBob).1.conv? (text "bob")).map (fun c =>
          (c.messages.length, c.isGroup, c.peerUsername)) = some (0, true, text "amis") ∧
      ¬ (SentOne (text "bob") (text "__zia_groupe__:amis") bobComposes (send (scripted
          (composedScript (text "__zia_groupe__:amis"))) 0 (text "__zia_groupe__:amis") none
          envoiSimple bobComposes) ∧
        ∀ r ∈ [composedArrives (text "__zia_groupe__:amis")],
          GainsOne r.conv (text "__zia_groupe__:amis") r.opened (receive (scripted
            (composedScript (text "__zia_groupe__:amis"))) r.now r.m r.s)) := by
  refine ⟨by decide +kernel, by decide +kernel, fun h => not_sentOne ?_ h.1⟩
  decide +kernel

end ZiaCrypte.Inbox

import ZiaCrypte.Inbox.LosslessRecords

/-!
# Every message and every conversation reads back, in every run

From a device that has nothing, whatever its user and the network do and however often it is
started anew, each message reads back as it is, to the millisecond and without the mark of a
failed sending. Each conversation does so exactly when its disappearing time is not below
zero; and it is not, as long as neither the user nor a control sets one that is.
-/
namespace ZiaCrypte.Inbox

open ZiaCrypte.Lib ZiaCrypte.Engine

variable {E : Type} {p : Prop} {now : Int} {s : State E}

/-! ## Operations on the client -/

namespace State.Sain

theorem avis (h : s.Sain p) (conv : Text) (texte : Conversation → Text) (hnow : EstDate now) :
    (s.avis conv now texte).Sain p :=
  h.changer conv fun c _ hc => hc.thread (hc.concat { valide_new (texte c) false hnow with })

/-- The threads of a list are changed one after the other. -/
theorem parcourir (h : s.Sain p) {f : List ChatMessage → List ChatMessage}
    (hf : ∀ ms, (∀ m ∈ ms, m.Valide) → ∀ m ∈ f ms, m.Valide) : (s.parcourir f).Sain p := by
  unfold State.parcourir
  generalize s.conversations.keys = convs
  induction convs generalizing s with
  | nil => exact h
  | cons conv convs ih =>
    rw [List.foldl_cons]
    refine ih ?_
    split
    · exact h
    · rename_i c hc
      have hsain := h.convs conv c hc
      split
      · exact h
      · exact (h.putConv conv (hsain.thread (hf _ hsain.messages))).saveHistory conv

theorem surMessage (h : s.Sain p) (conv : Text) (i : Nat) {f : ChatMessage → Option ChatMessage}
    (hf : ∀ m m', m.Valide → f m = some m' → m'.Valide) : (s.surMessage conv i f).Sain p := by
  unfold State.surMessage
  split
  · rename_i active c _ hc
    have hsain := h.convs conv c hc
    split
    · exact h
    · rename_i m hm
      obtain ⟨m₀, hm₀, hfm⟩ := Option.bind_eq_some_iff.mp hm
      have hvalide := hf m₀ m (hsain.messages m₀ (List.mem_of_getElem? hm₀)) hfm
      refine (h.putConv conv (hsain.thread fun m' hm' => ?_)).saveHistory active
      rcases List.mem_or_eq_of_mem_set hm' with hold | rfl
      · exact hsain.messages m' hold
      · exact hvalide
  · exact h

theorem definirTtl (h : s.Sain p) (hnow : EstDate now) {secondes : Int} (hn : p → 0 ≤ secondes)
    (conv : Text) : (s.definirTtl now secondes conv).Sain p := by
  unfold State.definirTtl
  split
  · exact h
  · rename_i c hc
    split
    · exact h
    · exact (h.putConv conv ((h.convs conv c hc).annonce hnow hn true)).saveHistory conv

theorem editMessage (h : s.Sain p) (hnow : EstDate now) (conv : Text) (i : Nat) (texte : Text) :
    (s.editMessage now conv i texte).Sain p := by
  refine h.surMessage conv i fun m m' hm heq => ?_
  dsimp only at heq
  split at heq
  · cases heq
  · obtain rfl := Option.some.inj heq
    exact { hm with
      editedAt := by
        rintro u ⟨⟩
        exact hnow }

theorem deleteForEveryone (h : s.Sain p) (conv : Text) (i : Nat) :
    (s.deleteForEveryone conv i).Sain p := by
  refine h.surMessage conv i fun m m' hm heq => ?_
  split at heq
  · cases heq
  · obtain rfl := Option.some.inj heq
    exact { hm with }

theorem reagir (h : s.Sain p) (conv : Text) (i : Nat) (emoji : Text) :
    (s.reagir conv i emoji).Sain p := by
  unfold State.reagir
  split
  · exact h
  split
  · exact h
  · refine h.surMessage conv i fun m m' hm heq => ?_
    split at heq
    · cases heq
    · obtain rfl := Option.some.inj heq
      exact hm.reagir _ _ _

theorem renvoyer (h : s.Sain p) (conv : Text) (i : Nat) : (s.renvoyer conv i).Sain p := by
  unfold State.renvoyer
  split
  · exact h
  · rename_i c hc
    have hsain := h.convs conv c hc
    split
    · refine State.Sain.congr (h.putConv conv (hsain.thread fun m hm => ?_)) rfl rfl
      exact hsain.messages m (List.mem_of_mem_eraseIdx hm)
    · exact h

theorem publierDansCanal (h : s.Sain p) (hnow : EstDate now) (texte : Text) :
    (s.publierDansCanal now texte).Sain p := by
  unfold State.publierDansCanal
  split
  · exact h
  · rename_i conv _
    split
    · exact h
    · exact (h.changer conv fun c _ hc => hc.activity hnow (valide_new _ _ hnow)).saveHistory conv

theorem openConversation (h : s.Sain p) (conv : Text) : (s.openConversation conv).Sain p := by
  unfold State.openConversation
  split
  · exact h
  · rename_i c hc
    dsimp only
    split
    · exact h.congr rfl rfl
    · refine State.Sain.putConv ?_ conv ?_
      · exact h.congr rfl rfl
      · exact { h.convs conv c hc with }

/-- A conversation is put in memory and on the screen. -/
theorem putActive (h : s.Sain p) (conv : Text) {c : Conversation} (hc : c.Sain p) :
    State.Sain p { s.putConv conv c with activeConversationId := some conv } :=
  (h.putConv conv hc).congr rfl rfl

theorem startChatWith (h : s.Sain p) (hnow : EstDate now) (convId peer peerUserId : Text) :
    (s.startChatWith now convId peer peerUserId).Sain p := by
  have hc := h.getD convId ((sain_new (p := p) convId peer hnow).thread (h.hist convId))
  exact h.putActive convId { hc with }

theorem createGroup (h : s.Sain p) (hnow : EstDate now) (convId name : Text)
    (memberIds : List Text) : (s.createGroup now convId name memberIds).Sain p := by
  have hc := h.getD convId (c := { Conversation.new convId name now with
    isGroup := true
    memberUserIds := ensemble memberIds })
    { sain_new (p := p) convId name hnow with members := nodup_ensemble memberIds }
  exact h.putActive convId { hc with members := nodup_foldl_addToSet hc.members memberIds }

theorem refreshGroupMembers (h : s.Sain p) (conv : Text) (membres : List Text) :
    (s.refreshGroupMembers conv membres).Sain p := by
  refine h.changer conv fun c _ hc => ?_
  split
  · exact { hc with members := nodup_ensemble membres }
  · exact hc

theorem nouveauCanal (h : s.Sain p) (hnow : EstDate now) (id nom : Text)
    {messages : List ChatMessage} (hm : ∀ m ∈ messages, m.Valide) :
    (s.nouveauCanal now id nom messages).Sain p :=
  h.putActive id { (sain_new (p := p) id nom hnow).thread hm with }

theorem retirer (h : s.Sain p) (conv : Text) : (s.retirer conv).Sain p where
  entries e he := h.entries e (mem_entries_erase he)
  hist := h.hist

end State.Sain

/-! ## The device -/

variable (p) in
/-- Its client, its records and its vault hold nothing that does not read back. -/
structure Appareil.Sain (a : Appareil E) : Prop where
  client : a.client.Sain p
  fiches : ∀ conv, (a.fiche conv).ownDeviceIds.Nodup
  convs : ∀ t ∈ a.convs, ∃ l : List (Conversation × Fiche),
    t = jsonEncode (.arr (l.map fun e => .obj (e.1.toJson e.2))) ∧ ∀ e ∈ l, e.1.Valide e.2

variable (p) in
/-- What is read from the vault at a start. -/
structure Charges (lus : LinkedMap Text Conversation × LinkedMap Text Fiche) : Prop where
  convs : ∀ e ∈ lus.1.entries, e.2.Sain p
  fiches : ∀ conv, ((lus.2.get? conv).getD .new).ownDeviceIds.Nodup

theorem Conversation.Sain.valide {c : Conversation} (h : c.Sain p) {f : Fiche}
    (hf : f.ownDeviceIds.Nodup) : c.Valide f where
  lastActivity := h.lastActivity
  members := h.members
  devices := h.devices
  own := hf

/-- What was read back, with a history. -/
theorem sain_relue {c : Conversation} {f : Fiche} (h : c.Valide f) {messages : List ChatMessage}
    (hm : ∀ m ∈ messages, m.Valide) :
    ({ c.relue with messages := messages } : Conversation).Sain p where
  lastActivity := h.lastActivity.saved
  members := h.members
  devices := h.devices
  ttl _ := by
    show 0 ≤ if 0 < c.ttlSecondes then c.ttlSecondes else 0
    split <;> omega
  messages := hm

/-- A record is put under a conversation. -/
theorem nodup_insert {fiches : LinkedMap Text Fiche}
    (h : ∀ conv, ((fiches.get? conv).getD .new).ownDeviceIds.Nodup) (conv : Text) {f : Fiche}
    (hf : f.ownDeviceIds.Nodup) (conv' : Text) :
    (((fiches.insert conv f).get? conv').getD .new).ownDeviceIds.Nodup := by
  rw [LinkedMap.get?_insert]
  split
  · exact hf
  · exact h conv'

namespace Appareil.Sain

variable {a : Appareil E}

theorem surClient (h : a.Sain p) {f : State E → State E} (hf : (f a.client).Sain p) :
    (a.surClient f).Sain p := { h with client := hf }

theorem surFiche (h : a.Sain p) (conv : Text) {f : Conversation → Fiche → Fiche}
    (hf : ∀ c, (f c (a.fiche conv)).ownDeviceIds.Nodup) : (a.surFiche conv f).Sain p := by
  unfold Appareil.surFiche
  split
  · exact h
  · rename_i c _
    exact { h with fiches := nodup_insert h.fiches conv (hf c) }

theorem saveConversations (h : a.Sain p) : a.saveConversations.Sain p where
  client := h.client.congr rfl rfl
  fiches := h.fiches
  convs := by
    rintro t ⟨⟩
    refine ⟨a.ordonnees, rfl, fun e he => ?_⟩
    obtain ⟨e', he', rfl⟩ := List.mem_map.mp ((List.perm_insertionSort _ _).mem_iff.mp he)
    exact (h.client.entries e' he').valide (h.fiches e'.1)

/-- The records that are read from the vault. -/
theorem charger (hs : ∀ conv, ∀ m ∈ s.readHistory conv, m.Valide)
    {l : List (Conversation × Fiche)} (hl : ∀ e ∈ l, e.1.Valide e.2)
    {acc : LinkedMap Text Conversation × LinkedMap Text Fiche} (hacc : Charges p acc) :
    Charges p (Appareil.charger s (l.map fun e => .obj (e.1.toJson e.2)) acc) := by
  induction l generalizing acc with
  | nil => exact hacc
  | cons e l ih =>
    have he := hl e List.mem_cons_self
    have hread : (Json.obj (e.1.toJson e.2)).asMap.bind Conversation.fromJson =
        some (e.1.relue, e.2) := conversation_fromJson_toJson he
    rw [List.map_cons, Appareil.charger, hread]
    refine ih (fun e' he' => hl e' (List.mem_cons_of_mem _ he')) ⟨fun e' he' => ?_,
      nodup_insert hacc.fiches _ he.own⟩
    rcases LinkedMap.mem_entries_insert he' with rfl | hold
    · exact sain_relue he (hs _)
    · exact hacc.convs e' hold

theorem redemarrer (h : a.Sain p) (relance : E → E) (double : Text → Option Int) :
    (a.redemarrer relance double).Sain p := by
  have hempty : Charges p (.empty, .empty) :=
    ⟨fun e he => absurd he List.not_mem_nil, fun _ => List.nodup_nil⟩
  have hload : Charges p
      (Appareil.loadConversations double (Inbox.redemarrer relance a.client) a.convs) := by
    unfold Appareil.loadConversations
    cases hconvs : a.convs with
    | none => exact hempty
    | some t =>
      obtain ⟨l, rfl, hl⟩ := h.convs t hconvs
      have hregulier : (Json.arr (l.map fun e => .obj (e.1.toJson e.2))).Regulier :=
        elementsReguliers_map fun e _ => regulier_conversation e.1 e.2
      rw [Option.bind_some, jsonDecode_jsonEncode hregulier]
      exact charger (s := Inbox.redemarrer relance a.client) h.client.hist hl hempty
  exact {
    client := { entries := hload.convs, hist := h.client.hist }
    fiches := hload.fiches
    convs := h.convs }

theorem creerCanal (h : a.Sain p) (hnow : EstDate now) (id nom adminDevice : Text)
    (secret : Bytes) : (a.creerCanal now id nom adminDevice secret).Sain p := by
  unfold Appareil.creerCanal
  split
  · exact h
  · exact { h with
      client := h.client.nouveauCanal hnow _ _ fun _ hm => absurd hm List.not_mem_nil
      fiches := nodup_insert h.fiches id List.nodup_nil }

theorem rejoindreCanalParLien (h : a.Sain p) (hnow : EstDate now) (id nom adminDevice : Text) :
    (a.rejoindreCanalParLien now id nom adminDevice).Sain p := by
  unfold Appareil.rejoindreCanalParLien
  split
  · exact h.surClient (h.client.congr rfl rfl)
  · exact { h with
      client := h.client.nouveauCanal hnow _ _ (h.client.hist id)
      fiches := nodup_insert h.fiches id List.nodup_nil }

theorem quitterCanal (h : a.Sain p) (conv : Text) : (a.quitterCanal conv).Sain p := by
  unfold Appareil.quitterCanal
  split
  · refine { h with client := h.client.retirer conv, fiches := fun conv' => ?_ }
    show (((a.fiches.erase conv).get? conv').getD .new).ownDeviceIds.Nodup
    rw [LinkedMap.get?_erase]
    split
    · exact List.nodup_nil
    · exact h.fiches conv'
  · exact h

theorem publier (h : a.Sain p) (hnow : EstDate now) (texte : Text) :
    (a.publier now texte).Sain p := by
  unfold Appareil.publier
  split
  · exact h.surClient (h.client.publierDansCanal hnow texte)
  · exact h

theorem appareilVu (h : a.Sain p) (conv device : Text) (leMien : Bool) :
    (a.appareilVu conv device leMien).Sain p := by
  have hfiche := h.surFiche conv (f := fun _ f =>
      if leMien then { f with ownDeviceIds := addToSet f.ownDeviceIds device } else f) (by
    intro c
    split
    · exact nodup_addToSet (h.fiches conv) device
    · exact h.fiches conv)
  exact hfiche.surClient (hfiche.client.changer conv fun c _ hc =>
    { hc with devices := nodup_addToSet hc.devices device })

end Appareil.Sain

/-! ## Runs -/

/-- The disappearing time that an operation sets: the user's, or that of the control a poll
takes next. -/
def ttlFixe (P : Platform E) : Operation E → Appareil E → Option Int
  | .tour i now, a =>
      match a.poste.releves[i]? with
      | some (.boucle (m :: _) _) => ttlRecu P now m a.client
      | _ => none
  | .definirTtl _ _ secondes, _ => some secondes
  | _, _ => none

/-- It is not below zero. -/
def Reglee (P : Platform E) (op : Operation E) (a : Appareil E) : Prop :=
  ∀ n ∈ ttlFixe P op a, 0 ≤ n

instance (P : Platform E) (op : Operation E) (a : Appareil E) : Decidable (Reglee P op a) :=
  inferInstanceAs (Decidable (∀ n ∈ ttlFixe P op a, 0 ≤ n))

/-- Every message of a thread reads back, its times in milliseconds. -/
def MessagesRelus (double : Text → Option Int) (a : Appareil E) : Prop :=
  ∀ conv, ∀ m ∈ a.client.messagesIn conv,
    ∃ m', m.relecture double = some m' ∧ m'.Egaux m.saved

/-- A conversation reads back, but for its sessions and its thread, which have entries of
their own. -/
def ConversationRelue (double : Text → Option Int) (a : Appareil E) (conv : Text)
    (c : Conversation) : Prop :=
  c.relecture double (a.fiche conv) = some (c.saved, a.fiche conv)

def ConversationsRelues (double : Text → Option Int) (a : Appareil E) : Prop :=
  ∀ conv c, a.client.conv? conv = some c → ConversationRelue double a conv c

variable {P : Platform E} {relance : E → E} {double : Text → Option Int}

theorem neuf_sain (userId username : Text) (outside : E) :
    (Appareil.neuf userId username outside).Sain p where
  client := ⟨fun _ he => absurd he List.not_mem_nil, fun _ _ hm => absurd hm List.not_mem_nil⟩
  fiches _ := List.nodup_nil
  convs _ ht := by cases ht

theorem step_sain {op : Operation E} {a a' : Appareil E} (h : a.Sain p)
    (hop : p → Reglee P op a) (hstep : Appareil.step P relance double op a = some a') :
    a'.Sain p := by
  cases op with
  | arrivee incoming =>
    obtain rfl := Option.some.inj hstep
    exact { h with }
  | tour i now =>
    obtain ⟨poste, hposte, rfl⟩ := Option.map_eq_some_iff.mp hstep
    refine { h with client := ?_ }
    rw [Poste.step] at hposte
    cases hreleve : a.poste.releves[i]? with
    | none =>
      rw [hreleve] at hposte
      cases hposte
    | some etape =>
      rw [hreleve] at hposte
      cases etape with
      | ecritures reste => cases hposte
      | boucle reste touched =>
        cases reste with
        | nil => cases hposte
        | cons m reste =>
          obtain rfl := Option.some.inj hposte
          have hreceive : (receive P now m a.client).1.Sain p := by
            refine receive_sain h.client now.2 fun hp => ?_
            have hregle := hop hp
            rw [Reglee, ttlFixe, hreleve] at hregle
            exact hregle
          show (afficher _ (receive P now m a.client).1).Sain p
          unfold afficher
          split
          · exact hreceive.congr rfl rfl
          · exact hreceive
  | ecrire i =>
    obtain ⟨poste, hposte, rfl⟩ := Option.map_eq_some_iff.mp hstep
    refine { h with client := ?_ }
    rw [Poste.step] at hposte
    split at hposte
    · obtain rfl := Option.some.inj hposte
      exact h.client
    · obtain rfl := Option.some.inj hposte
      exact faire_sain _ h.client
    · cases hposte
  | envoyer now texte attachment citation envoi =>
    obtain rfl := Option.some.inj hstep
    exact h.surClient (sendPayload_sain _ _ _ _ h.client now.2)
  | marquerLu conv =>
    obtain rfl := Option.some.inj hstep
    exact h.surClient (marquerLu_sain conv h.client)
  | definirTtl now conv secondes =>
    obtain rfl := Option.some.inj hstep
    exact h.surClient (h.client.definirTtl now.2 (fun hp => hop hp secondes rfl) conv)
  | balayerExpires now =>
    obtain rfl := Option.some.inj hstep
    exact h.surClient (h.client.parcourir fun ms hms m hm => hms m (List.mem_of_mem_filter hm))
  | checkDeliveries remis =>
    obtain rfl := Option.some.inj hstep
    refine h.surClient (h.client.parcourir fun ms => valide_map fun m hm => ?_)
    split
    · exact { hm with }
    · exact hm
  | editMessage now conv i texte =>
    obtain rfl := Option.some.inj hstep
    exact h.surClient (h.client.editMessage now.2 conv i texte)
  | deleteForEveryone conv i =>
    obtain rfl := Option.some.inj hstep
    exact h.surClient (h.client.deleteForEveryone conv i)
  | reagir conv i emoji =>
    obtain rfl := Option.some.inj hstep
    exact h.surClient (h.client.reagir conv i emoji)
  | renvoyer conv i =>
    obtain rfl := Option.some.inj hstep
    exact h.surClient (h.client.renvoyer conv i)
  | publierDansCanal now texte =>
    obtain rfl := Option.some.inj hstep
    exact h.publier now.2 texte
  | tracerFinAppel now conv texte =>
    obtain rfl := Option.some.inj hstep
    exact h.surClient ((h.client.avis conv _ now.2).saveHistory conv)
  | openConversation conv =>
    obtain rfl := Option.some.inj hstep
    exact h.surClient (h.client.openConversation conv)
  | closeConversation =>
    obtain rfl := Option.some.inj hstep
    exact h.surClient (h.client.congr rfl rfl)
  | basculerEpingle conv =>
    obtain rfl := Option.some.inj hstep
    exact h.surFiche conv fun _ => h.fiches conv
  | startChatWith now convId peer peerUserId =>
    obtain rfl := Option.some.inj hstep
    exact h.surClient (h.client.startChatWith now.2 convId peer peerUserId)
  | createGroup now convId name memberIds =>
    obtain rfl := Option.some.inj hstep
    exact h.surClient (h.client.createGroup now.2 convId name memberIds)
  | refreshGroupMembers conv membres =>
    obtain rfl := Option.some.inj hstep
    exact h.surClient (h.client.refreshGroupMembers conv membres)
  | creerCanal now id nom adminDevice secret =>
    obtain rfl := Option.some.inj hstep
    exact h.creerCanal now.2 id nom adminDevice secret
  | rejoindreCanalParLien now id nom adminDevice =>
    obtain rfl := Option.some.inj hstep
    exact h.rejoindreCanalParLien now.2 id nom adminDevice
  | renouvelerCleCanal conv secret =>
    obtain rfl := Option.some.inj hstep
    refine h.surFiche conv fun c => ?_
    split
    · exact h.fiches conv
    · exact h.fiches conv
  | quitterCanal conv =>
    obtain rfl := Option.some.inj hstep
    exact h.quitterCanal conv
  | appareilVu conv device leMien =>
    obtain rfl := Option.some.inj hstep
    exact h.appareilVu conv device leMien
  | appareilRefuse conv device =>
    obtain rfl := Option.some.inj hstep
    exact h.surClient (h.client.changer conv fun c _ hc =>
      { hc with devices := hc.devices.filter _ })
  | annoncerAppareil now conv leMien =>
    obtain rfl := Option.some.inj hstep
    exact h.surClient ((h.client.avis conv _ now.2).saveHistory conv)
  | sessionOuverte conv device session =>
    obtain rfl := Option.some.inj hstep
    exact h.surClient (h.client.changer conv fun c _ hc => { hc with })
  | restoreSessions conv =>
    obtain rfl := Option.some.inj hstep
    exact h.surClient (restoreSessions_sain conv h.client)
  | saveSessions conv =>
    obtain rfl := Option.some.inj hstep
    exact h.surClient (saveSessions_sain conv h.client)
  | saveHistory conv =>
    obtain rfl := Option.some.inj hstep
    exact h.surClient (h.client.saveHistory conv)
  | saveConversations =>
    obtain rfl := Option.some.inj hstep
    exact h.saveConversations
  | moteur outside =>
    obtain rfl := Option.some.inj hstep
    exact h.surClient (h.client.outside outside)
  | redemarrer =>
    obtain rfl := Option.some.inj hstep
    exact h.redemarrer relance double

theorem Appareil.Sain.messagesRelus {a : Appareil E} (h : a.Sain p) : MessagesRelus double a := by
  intro conv m hm
  have hvalide := h.client.thread conv m hm
  exact ⟨m.relu, chatMessage_relecture hvalide, relu_egaux hvalide⟩

/-- And so does the history that is written of a thread. -/
theorem Appareil.Sain.historique_relu {a : Appareil E} (h : a.Sain p) (conv : Text) :
    List.Forall₂ ChatMessage.Egaux
      (lireHistorique double (historique (a.client.messagesIn conv)))
      ((a.client.messagesIn conv).map ChatMessage.saved) :=
  lireHistorique_historique (h.client.thread conv)

theorem Appareil.Sain.conversationRelue_iff {a : Appareil E} (h : a.Sain p) {conv : Text}
    {c : Conversation} (hc : a.client.conv? conv = some c) :
    ConversationRelue double a conv c ↔ 0 ≤ c.ttlSecondes :=
  relecture_eq_saved_iff ((h.client.convs conv c hc).valide (h.fiches conv))

/-- In every run each message reads back, and each conversation does exactly when its
disappearing time is not below zero; so all do, where none is set that is. -/
theorem records_relus (P : Platform E) (relance : E → E) (double : Text → Option Int)
    (userId username : Text) (outside : E) (ops : List (Operation E)) (a : Appareil E)
    (h : run (Appareil.step P relance double) ops (.neuf userId username outside) = some a) :
    MessagesRelus double a ∧
      (∀ conv c, a.client.conv? conv = some c →
        (ConversationRelue double a conv c ↔ 0 ≤ c.ttlSecondes)) ∧
      (Always (Appareil.step P relance double) (Reglee P) ops (.neuf userId username outside) →
        ConversationsRelues double a) := by
  have hsain : a.Sain False := run_invariant
    (fun op _ _ hb hstep => step_sain hb False.elim hstep) (neuf_sain _ _ _) h
  refine ⟨hsain.messagesRelus, fun conv c hc => hsain.conversationRelue_iff hc,
    fun hregle conv c hc => ?_⟩
  have hpositif : a.Sain True := run_invariant_of_always (Appareil.Sain True)
    (fun op _ _ hb hC hstep => step_sain hb (fun _ => hC) hstep) (neuf_sain _ _ _) hregle h
  exact (hsain.conversationRelue_iff hc).mpr ((hpositif.client.convs conv c hc).ttl trivial)

/-! ## A time that a control sets -/

/-- The control, as it is sent. -/
def reglerTtl (secondes : String) : Bytes :=
  ascii "\x7b\"t\":\"__zia_ttl__:\x7b\\\"s\\\":" ++ ascii secondes ++ ascii "\x7d\"\x7d"

/-- It is what the engine opens. -/
def plateformeTtl (secondes : String) : Platform Unit :=
  { scripted {
      json := []
      base64 := [(text "Ag==", [2]), (text "AQ==", [1])]
      opened := [([1], reglerTtl secondes)] } with
    jsonDecode := jsonDecode fun _ => none }

/-- One poll that takes it. -/
def receptionTtl : List (Operation Unit) := [.arrivee [fromBob (text "AQ==")], .tour 0 ⟨1, rfl⟩]

def recevoirTtl (secondes : String) : Option (Appareil Unit) :=
  run (Appareil.step (plateformeTtl secondes) id fun _ => none) receptionTtl
    (.neuf (text "me") (text "moi") ())

theorem uneHeure_relue : ∃ a, recevoirTtl "3600" = some a ∧
    ((a.client.conv? (text "bob")).map (·.ttlSecondes)) = some 3600 ∧
    MessagesRelus (fun _ => none) a ∧ ConversationsRelues (fun _ => none) a := by
  have hrun : (recevoirTtl "3600").bind (fun a =>
      (a.client.conv? (text "bob")).map (·.ttlSecondes)) = some 3600 := by decide +kernel
  obtain ⟨a, ha, httl⟩ := Option.bind_eq_some_iff.mp hrun
  have hrelus := records_relus (plateformeTtl "3600") id (fun _ => none) (text "me") (text "moi") ()
    receptionTtl a ha
  have hregle : Always (Appareil.step (plateformeTtl "3600") id fun _ => none)
      (Reglee (plateformeTtl "3600")) receptionTtl (.neuf (text "me") (text "moi") ()) := by
    decide +kernel
  exact ⟨a, ha, httl, hrelus.1, hrelus.2.2 hregle⟩

/-- A time below zero is taken as it is, and read back as none. -/
theorem cinqSousZero_perdu : ¬ ∀ (ops : List (Operation Unit)) (a : Appareil Unit),
    run (Appareil.step (plateformeTtl "-5") id fun _ => none) ops
      (.neuf (text "me") (text "moi") ()) = some a →
    MessagesRelus (fun _ => none) a ∧ ConversationsRelues (fun _ => none) a := by
  intro hall
  have hrun : (recevoirTtl "-5").bind (fun a =>
      (a.client.conv? (text "bob")).map fun c =>
        (c.ttlSecondes, (c.relecture (fun _ => none) (a.fiche (text "bob"))).map
          (·.1.ttlSecondes))) = some (-5, some 0) := by decide +kernel
  obtain ⟨a, ha, hread⟩ := Option.bind_eq_some_iff.mp hrun
  obtain ⟨c, hc, hpair⟩ := Option.map_eq_some_iff.mp hread
  have hrelue := (hall receptionTtl a ha).2 (text "bob") c hc
  rw [hrelue] at hpair
  obtain ⟨hset, hback⟩ := Prod.mk.inj hpair
  rw [Option.map_some, show c.saved.ttlSecondes = c.ttlSecondes from rfl, hset] at hback
  cases hback

end ZiaCrypte.Inbox

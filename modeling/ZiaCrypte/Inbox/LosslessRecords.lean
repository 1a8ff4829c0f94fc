import ZiaCrypte.Inbox.Operations
import ZiaCrypte.Inbox.EngineViews
import ZiaCrypte.Inbox.SealedTransport

/-!
# Every message and every conversation reads back

Whatever the client does, a message has dates and sets of reactions, and a conversation a
date and sets of members and of devices; so what the vault holds of them is all of them. A
disappearing time is as it was set, by the user or by a control, of which no bound is asked.
-/
namespace ZiaCrypte.Inbox

open ZiaCrypte.Lib ZiaCrypte.Engine ZiaCrypte.Chat

variable {E : Type} (p : Prop)

/-! ## What reads back -/

/-- A conversation of which all reads back; its disappearing time does where `p`. -/
structure Conversation.Sain (c : Conversation) : Prop where
  lastActivity : EstDate c.lastActivity
  members : c.memberUserIds.Nodup
  devices : c.targetDeviceIds.Nodup
  ttl : p → 0 ≤ c.ttlSecondes
  messages : ∀ m ∈ c.messages, m.Valide

structure State.Sain (s : State E) : Prop where
  entries : ∀ e ∈ s.conversations.entries, e.2.Sain p
  hist : ∀ conv, ∀ m ∈ s.readHistory conv, m.Valide

variable {p} {now : Int}

/-! ## Dates -/

theorem estDate_iff {t : Int} : EstDate t ↔ t.natAbs ≤ maxMicroseconds.natAbs := by
  unfold EstDate dateTime
  constructor
  · intro h
    split at h
    · assumption
    · cases h
  · exact fun h => if_pos h

theorem estDate_of_dateTime {t u : Int} (h : dateTime t = some u) : EstDate u := by
  unfold dateTime at h
  split at h
  · rename_i hrange
    obtain rfl := Option.some.inj h
    exact estDate_iff.mpr hrange
  · cases h

/-- A date in milliseconds is one. -/
theorem EstDate.saved {t : Int} (h : EstDate t) : EstDate (millisecondsSinceEpoch t * 1000) :=
  estDate_of_dateTime (fromMilliseconds_sentAt h)

theorem echeance_date {ttlSecondes : Int} {t : Option Int} (h : echeance now ttlSecondes = some t) :
    ∀ u ∈ t, EstDate u := by
  unfold echeance at h
  split at h
  · obtain ⟨v, hv, rfl⟩ := Option.map_eq_some_iff.mp h
    rintro u ⟨⟩
    exact estDate_of_dateTime hv
  · obtain rfl := Option.some.inj h
    rintro u ⟨⟩

/-! ## Messages -/

theorem valide_new (t : Text) (mine : Bool) (h : EstDate now) :
    (ChatMessage.new t mine now).Valide where
  sentAt := h
  editedAt _ ht := by cases ht
  expiresAt _ ht := by cases ht
  emojis := List.nodup_nil
  comptes _ he := absurd he List.not_mem_nil

theorem ChatMessage.Valide.saved {m : ChatMessage} (h : m.Valide) : m.saved.Valide where
  sentAt := h.sentAt.saved
  editedAt t ht := by
    obtain ⟨u, hu, rfl⟩ := Option.map_eq_some_iff.mp ht
    exact (h.editedAt u hu).saved
  expiresAt t ht := by
    obtain ⟨u, hu, rfl⟩ := Option.map_eq_some_iff.mp ht
    exact (h.expiresAt u hu).saved
  emojis := h.emojis
  comptes := h.comptes

theorem nodup_addToSet {l : List Text} (h : l.Nodup) (t : Text) : (addToSet l t).Nodup := by
  unfold addToSet
  split
  · exact h
  · rename_i hnew
    exact h.append (List.nodup_singleton t) (List.disjoint_singleton.mpr hnew)

theorem nodup_foldl_addToSet {l : List Text} (h : l.Nodup) (ts : List Text) :
    (ts.foldl addToSet l).Nodup := by
  induction ts generalizing l with
  | nil => exact h
  | cons t ts ih => exact ih (nodup_addToSet h t)

theorem nodup_ensemble (l : List Text) : (ensemble l).Nodup := nodup_foldl_addToSet List.nodup_nil l

/-- A set that was put under an emoji, or one that was there. -/
theorem mem_entries_erase {κ ν : Type} [DecidableEq κ] {m : LinkedMap κ ν} {k : κ} {e : κ × ν}
    (h : e ∈ (m.erase k).entries) : e ∈ m.entries := by
  unfold LinkedMap.erase at h
  split at h
  · exact List.mem_of_mem_filter h
  · exact h

theorem ChatMessage.Valide.reagir {m : ChatMessage} (h : m.Valide) (emoji qui : Text)
    (pose : Bool) : (reagir emoji qui pose m).Valide := by
  have hset : ((m.reactions.get? emoji).getD []).Nodup := by
    cases hget : m.reactions.get? emoji with
    | none => exact List.nodup_nil
    | some set => exact h.comptes _ (LinkedMap.mem_entries_of_get? hget)
  have hinsert : ∀ set : List Text, set.Nodup →
      ∀ e ∈ (m.reactions.insert emoji set).entries, e.2.Nodup := by
    intro set hnodup e he
    rcases LinkedMap.mem_entries_insert he with rfl | hold
    · exact hnodup
    · exact h.comptes e hold
  unfold Inbox.reagir
  dsimp only
  split
  · exact { h with
      emojis := LinkedMap.nodup_keys_insert h.emojis _ _
      comptes := hinsert _ (nodup_addToSet hset qui) }
  · split
    · exact { h with
        emojis := LinkedMap.nodup_keys_erase h.emojis _
        comptes := fun e he => h.comptes e (mem_entries_erase he) }
    · exact { h with
        emojis := LinkedMap.nodup_keys_insert h.emojis _ _
        comptes := hinsert _ (hset.filter _) }

/-! ## Conversations -/

namespace Conversation.Sain

variable {c : Conversation}

/-- A conversation with another thread. -/
theorem thread (h : c.Sain p) {messages : List ChatMessage} (hm : ∀ m ∈ messages, m.Valide) :
    ({ c with messages := messages } : Conversation).Sain p := { h with messages := hm }

theorem append (h : c.Sain p) {l : List ChatMessage} (hl : ∀ m ∈ l, m.Valide) :
    ∀ m ∈ c.messages ++ l, m.Valide := by
  intro m hm
  rcases List.mem_append.mp hm with hm | hm
  · exact h.messages m hm
  · exact hl m hm

theorem concat (h : c.Sain p) {m : ChatMessage} (hm : m.Valide) :
    ∀ m' ∈ c.messages ++ [m], m'.Valide :=
  h.append fun _ hm' => List.mem_singleton.mp hm' ▸ hm

/-- `lastActivity` and the thread, after a message. -/
theorem activity (h : c.Sain p) (hnow : EstDate now) {m : ChatMessage} (hm : m.Valide) :
    ({ c with messages := c.messages ++ [m], lastActivity := now } : Conversation).Sain p :=
  { h with
    lastActivity := hnow
    messages := h.concat hm }

end Conversation.Sain

theorem sain_new (id peerUsername : Text) (h : EstDate now) :
    (Conversation.new id peerUsername now).Sain p where
  lastActivity := h
  members := List.nodup_nil
  devices := List.nodup_nil
  ttl _ := Int.le_refl 0
  messages _ hm := absurd hm List.not_mem_nil

/-! ## The client -/

namespace State.Sain

variable {s s' : State E}

theorem convs (h : s.Sain p) (conv : Text) (c : Conversation) (hc : s.conv? conv = some c) :
    c.Sain p :=
  h.entries _ (LinkedMap.mem_entries_of_get? hc)

/-- What the conversations and the histories are decides. -/
theorem congr (h : s.Sain p) (hconvs : s'.conversations = s.conversations)
    (hhist : s'.coffre.hist = s.coffre.hist) : s'.Sain p where
  entries := by
    rw [hconvs]
    exact h.entries
  hist conv := by
    rw [State.readHistory, hhist]
    exact h.hist conv

theorem putConv (h : s.Sain p) (conv : Text) {c : Conversation} (hc : c.Sain p) :
    (s.putConv conv c).Sain p where
  entries e he := by
    rcases LinkedMap.mem_entries_insert he with rfl | hold
    · exact hc
    · exact h.entries e hold
  hist := h.hist

theorem saveHistory (h : s.Sain p) (conv : Text) : (s.saveHistory conv).Sain p where
  entries := by
    unfold State.saveHistory
    split <;> exact h.entries
  hist conv' := by
    unfold State.saveHistory
    split
    · exact h.hist conv'
    · rename_i c hc
      unfold State.readHistory
      dsimp only
      rw [LinkedMap.get?_insert]
      split
      · intro m hm
        obtain ⟨m', hm', rfl⟩ := List.mem_map.mp hm
        exact ((h.convs conv c hc).messages m' hm').saved
      · exact h.hist conv'

theorem thread (h : s.Sain p) (conv : Text) : ∀ m ∈ s.messagesIn conv, m.Valide := by
  unfold State.messagesIn
  cases hc : s.conv? conv with
  | none => exact fun _ hm => absurd hm List.not_mem_nil
  | some c => exact (h.convs conv c hc).messages

/-- A conversation that is in memory, or a new one. -/
theorem getD (h : s.Sain p) (conv : Text) {c : Conversation} (hc : c.Sain p) :
    ((s.conv? conv).getD c).Sain p := by
  cases hconv : s.conv? conv with
  | none => exact hc
  | some c' => exact h.convs conv c' hconv

theorem changer (h : s.Sain p) (conv : Text) {f : Conversation → Conversation}
    (hf : ∀ c, s.conv? conv = some c → c.Sain p → (f c).Sain p) : (s.changer conv f).Sain p := by
  unfold State.changer
  split
  · exact h
  · rename_i c hc
    exact h.putConv conv (hf c hc (h.convs conv c hc))

/-- The engine may have moved. -/
theorem outside (h : s.Sain p) (e : E) : State.Sain p { s with outside := e } := h.congr rfl rfl

end State.Sain

/-! ## Opening a message -/

variable {P : Platform E} {s s' : State E} {m : Incoming} {conv sender : Text}

theorem restoreEach_sain (conv : Text) (devices : List Text) (h : s.Sain p) :
    (restoreEach P conv devices s).Sain p := by
  induction devices generalizing s with
  | nil => exact h
  | cons device devices ih =>
    rw [restoreEach]
    refine ih ?_
    split
    · exact h
    · rename_i c hc
      split
      · exact h
      split
      · exact h
      split
      · exact h
      · dsimp only
        split
        · exact h.outside _
        · exact (h.outside _).putConv conv { h.convs conv c hc with }

theorem restoreSessions_sain (conv : Text) (h : s.Sain p) : (restoreSessions P conv s).Sain p :=
  restoreEach_sain conv _ h

theorem resolveConversation_sain (h : s.Sain p) (hnow : EstDate now)
    (hresolve : resolveConversation P now m s = some (conv, s')) : s'.Sain p := by
  simp only [resolveConversation, Option.bind_eq_bind, Option.bind_eq_some_iff] at hresolve
  obtain ⟨convId, -, hresolve⟩ := hresolve
  cases hc : s.conv? convId with
  | some existing =>
    simp only [hc] at hresolve
    have hpeer : ∃ peerUserId, some (convId, restoreSessions P convId
        (s.putConv convId { existing with peerUserId := peerUserId })) = some (conv, s') := by
      split at hresolve
      · exact ⟨_, hresolve⟩
      · obtain ⟨peerUserId, -, hresolve⟩ := Option.bind_eq_some_iff.mp hresolve
        exact ⟨peerUserId, hresolve⟩
    obtain ⟨peerUserId, hpair⟩ := hpeer
    obtain ⟨rfl, rfl⟩ := Prod.mk.inj (Option.some.inj hpair)
    exact restoreSessions_sain _ (h.putConv _ { h.convs _ existing hc with })
  | none =>
    simp only [hc] at hresolve
    obtain ⟨senderUsername, -, hresolve⟩ := Option.bind_eq_some_iff.mp hresolve
    obtain ⟨senderUserId, -, hresolve⟩ := Option.bind_eq_some_iff.mp hresolve
    obtain ⟨device, -, hresolve⟩ := Option.bind_eq_some_iff.mp hresolve
    simp only [Option.pure_def, Option.some.injEq, Prod.mk.injEq] at hresolve
    obtain ⟨rfl, rfl⟩ := hresolve
    refine restoreSessions_sain _ (h.putConv _ ?_)
    exact {
      lastActivity := hnow
      members := List.nodup_nil
      devices := List.nodup_singleton device
      ttl := fun _ => Int.le_refl 0
      messages := h.hist convId }

theorem openGroup_sain (h : s.Sain p) : (openGroup P conv sender m s).state.Sain p := by
  unfold openGroup
  split
  · exact h
  · dsimp only
    split <;> exact h.outside _

theorem openWithSession_sain (header : Bytes) (h : s.Sain p) :
    (openWithSession P conv sender header m s).state.Sain p := by
  unfold openWithSession
  split
  · exact h
  split
  · exact h
  · dsimp only
    split <;> exact h.outside _

/-- A pin is no conversation. -/
theorem checkAndPin_same {senderUserId : Json} {identityKey : PublicKey}
    (h : checkAndPin sender senderUserId identityKey s = .accepted s' ∨
      checkAndPin sender senderUserId identityKey s = .changed s') :
    s'.conversations = s.conversations ∧ s'.coffre.hist = s.coffre.hist := by
  unfold checkAndPin at h
  split at h
  · rcases h with ⟨⟨⟩⟩ | ⟨⟨⟩⟩
  · rcases h with ⟨⟨⟩⟩ | ⟨⟨⟩⟩
    exact ⟨rfl, rfl⟩
  · split at h
    · rcases h with ⟨⟨⟩⟩ | ⟨⟨⟩⟩
      exact ⟨rfl, rfl⟩
    · split at h
      · rcases h with ⟨⟨⟩⟩ | ⟨⟨⟩⟩
        exact ⟨rfl, rfl⟩
      · rcases h with ⟨⟨⟩⟩ | ⟨⟨⟩⟩
        exact ⟨rfl, rfl⟩

theorem openPairwise_sain (unpacked : Envelope.Unpacked) (h : s.Sain p) :
    (openPairwise P conv sender unpacked m s).state.Sain p := by
  unfold openPairwise
  split
  · rename_i handshake c _ hc
    split
    · exact openWithSession_sain _ h
    · split
      · exact h
      · rename_i s' hpin
        obtain ⟨hconvs, hhist⟩ := checkAndPin_same (.inr hpin)
        exact h.congr hconvs hhist
      · rename_i s' hpin
        obtain ⟨hconvs, hhist⟩ := checkAndPin_same (.inl hpin)
        have hsain := h.congr hconvs hhist
        dsimp only
        split
        · exact hsain.outside _
        · have hc' := h.convs conv c hc
          exact openWithSession_sain _ ((hsain.outside _).putConv conv { hc' with
            devices := nodup_addToSet hc'.devices sender })
  · exact openWithSession_sain _ h

theorem openMessage_sain (h : s.Sain p) : (openMessage P conv m s).state.Sain p := by
  unfold openMessage
  split
  · exact h
  split
  · exact h
  split
  · exact openGroup_sain h
  split
  · exact h
  · exact openPairwise_sain _ h

theorem enveloppe_sain (h : s.Sain p) : (enveloppe P m s).1.Sain p := by
  unfold enveloppe ouvrirScelle
  split
  · split
    · exact h
    · dsimp only
      split <;> exact h.outside _
  · exact h

/-! ## Controls -/

/-- The disappearing time that a control sets. -/
def ttlPose (P : Platform E) (texte : Text) : Option Int :=
  if startsWith texte prefixeTtl then ttlLu P texte else none

theorem modifierPremier_valide {cible : Text} {f : ChatMessage → Option ChatMessage}
    (hf : ∀ m m', m.Valide → f m = some m' → m'.Valide) {ms ms' : List ChatMessage}
    (hms : ∀ m ∈ ms, m.Valide) (h : modifierPremier cible f ms = some ms') :
    ∀ m ∈ ms', m.Valide := by
  induction ms generalizing ms' with
  | nil => cases h
  | cons m ms ih =>
    have hhead := hms m List.mem_cons_self
    have htail : ∀ m' ∈ ms, m'.Valide := fun m' hm' => hms m' (List.mem_cons_of_mem _ hm')
    rw [modifierPremier] at h
    split at h
    · obtain ⟨m', hm', rfl⟩ := Option.map_eq_some_iff.mp h
      exact List.forall_mem_cons.mpr ⟨hf m m' hhead hm', htail⟩
    · obtain ⟨ms'', hms'', rfl⟩ := Option.map_eq_some_iff.mp h
      exact List.forall_mem_cons.mpr ⟨hhead, ih htail hms''⟩

theorem modifier_sain (h : s.Sain p) {cible : Text} {f : ChatMessage → Option ChatMessage}
    (hf : ∀ m m', m.Valide → f m = some m' → m'.Valide) : (s.modifier conv cible f).Sain p := by
  unfold State.modifier
  split
  · exact h
  · rename_i c hc
    have hsain := h.convs conv c hc
    split
    · exact h
    · rename_i messages hmodified
      exact (h.putConv conv (hsain.thread
        (modifierPremier_valide hf hsain.messages hmodified))).saveHistory conv

/-- A control that throws changes nothing. -/
theorem getD_sain {o : Option (State E)} (h : s.Sain p) (ho : ∀ s', o = some s' → s'.Sain p) :
    (o.getD s).Sain p := by
  cases o with
  | none => exact h
  | some s' => exact ho s' rfl

variable {texte : Text} {deMoi : Bool} {device : Text} {reacteur : Option Text}

theorem reaction_sain (h : s.Sain p) (hs : reaction P conv texte deMoi reacteur s = some s') :
    s'.Sain p := by
  simp only [reaction, Option.bind_eq_bind, Option.bind_eq_some_iff] at hs
  obtain ⟨json, -, cible, -, emoji, -, pose, -, hs⟩ := hs
  split at hs
  · obtain rfl := Option.some.inj hs
    refine modifier_sain h ?_
    rintro m m' hm ⟨⟩
    exact hm.reagir _ _ _
  · obtain rfl := Option.some.inj hs
    exact h

theorem cleGroupe_sain (h : s.Sain p) (hs : cleGroupe P conv texte device s = some s') :
    s'.Sain p := by
  simp only [cleGroupe, Option.bind_eq_bind, Option.bind_eq_some_iff] at hs
  obtain ⟨json, -, k, -, hs⟩ := hs
  split at hs <;> obtain rfl := Option.some.inj hs
  · exact h.outside _
  · exact h

theorem jeton_sain (h : s.Sain p) (hs : jeton P texte s = some s') : s'.Sain p := by
  simp only [jeton, Option.bind_eq_bind, Option.bind_eq_some_iff] at hs
  obtain ⟨json, -, appareil, -, jeton, -, hs⟩ := hs
  split at hs <;> obtain rfl := Option.some.inj hs
  · exact h.congr rfl rfl
  · exact h

theorem valide_annonceTtl (peerUsername : Text) (secondes : Int) (parMoi : Bool)
    (hnow : EstDate now) : (annonceTtl peerUsername secondes parMoi now).Valide :=
  { valide_new (annonceTtl peerUsername secondes parMoi now).text false hnow with }

/-- A conversation with another disappearing time, announced in its thread. -/
theorem Conversation.Sain.annonce {c : Conversation} (h : c.Sain p) (hnow : EstDate now)
    {secondes : Int} (hn : p → 0 ≤ secondes) (parMoi : Bool) :
    ({ c with
      ttlSecondes := secondes
      messages := c.messages ++ [annonceTtl c.peerUsername secondes parMoi now] } :
        Conversation).Sain p :=
  { h with
    ttl := hn
    messages := h.concat (valide_annonceTtl _ _ _ hnow) }

theorem ttl_sain (h : s.Sain p) (hnow : EstDate now) (hprefixe : startsWith texte prefixeTtl = true)
    (hn : p → ∀ n ∈ ttlPose P texte, 0 ≤ n) (hs : ttl P now conv texte deMoi s = some s') :
    s'.Sain p := by
  simp only [ttl, Option.bind_eq_bind, Option.bind_eq_some_iff] at hs
  obtain ⟨json, hjson, secondes, hsecondes, hs⟩ := hs
  have hlu : ttlPose P texte = some (secondes.getD 0) := by
    rw [ttlPose, if_pos hprefixe, ttlLu, hjson]
    show (do
      let secondes ← (field json "s").asInt?
      pure (secondes.getD 0)) = _
    rw [hsecondes]
    rfl
  split at hs
  · obtain rfl := Option.some.inj hs
    exact h
  · rename_i c hc
    split at hs
    · obtain rfl := Option.some.inj hs
      exact h
    · obtain rfl := Option.some.inj hs
      exact (h.putConv conv ((h.convs conv c hc).annonce hnow
        (fun hp => hn hp _ hlu) deMoi)).saveHistory conv

theorem statut_sain (h : s.Sain p) (hs : statut P conv texte deMoi s = some s') : s'.Sain p := by
  simp only [statut, Option.bind_eq_bind, Option.bind_eq_some_iff] at hs
  obtain ⟨json, -, valeur, -, hs⟩ := hs
  split at hs <;> obtain rfl := Option.some.inj hs
  · exact h
  · exact h.congr rfl rfl

theorem avatar_sain (h : s.Sain p) (hs : avatar P conv texte deMoi s = some s') : s'.Sain p := by
  simp only [avatar, Option.bind_eq_bind, Option.bind_eq_some_iff] at hs
  obtain ⟨json, -, ref, -, hs⟩ := hs
  split at hs <;> obtain rfl := Option.some.inj hs
  · exact h
  · exact h.congr rfl rfl

/-- A mark that is put on the messages of a thread. -/
theorem valide_map {f : ChatMessage → ChatMessage} (hf : ∀ m, m.Valide → (f m).Valide)
    {ms : List ChatMessage} (h : ∀ m ∈ ms, m.Valide) : ∀ m ∈ ms.map f, m.Valide := by
  intro m hm
  obtain ⟨m', hm', rfl⟩ := List.mem_map.mp hm
  exact hf m' (h m' hm')

theorem valide_marquerLus (ids : List Text) {ms : List ChatMessage} (h : ∀ m ∈ ms, m.Valide) :
    ∀ m ∈ marquerLus ids ms, m.Valide := by
  refine valide_map (fun m hm => ?_) h
  split
  · exact { hm with }
  · exact hm

theorem lu_sain (h : s.Sain p) (hs : lu P conv texte deMoi s = some s') : s'.Sain p := by
  unfold lu at hs
  split at hs
  · obtain rfl := Option.some.inj hs
    exact h
  · simp only [Option.bind_eq_bind, Option.bind_eq_some_iff] at hs
    obtain ⟨json, -, l, -, ids, -, hs⟩ := hs
    split at hs
    · obtain rfl := Option.some.inj hs
      exact h
    · rename_i c hc
      have hsain := h.convs conv c hc
      split at hs
      · obtain rfl := Option.some.inj hs
        exact h
      · obtain rfl := Option.some.inj hs
        exact (h.putConv conv (hsain.thread
          (valide_marquerLus ids hsain.messages))).saveHistory conv

theorem valide_editer (hnow : EstDate now) {estEdit : Bool} {t : Option (Option Text)}
    {m m' : ChatMessage} (hm : m.Valide) (h : editer now estEdit t m = some m') : m'.Valide := by
  unfold editer at h
  split at h
  · obtain ⟨t', -, rfl⟩ := Option.map_eq_some_iff.mp h
    exact { hm with
      editedAt := by
        rintro u ⟨⟩
        exact hnow }
  · obtain rfl := Option.some.inj h
    exact { hm with }

theorem editerOuSupprimer_sain (h : s.Sain p) (hnow : EstDate now)
    (hs : editerOuSupprimer P now conv texte deMoi s = some s') : s'.Sain p := by
  simp only [editerOuSupprimer, Option.bind_eq_bind, Option.bind_eq_some_iff] at hs
  obtain ⟨json, -, cible, -, hs⟩ := hs
  split at hs <;> obtain rfl := Option.some.inj hs
  · exact h
  · refine modifier_sain h ?_
    intro m m' hm heq
    split at heq
    · cases heq
    · exact valide_editer hnow hm heq

theorem appliquerControle_sain (h : s.Sain p) (hnow : EstDate now)
    (hn : p → ∀ n ∈ ttlPose P texte, 0 ≤ n) :
    (appliquerControle P now conv texte deMoi device reacteur s).Sain p := by
  unfold appliquerControle
  dsimp only
  refine getD_sain h fun s' hs => ?_
  split at hs
  · exact reaction_sain h hs
  split at hs
  · exact cleGroupe_sain h hs
  split at hs
  · exact jeton_sain h hs
  split at hs
  · rename_i hprefixe
    exact ttl_sain h hnow hprefixe hn hs
  split at hs
  · exact statut_sain h hs
  split at hs
  · exact avatar_sain h hs
  split at hs
  · exact lu_sain h hs
  · exact editerOuSupprimer_sain h hnow hs

/-! ## Batches of history -/

theorem forall_mem_mapM {α β : Type} {f : α → Option β} {Q : β → Prop}
    (hf : ∀ a b, f a = some b → Q b) {l : List α} {l' : List β} (h : l.mapM f = some l') :
    ∀ b ∈ l', Q b := by
  induction l generalizing l' with
  | nil =>
    obtain rfl := Option.some.inj h
    exact fun _ hb => absurd hb List.not_mem_nil
  | cons a l ih =>
    simp only [List.mapM_cons, Option.bind_eq_bind, Option.bind_eq_some_iff, Option.pure_def] at h
    obtain ⟨b, hb, bs, hbs, heq⟩ := h
    obtain rfl := Option.some.inj heq
    exact List.forall_mem_cons.mpr ⟨hf a b hb, ih hbs⟩

theorem syncMessage_valide {presents : List Int} {j : Json} {o : Option ChatMessage}
    (h : syncMessage presents j = some o) : ∀ m ∈ o, m.Valide := by
  simp only [syncMessage, Option.bind_eq_bind, Option.bind_eq_some_iff] at h
  obtain ⟨e, -, ms, -, h⟩ := h
  split at h
  · obtain rfl := Option.some.inj h
    rintro m ⟨⟩
  · simp only [Option.bind_eq_some_iff] at h
    obtain ⟨t, -, mine, -, at', hat, h⟩ := h
    have hmessage : ∃ attachment, some { ChatMessage.new t mine at' with
        attachment := attachment } = o := by
      split at h
      · exact ⟨none, Option.some.inj h⟩
      · simp only [Option.bind_eq_some_iff] at h
        obtain ⟨json, -, ref, -, attachment, -, heq⟩ := h
        exact ⟨attachment, Option.some.inj heq⟩
    obtain ⟨attachment, rfl⟩ := hmessage
    rintro m ⟨⟩
    exact { valide_new t mine (estDate_of_dateTime hat) with }

theorem syncEntrants_valide {data : List (Text × Json)} {ms entrants : List ChatMessage}
    (h : syncEntrants data ms = some entrants) : ∀ m ∈ entrants, m.Valide := by
  simp only [syncEntrants, Option.bind_eq_bind, Option.bind_eq_some_iff] at h
  obtain ⟨msgs, -, lus, hlus, heq⟩ := h
  obtain rfl := Option.some.inj heq
  intro m hm
  exact forall_mem_mapM (fun _ _ => syncMessage_valide) hlus _
    (List.reduceOption_mem_iff.mp hm) m rfl

theorem nodup_addMembers {members : List Text} (h : members.Nodup) (js : List Json) :
    (addMembers members js).1.Nodup := by
  induction js generalizing members with
  | nil => exact h
  | cons j js ih =>
    rw [addMembers]
    split
    · exact ih (nodup_addToSet h _)
    · exact h

theorem valide_trier {ms : List ChatMessage} (h : ∀ m ∈ ms, m.Valide) :
    ∀ m ∈ trier ms, m.Valide :=
  fun m hm => h m ((List.perm_insertionSort _ ms).mem_iff.mp hm)

theorem applySyncPayload_sain (json : Text) (h : s.Sain p) (hnow : EstDate now) :
    (applySyncPayload P now json s).Sain p := by
  unfold applySyncPayload
  split
  · exact h
  rename_i data _
  split
  · exact h
  rename_i convId _
  split
  · exact h
  rename_i peer _
  dsimp only
  have hc := h.getD convId (sain_new (p := p) convId (peer.getD (text "inconnu")) hnow)
  generalize (s.conv? convId).getD (.new convId (peer.getD (text "inconnu")) now) = c at hc ⊢
  have hname := h.putConv convId (c := { c with peerUsername := peer.getD c.peerUsername })
    { hc with }
  split
  · exact hname
  rename_i peerUserId _
  have hpeer := hname.putConv convId (c := { c with
    peerUsername := peer.getD c.peerUsername
    peerUserId := peerUserId
    isGroup := c.isGroup || (field data "group").isTrue }) { hc with }
  split
  · exact hpeer
  rename_i members _
  have hmembers : ({ c with
      peerUsername := peer.getD c.peerUsername
      peerUserId := peerUserId
      isGroup := c.isGroup || (field data "group").isTrue
      memberUserIds := (addMembers c.memberUserIds (members.getD [])).1 } : Conversation).Sain p :=
    { hc with members := nodup_addMembers hc.members _ }
  have hput := hpeer.putConv convId hmembers
  split
  · exact hput
  split
  · exact hput
  · exact hput
  · rename_i entrants _ hentrants
    have hthread := hput.putConv convId (hmembers.thread (valide_trier (hmembers.append
      (syncEntrants_valide hentrants))))
    exact (hthread.saveHistory convId).congr rfl rfl

/-! ## One message -/

theorem valide_received {c : Conversation} {payload : Payload} {fromMyself : Bool}
    {senderUsername : Option Text} {m : ChatMessage} (hnow : EstDate now)
    (h : receivedMessage now c payload fromMyself senderUsername = some m) : m.Valide := by
  simp only [receivedMessage, Option.bind_eq_bind, Option.bind_eq_some_iff] at h
  obtain ⟨expiresAt, hdate, heq⟩ := h
  obtain rfl := Option.some.inj heq
  exact { valide_new payload.text fromMyself hnow with expiresAt := echeance_date hdate }

theorem addReceived_sain (payload : Payload) (fromMyself : Bool) (senderUsername : Option Text)
    (h : s.Sain p) (hnow : EstDate now) :
    (addReceived now conv payload fromMyself senderUsername s).1.Sain p := by
  unfold addReceived
  split
  · exact h
  · rename_i c hc
    split
    · exact h
    · rename_i message hmessage
      exact h.putConv conv
        { (h.convs conv c hc).activity hnow (valide_received hnow hmessage) with }

theorem dispatch_sain (plain : Bytes) (h : s.Sain p) (hnow : EstDate now)
    (hn : p → ∀ n ∈ ttlPose P (decodePayload P plain).text, 0 ≤ n) :
    (dispatch P now conv sender plain m s).1.Sain p := by
  unfold dispatch
  split
  · exact h
  dsimp only
  split
  · split
    · exact h
    · exact appliquerControle_sain h hnow hn
  split
  · exact applySyncPayload_sain _ h hnow
  split
  · split
    · exact h
    · rename_i c hc
      exact h.putConv conv { h.convs conv c hc with }
  · exact addReceived_sain _ _ _ h hnow

theorem recevoirCanal_sain (h : s.Sain p) (hnow : EstDate now) :
    (recevoirCanal P now m s).1.Sain p := by
  unfold recevoirCanal
  split
  · exact h
  rename_i canalId _
  split
  · exact h
  rename_i c hc
  split
  · exact h
  split
  · exact h
  · exact h
  rename_i sender _
  have hopen : (openGroup P canalId sender m s).state.Sain p := openGroup_sain h
  split
  · rename_i hskip
    rw [hskip] at hopen
    exact hopen
  · rename_i hthrow
    rw [hthrow] at hopen
    exact hopen
  · rename_i s' _ plain hclair
    rw [hclair] at hopen
    dsimp only
    split
    · exact hopen
    split
    · exact hopen
    · rename_i sentAt hsentAt
      have hdate : EstDate sentAt := by
        split at hsentAt
        · exact estDate_of_dateTime hsentAt
        · obtain ⟨ms, -, hms⟩ := Option.bind_eq_some_iff.mp hsentAt
          exact estDate_of_dateTime hms
      have hmessage : ({ ChatMessage.new (decodePayload P plain).text false sentAt with
          attachment := (decodePayload P plain).attachment } : ChatMessage).Valide :=
        { valide_new (decodePayload P plain).text false hdate with }
      refine State.Sain.saveHistory (hopen.putConv canalId ?_) canalId
      exact { (h.convs canalId c hc).activity hnow hmessage with }

/-- The disappearing time that a message sets, if it is a control that sets one. -/
def ttlRecu (P : Platform E) (now : Int) (m : Incoming) (s : State E) : Option Int :=
  (lecture P now m s).bind fun l => ttlPose P (decodePayload P l.plain).text

theorem receive_sain (h : s.Sain p) (hnow : EstDate now)
    (hn : p → ∀ n ∈ ttlRecu P now m s, 0 ≤ n) : (receive P now m s).1.Sain p := by
  have henv := enveloppe_sain (P := P) (m := m) h
  rw [receive_enveloppe]
  rcases henveloppe : enveloppe P m s with ⟨s₀, _ | m'⟩
  · rw [henveloppe] at henv
    exact henv
  · rw [henveloppe] at henv
    dsimp only
    unfold receiveOpen
    by_cases hchannel : m'.channelId.isNull = true
    · rw [hchannel, if_neg (by decide)]
      rcases hresolve : resolveConversation P now m' s₀ with _ | ⟨conv, s₁⟩
      · exact henv
      · have hopen : (openMessage P conv m' s₁).state.Sain p :=
          openMessage_sain (resolveConversation_sain henv hnow hresolve)
        dsimp only
        cases hclair : openMessage P conv m' s₁ with
        | skipped s₂ =>
          rw [hclair] at hopen
          exact hopen
        | thrown s₂ =>
          rw [hclair] at hopen
          exact hopen
        | clair s₂ sender plain =>
          rw [hclair] at hopen
          have hlecture : lecture P now m s =
              some ⟨conv, sender, chiffreDeGroupe P m', plain⟩ := by
            simp only [lecture, henveloppe, hchannel, if_true, hresolve, hclair]
          refine dispatch_sain plain hopen hnow fun hp n hlu => hn hp n ?_
          rw [ttlRecu, hlecture]
          exact hlu
    · rw [Bool.not_eq_true] at hchannel
      rw [hchannel, if_pos (by decide)]
      exact recevoirCanal_sain henv hnow

/-! ## Writes and sendings -/

theorem saveSessions_sain (conv : Text) (h : s.Sain p) : (saveSessions P conv s).Sain p := by
  obtain ⟨outside, error, sess, hframe⟩ := saveEach_frame (P := P) conv
    (((s.conv? conv).map (·.sessions.entries)).getD []) s
  rw [saveSessions, hframe]
  exact h.congr rfl rfl

theorem marquerLu_sain (conv : Text) (h : s.Sain p) : (marquerLu P conv s).Sain p := by
  unfold marquerLu
  split
  · exact h
  split
  · exact h
  · rename_i c hc
    have hsain := h.convs conv c hc
    dsimp only
    split
    · exact h
    · refine State.Sain.congr (h.putConv conv (hsain.thread (valide_map (fun m hm => ?_)
        hsain.messages))) rfl rfl
      split
      · exact { hm with }
      · exact hm

theorem faire_sain (e : Ecriture) (h : s.Sain p) : (e.faire P s).Sain p := by
  cases e with
  | historique conv => exact h.saveHistory conv
  | sessions conv => exact saveSessions_sain conv h
  | lu conv =>
    show (if s.activeConversationId = some conv then marquerLu P conv s else s).Sain p
    split
    · exact marquerLu_sain conv h
    · exact h
  | conversations => exact h.congr rfl rfl

theorem valide_sent {c : Conversation} {texte : Text} {attachment : Option AttachmentRef}
    {citation : Option ChatMessage} {envoi : IssueEnvoi} {m : ChatMessage} (hnow : EstDate now)
    (h : sentMessage now c texte attachment citation envoi = some m) : m.Valide := by
  simp only [sentMessage, Option.bind_eq_bind, Option.bind_eq_some_iff] at h
  obtain ⟨expiresAt, hdate, heq⟩ := h
  obtain rfl := Option.some.inj heq
  exact { valide_new texte true hnow with expiresAt := echeance_date hdate }

theorem sendPayload_sain (texte : Text) (attachment : Option AttachmentRef)
    (citation : Option ChatMessage) (envoi : IssueEnvoi) (h : s.Sain p) (hnow : EstDate now) :
    (sendPayload P now texte attachment citation envoi s).Sain p := by
  unfold sendPayload
  split
  · exact h
  rename_i conv _
  split
  · exact h
  rename_i c hc
  split
  · exact h
  unfold inscrire
  split
  · exact h
  split
  · exact h.congr rfl rfl
  · rename_i message hmessage
    have hput := h.putConv conv ((h.convs conv c hc).activity hnow (valide_sent hnow hmessage))
    dsimp only
    split
    · exact hput.congr rfl rfl
    · exact (saveSessions_sain conv (hput.saveHistory conv)).congr rfl rfl

end ZiaCrypte.Inbox

import ZiaCrypte.Inbox.Batches

/-!
# What reading a message leaves of the sessions

The contents of a message change threads, tables and pins, and write histories and
the list of conversations; no session, in memory or in the vault, and no
conversation goes away.
-/
namespace ZiaCrypte.Inbox

open ZiaCrypte.Lib ZiaCrypte.Engine ZiaCrypte.Chat

variable {E : Type} (P : Platform E) (now : Int)

/-- Every conversation keeps its sessions and its devices, and the vault the sessions
that are stored. -/
structure KeepsSessions (s s' : State E) : Prop where
  conv : ∀ id c, s.conv? id = some c → ∃ c', s'.conv? id = some c' ∧
    c'.sessions = c.sessions ∧ c'.targetDeviceIds = c.targetDeviceIds
  sess : s'.coffre.sess = s.coffre.sess

/-- The engine is as it was, or was given the sender key of a device. -/
def SameEngine (e e' : E) : Prop :=
  e' = e ∨ ∃ conv device distribution, e' = P.senderKeyProcess conv device distribution e

namespace KeepsSessions

variable {s s' s'' : State E}

theorem of_same (hconversations : s'.conversations = s.conversations)
    (hsess : s'.coffre.sess = s.coffre.sess) : KeepsSessions s s' := by
  refine ⟨fun id c hc => ⟨c, ?_, rfl, rfl⟩, hsess⟩
  rw [State.conv?, hconversations]
  exact hc

theorem refl (s : State E) : KeepsSessions s s := of_same rfl rfl

theorem trans (h : KeepsSessions s s') (h' : KeepsSessions s' s'') : KeepsSessions s s'' := by
  refine ⟨fun id c hc => ?_, h'.sess.trans h.sess⟩
  obtain ⟨c', hc', hsessions, htargets⟩ := h.conv id c hc
  obtain ⟨c'', hc'', hsessions', htargets'⟩ := h'.conv id c' hc'
  exact ⟨c'', hc'', hsessions'.trans hsessions, htargets'.trans htargets⟩

/-- A record is put in the place of one with the same sessions and devices. -/
theorem putConv {id : Text} {c c' : Conversation} (hc : s.conv? id = some c)
    (hsessions : c'.sessions = c.sessions) (htargets : c'.targetDeviceIds = c.targetDeviceIds) :
    KeepsSessions s (s.putConv id c') := by
  refine ⟨fun id' c₀ hc₀ => ?_, rfl⟩
  rw [conv?_putConv]
  by_cases hid : id' = id
  · subst hid
    obtain rfl := Option.some.inj (hc.symm.trans hc₀)
    exact ⟨c', if_pos rfl, hsessions, htargets⟩
  · exact ⟨c₀, by rw [if_neg hid, hc₀], rfl, rfl⟩

theorem saveHistory (s : State E) (id : Text) : KeepsSessions s (s.saveHistory id) := by
  refine ⟨fun id' c hc => ⟨c, ?_, rfl, rfl⟩, ?_⟩
  · rw [conv?_saveHistory, hc]
  · unfold State.saveHistory
    split <;> rfl

/-- The conversations that were in memory are still there. -/
theorem known (h : KeepsSessions s s') {id : Text} (hc : (s.conv? id).isSome) :
    (s'.conv? id).isSome := by
  obtain ⟨c, hc⟩ := Option.isSome_iff_exists.mp hc
  obtain ⟨c', hc', -⟩ := h.conv id c hc
  rw [hc']
  rfl

end KeepsSessions

@[simp] theorem outside_saveHistory (s : State E) (id : Text) :
    (s.saveHistory id).outside = s.outside := by
  unfold State.saveHistory
  split <;> rfl

/-! ## Controls -/

section Controls

variable {conv texte : Text} {deMoi : Bool} {device : Text} {reacteur : Option Text}
  {s after : State E}

/-- What is said of a control. -/
def Reads (s after : State E) : Prop := KeepsSessions s after ∧ SameEngine P s.outside after.outside

/-- Sessions and engine are as they were. -/
structure Untouched (s after : State E) : Prop where
  keeps : KeepsSessions s after
  outside : after.outside = s.outside

theorem Untouched.refl (s : State E) : Untouched s s := ⟨.refl s, rfl⟩

theorem Untouched.reads (h : Untouched s after) : Reads P s after := ⟨h.keeps, .inl h.outside⟩

/-- A thread is written. -/
theorem untouched_putConv {c : Conversation} (hc : s.conv? conv = some c)
    (messages : List ChatMessage) (ttl : Int) :
    Untouched s ((s.putConv conv { c with messages := messages, ttlSecondes := ttl }).saveHistory
      conv) := by
  refine ⟨(KeepsSessions.putConv hc ?_ ?_).trans (.saveHistory _ conv), ?_⟩
  · rfl
  · rfl
  · rw [outside_saveHistory]
    rfl

theorem modifier_untouched (cible : Text) (f : ChatMessage → Option ChatMessage) :
    Untouched s (s.modifier conv cible f) := by
  unfold State.modifier
  split
  · exact .refl s
  · rename_i c hc
    split
    · exact .refl s
    · exact untouched_putConv hc _ c.ttlSecondes

theorem reaction_untouched (h : reaction P conv texte deMoi reacteur s = some after) :
    Untouched s after := by
  simp only [reaction, Option.bind_eq_bind, Option.bind_eq_some_iff] at h
  obtain ⟨json, -, cible, -, emoji, -, pose, -, h⟩ := h
  split at h <;> cases h
  · exact modifier_untouched _ _
  · exact .refl s

/-- The engine is given the key of a control that holds one. -/
theorem cleGroupe_outside (h : cleGroupe P conv texte device s = some after) :
    Untouched s after ∨ ∃ json k distribution,
      decodeCharge P texte prefixeCleGroupe = some json ∧
        (field json "k").asString? = some (some k) ∧ P.base64Decode k = some distribution ∧
          after = { s with outside := P.senderKeyProcess conv device distribution s.outside } := by
  simp only [cleGroupe, Option.bind_eq_bind, Option.bind_eq_some_iff] at h
  obtain ⟨json, hjson, k, hk, h⟩ := h
  split at h <;> cases h
  · rename_i distribution hdistribution
    obtain ⟨k, rfl, hdecode⟩ := Option.bind_eq_some_iff.mp hdistribution
    exact .inr ⟨json, k, distribution, hjson, hk, hdecode, rfl⟩
  · exact .inl (.refl s)

theorem jeton_untouched (h : jeton P texte s = some after) : Untouched s after := by
  simp only [jeton, Option.bind_eq_bind, Option.bind_eq_some_iff] at h
  obtain ⟨json, -, appareil, -, jeton, -, h⟩ := h
  split at h <;> cases h
  · exact ⟨.of_same rfl rfl, rfl⟩
  · exact .refl s

theorem ttl_untouched (h : ttl P now conv texte deMoi s = some after) : Untouched s after := by
  simp only [ttl, Option.bind_eq_bind, Option.bind_eq_some_iff] at h
  obtain ⟨json, -, secondes, -, h⟩ := h
  split at h
  · cases h
    exact .refl s
  · rename_i c hc
    split at h <;> cases h
    · exact .refl s
    · exact untouched_putConv hc _ _

theorem statut_untouched (h : statut P conv texte deMoi s = some after) : Untouched s after := by
  simp only [statut, Option.bind_eq_bind, Option.bind_eq_some_iff] at h
  obtain ⟨json, -, t, -, h⟩ := h
  split at h <;> cases h
  · exact .refl s
  · exact ⟨.of_same rfl rfl, rfl⟩

theorem avatar_untouched (h : avatar P conv texte deMoi s = some after) : Untouched s after := by
  simp only [avatar, Option.bind_eq_bind, Option.bind_eq_some_iff] at h
  obtain ⟨json, -, ref, -, h⟩ := h
  split at h <;> cases h
  · exact .refl s
  · exact ⟨.of_same rfl rfl, rfl⟩

theorem lu_untouched (h : lu P conv texte deMoi s = some after) : Untouched s after := by
  unfold lu at h
  split at h
  · cases h
    exact .refl s
  · simp only [Option.bind_eq_bind, Option.bind_eq_some_iff] at h
    obtain ⟨json, -, ids?, -, ids, -, h⟩ := h
    split at h
    · cases h
      exact .refl s
    · rename_i c hc
      split at h <;> cases h
      · exact .refl s
      · exact untouched_putConv hc _ c.ttlSecondes

theorem editerOuSupprimer_untouched (h : editerOuSupprimer P now conv texte deMoi s = some after) :
    Untouched s after := by
  simp only [editerOuSupprimer, Option.bind_eq_bind, Option.bind_eq_some_iff] at h
  obtain ⟨json, -, cible, -, h⟩ := h
  split at h <;> cases h
  · exact .refl s
  · exact modifier_untouched _ _

/-- A control leaves the engine alone, or is the distribution of a key. -/
theorem appliquerControle_outside :
    Untouched s (appliquerControle P now conv texte deMoi device reacteur s) ∨
      ∃ json k distribution, startsWith texte prefixeCleGroupe = true ∧
        decodeCharge P texte prefixeCleGroupe = some json ∧
          (field json "k").asString? = some (some k) ∧ P.base64Decode k = some distribution ∧
            appliquerControle P now conv texte deMoi device reacteur s =
              { s with outside := P.senderKeyProcess conv device distribution s.outside } := by
  have hgetD : ∀ done : Option (State E), (∀ after, done = some after → Untouched s after) →
      Untouched s (done.getD s) := fun done h => by
    cases done with
    | none => exact .refl s
    | some after => exact h after rfl
  unfold appliquerControle
  dsimp only
  split
  · exact .inl (hgetD _ fun after h => reaction_untouched P h)
  split
  · rename_i hprefixe
    cases hdone : cleGroupe P conv texte device s with
    | none => exact .inl (.refl s)
    | some after =>
      obtain hsame | ⟨json, k, distribution, hjson, hk, hdecode, rfl⟩ :=
        cleGroupe_outside P hdone
      · exact .inl hsame
      · exact .inr ⟨json, k, distribution, hprefixe, hjson, hk, hdecode, rfl⟩
  split
  · exact .inl (hgetD _ fun after h => jeton_untouched P h)
  split
  · exact .inl (hgetD _ fun after h => ttl_untouched P now h)
  split
  · exact .inl (hgetD _ fun after h => statut_untouched P h)
  split
  · exact .inl (hgetD _ fun after h => avatar_untouched P h)
  split
  · exact .inl (hgetD _ fun after h => lu_untouched P h)
  · exact .inl (hgetD _ fun after h => editerOuSupprimer_untouched P now h)

theorem appliquerControle_reads :
    Reads P s (appliquerControle P now conv texte deMoi device reacteur s) := by
  obtain hsame | ⟨json, k, distribution, -, -, -, -, heq⟩ :=
    @appliquerControle_outside _ P now conv texte deMoi device reacteur s
  · exact hsame.reads P
  · rw [heq]
    exact ⟨.of_same rfl rfl, .inr ⟨conv, device, distribution, rfl⟩⟩

end Controls

/-! ## A batch of history -/

variable {conv sender : Text} {s : State E}

/-- A record was put under `id`, with the sessions and the devices of `c₀`. -/
structure PutLike (s : State E) (id : Text) (c₀ : Conversation) (s' : State E) : Prop where
  keeps : KeepsSessions s s'
  outside : s'.outside = s.outside
  record : ∀ c, s'.conv? id = some c →
    c.sessions = c₀.sessions ∧ c.targetDeviceIds = c₀.targetDeviceIds

namespace PutLike

variable {id : Text} {c₀ : Conversation} {s' : State E}

theorem putConv {c : Conversation} (h : PutLike s id c₀ s') (hsessions : c.sessions = c₀.sessions)
    (htargets : c.targetDeviceIds = c₀.targetDeviceIds) : PutLike s id c₀ (s'.putConv id c) := by
  refine ⟨?_, h.outside, fun c' hc' => ?_⟩
  · cases hc : s'.conv? id with
    | none =>
      refine ⟨fun id' c₁ hid => ?_, h.keeps.sess⟩
      obtain ⟨c₂, hc₂, hrest⟩ := h.keeps.conv id' c₁ hid
      have hne : id' ≠ id := by
        rintro rfl
        cases hc.symm.trans hc₂
      exact ⟨c₂, by rw [conv?_putConv, if_neg hne, hc₂], hrest⟩
    | some c₁ =>
      obtain ⟨hs, ht⟩ := h.record c₁ hc
      exact h.keeps.trans (.putConv hc (hsessions.trans hs.symm) (htargets.trans ht.symm))
  · rw [conv?_putConv, if_pos rfl] at hc'
    obtain rfl := Option.some.inj hc'
    exact ⟨hsessions, htargets⟩

theorem untouched (h : PutLike s id c₀ s') : Untouched s s' := ⟨h.keeps, h.outside⟩

theorem saved (h : PutLike s id c₀ s') : Untouched s (s'.saveHistory id).saveConversations := by
  refine ⟨(h.keeps.trans (.saveHistory s' id)).trans (.of_same rfl rfl), ?_⟩
  show (s'.saveHistory id).outside = s.outside
  rw [outside_saveHistory, h.outside]

end PutLike

/-- A batch puts back the record it found, or a new one, with its own sessions. -/
theorem applySyncPayload_untouched (json : Text) :
    Untouched s (applySyncPayload P now json s) := by
  unfold applySyncPayload
  split
  · exact .refl s
  split
  · exact .refl s
  rename_i convId _
  split
  · exact .refl s
  rename_i peer _
  dsimp only
  have hstart : PutLike s convId
      ((s.conv? convId).getD (.new convId (peer.getD (text "inconnu")) now)) s := by
    refine ⟨.refl s, rfl, fun c hc => ?_⟩
    rw [hc]
    exact ⟨rfl, rfl⟩
  generalize (s.conv? convId).getD (.new convId (peer.getD (text "inconnu")) now) = c at hstart ⊢
  split
  · exact PutLike.untouched (.putConv hstart rfl rfl)
  split
  · exact PutLike.untouched (.putConv (.putConv hstart rfl rfl) rfl rfl)
  split
  · exact PutLike.untouched (.putConv (.putConv (.putConv hstart rfl rfl) rfl rfl) rfl rfl)
  split
  · exact PutLike.untouched (.putConv (.putConv (.putConv hstart rfl rfl) rfl rfl) rfl rfl)
  · exact PutLike.untouched (.putConv (.putConv (.putConv hstart rfl rfl) rfl rfl) rfl rfl)
  · exact PutLike.saved (.putConv (.putConv (.putConv (.putConv hstart rfl rfl) rfl rfl) rfl rfl) rfl rfl)

/-! ## The whole contents -/

theorem addReceived_untouched (payload : Payload) (fromMyself : Bool)
    (senderUsername : Option Text) :
    Untouched s (addReceived now conv payload fromMyself senderUsername s).1 := by
  unfold addReceived
  split
  · exact .refl s
  · rename_i c hc
    split
    · exact .refl s
    · exact ⟨.putConv hc rfl rfl, rfl⟩

/-- The key that the contents of a message distribute. -/
def distributionLue (plain : Bytes) : Option Bytes :=
  let texte := (decodePayload P plain).text
  if startsWith texte prefixeCleGroupe then do
    let json ← decodeCharge P texte prefixeCleGroupe
    let k ← (field json "k").asString?
    k.bind P.base64Decode
  else none

/-- The contents of a message leave the engine alone, or distribute the key of its sender. -/
theorem dispatch_outside (plain : Bytes) (m : Incoming) :
    Untouched s (dispatch P now conv sender plain m s).1 ∨
      ∃ distribution, distributionLue P plain = some distribution ∧
        (dispatch P now conv sender plain m s).1 =
          { s with outside := P.senderKeyProcess conv sender distribution s.outside } := by
  unfold dispatch
  split
  · exact .inl (.refl s)
  dsimp only
  split
  · split
    · exact .inl (.refl s)
    · obtain hsame | ⟨json, k, distribution, hprefixe, hjson, hk, hdecode, heq⟩ :=
        @appliquerControle_outside _ P now conv (decodePayload P plain).text _ sender _ s
      · exact .inl hsame
      · refine .inr ⟨distribution, ?_, heq⟩
        simp only [distributionLue, hprefixe, if_true, hjson, hk, Option.bind_eq_bind,
          Option.bind_some, hdecode]
  split
  · exact .inl (applySyncPayload_untouched P now _)
  split
  · split
    · exact .inl (.refl s)
    · rename_i c hc
      exact .inl ⟨.putConv hc rfl rfl, rfl⟩
  · exact .inl (addReceived_untouched now _ _ _)

theorem dispatch_reads (plain : Bytes) (m : Incoming) :
    Reads P s (dispatch P now conv sender plain m s).1 := by
  obtain hsame | ⟨distribution, -, heq⟩ := dispatch_outside (s := s) P now plain m
  · exact hsame.reads P
  · rw [heq]
    exact ⟨.of_same rfl rfl, .inr ⟨conv, sender, distribution, rfl⟩⟩

/-! ## Conversations stay -/

theorem Keeps.known {s' : State E} (h : Keeps conv s s') {id : Text} (hc : (s.conv? id).isSome) :
    (s'.conv? id).isSome := by
  by_cases hid : id = conv
  · subst hid
    have hmap := congrArg Option.isSome h.messages
    rwa [Option.isSome_map, Option.isSome_map, hc] at hmap
  · rw [h.others id hid]
    exact hc

theorem ReadIn.known {s' : State E} (h : ReadIn conv s s') {id : Text}
    (hc : (s.conv? id).isSome) : (s'.conv? id).isSome := by
  by_cases hid : id = conv
  · subst hid
    obtain ⟨c, hc', -⟩ := h.messages
    rw [hc']
    rfl
  · rw [h.others id hid]
    exact hc

/-- Conversations stay in memory, and the one that is to be saved is there. -/
def Known (s : State E) (out : State E × Received) : Prop :=
  ∀ id, (s.conv? id).isSome ∨ out.2 = .touched id → (out.1.conv? id).isSome

variable {m : Incoming} {s' : State E}

theorem known_untouched {r : Received} (h : ∀ id, (s.conv? id).isSome → (s'.conv? id).isSome)
    (hr : ∀ id, r ≠ .touched id) : Known s (s', r) :=
  fun id hid => h id (hid.resolve_right (hr id))

theorem known_touched (h : ∀ id, (s.conv? id).isSome → (s'.conv? id).isSome) (id : Text)
    (c : Conversation) : Known s (s'.putConv id c, .touched id) := by
  intro id' hid
  rw [conv?_putConv]
  split
  · rfl
  · rename_i hne
    refine h id' (hid.resolve_right ?_)
    rintro ⟨⟩
    exact hne rfl

theorem Known.saveHistory {id : Text} {r : Received} (h : Known s (s', r)) :
    Known s (s'.saveHistory id, r) := by
  intro id' hid
  rw [conv?_saveHistory]
  exact h id' hid

theorem recevoirCanal_known : Known s (recevoirCanal P now m s) := by
  have hnothing : ∀ r : Received, (∀ id, r ≠ .touched id) → Known s (s, r) :=
    fun r hr => known_untouched (fun _ => id) hr
  unfold recevoirCanal
  split
  · exact hnothing _ nofun
  rename_i canalId _
  split
  · exact hnothing _ nofun
  split
  · exact hnothing _ nofun
  split
  · exact hnothing _ nofun
  · exact hnothing _ nofun
  rename_i sender _
  have hopen := openGroup_keeps P canalId sender m s
  split
  · rename_i hskip
    rw [hskip] at hopen
    exact known_untouched (fun _ => hopen.known) nofun
  · rename_i hthrow
    rw [hthrow] at hopen
    exact known_untouched (fun _ => hopen.known) nofun
  · rename_i hclair
    rw [hclair] at hopen
    dsimp only
    split
    · exact known_untouched (fun _ => hopen.known) nofun
    split
    · exact known_untouched (fun _ => hopen.known) nofun
    · exact (known_touched (fun _ => hopen.known) canalId _).saveHistory

theorem dispatch_known (plain : Bytes) : Known s (dispatch P now conv sender plain m s) := by
  have hstay : KeepsSessions s (dispatch P now conv sender plain m s).1 :=
    (dispatch_reads P now plain m).1
  revert hstay
  unfold dispatch addReceived
  split
  · exact fun hstay => known_untouched (fun _ => hstay.known) nofun
  dsimp only
  split
  · split
    · exact fun hstay => known_untouched (fun _ => hstay.known) nofun
    · exact fun hstay => known_untouched (fun _ => hstay.known) nofun
  split
  · exact fun hstay => known_untouched (fun _ => hstay.known) nofun
  split
  · split
    · exact fun hstay => known_untouched (fun _ => hstay.known) nofun
    · exact fun _ => known_touched (fun _ => id) conv _
  split
  · exact fun hstay => known_untouched (fun _ => hstay.known) nofun
  split
  · exact fun hstay => known_untouched (fun _ => hstay.known) nofun
  · exact fun _ => known_touched (fun _ => id) conv _

theorem Known.of_keeps {out : State E × Received} (hkeeps : Keeps conv s s')
    (h : Known s' out) : Known s out :=
  fun id hid => h id (hid.imp_left hkeeps.known)

theorem receive_known : Known s (receive P now m s) := by
  rw [receive_enveloppe]
  have hkeeps := enveloppe_keeps P [] m s
  split
  · rename_i s₀ henv
    rw [henv] at hkeeps
    exact known_untouched (fun _ => hkeeps.known) nofun
  · rename_i s₀ m' henv
    rw [henv] at hkeeps
    refine Known.of_keeps hkeeps ?_
    unfold receiveOpen
    split
    · exact recevoirCanal_known P now
    split
    · exact known_untouched (fun _ => id) nofun
    · rename_i conv' s₁ hresolve
      have hread := resolveConversation_readIn P now hresolve
      have hopen := openMessage_keeps P conv' m' s₁
      split
      · rename_i hskip
        rw [hskip] at hopen
        exact known_untouched (fun _ h => hopen.known (hread.known h)) nofun
      · rename_i hthrow
        rw [hthrow] at hopen
        exact known_untouched (fun _ h => hopen.known (hread.known h)) nofun
      · rename_i s₂ sender plain hclair
        rw [hclair] at hopen
        exact fun id hid => dispatch_known P now plain id
          (hid.imp_left fun h => hopen.known (hread.known h))

/-! ## A message that throws nothing -/

/-- The fields that say who writes and where have their types, and the header is one. -/
structure Addressed (m : Incoming) : Prop where
  conversationId : m.conversationId.asString.isSome
  senderDeviceId : m.senderDeviceId.asString.isSome
  senderUsername : m.senderUsername.asString?.isSome
  senderUserId : m.senderUserId.asString?.isSome
  header : ∃ entete, m.header.asString.bind P.base64Decode = some entete ∧
    (Envelope.estGroupe entete = true ∨ (Envelope.unpackHeader entete).isSome)

/-- A post names its channel and its device, and has a date. -/
structure Posted (m : Incoming) : Prop where
  channelId : m.channelId.asString.isSome
  senderDeviceId : m.senderDeviceId.asString?.isSome
  date : Dated now m

/-- A message behind its envelope, if it has one: it has the fields it is received with,
and contents that can be shown at this time. -/
def Receivable (m : Incoming) (s : State E) : Prop :=
  ∀ m', (enveloppe P m s).2 = some m' →
    if m'.channelId.isNull then
      Addressed P m' ∧ ∀ conv sender plain s', Opens P now m s m' conv sender plain s' →
        Legible P now conv plain m' s'
    else Posted now m'

theorem Posted.not_thrown (h : Posted now m) : (recevoirCanal P now m s).2 ≠ .thrown := by
  obtain ⟨canalId, hid⟩ := Option.isSome_iff_exists.mp h.channelId
  obtain ⟨device, hdevice⟩ := Option.isSome_iff_exists.mp h.senderDeviceId
  unfold recevoirCanal
  rw [hid]
  dsimp only
  split
  · nofun
  split
  · nofun
  rw [hdevice]
  cases device with
  | none => nofun
  | some sender =>
    dsimp only
    have hnot : ∀ s', openGroup P canalId sender m s ≠ .thrown s' := by
      intro s'
      unfold openGroup
      split
      · nofun
      · dsimp only
        split <;> nofun
    split
    · nofun
    · rename_i s' hthrow
      exact absurd hthrow (hnot s')
    · split
      · nofun
      · split
        · rename_i hnone
          exact absurd hnone (Option.isSome_iff_ne_none.mp h.date)
        · nofun

theorem Addressed.resolves (h : Addressed P m) (s : State E) :
    ∃ conv s', resolveConversation P now m s = some (conv, s') := by
  obtain ⟨conv, hconv⟩ := Option.isSome_iff_exists.mp h.conversationId
  obtain ⟨device, hdevice⟩ := Option.isSome_iff_exists.mp h.senderDeviceId
  obtain ⟨name, hname⟩ := Option.isSome_iff_exists.mp h.senderUsername
  obtain ⟨userId, huserId⟩ := Option.isSome_iff_exists.mp h.senderUserId
  cases hc : s.conv? conv with
  | some c =>
    rw [resolveConversation_known now hconv hc]
    unfold pairDe
    split
    · exact ⟨_, _, rfl⟩
    · rw [huserId]
      exact ⟨_, _, rfl⟩
  | none =>
    simp only [resolveConversation, hconv, hc, hname, huserId, hdevice, Option.bind_eq_bind,
      Option.bind_some, Option.pure_def]
    exact ⟨_, _, rfl⟩

theorem openWithSession_not_thrown (conv sender : Text) (header : Bytes) (m : Incoming)
    (s s' : State E) : openWithSession P conv sender header m s ≠ .thrown s' := by
  unfold openWithSession
  split
  · nofun
  · split
    · nofun
    · dsimp only
      split <;> nofun

theorem Addressed.opens (h : Addressed P m) (conv : Text) (s s' : State E) :
    openMessage P conv m s ≠ .thrown s' := by
  obtain ⟨device, hdevice⟩ := Option.isSome_iff_exists.mp h.senderDeviceId
  obtain ⟨userId, huserId⟩ := Option.isSome_iff_exists.mp h.senderUserId
  obtain ⟨entete, hheader, hread⟩ := h.header
  unfold openMessage
  rw [hdevice, hheader]
  dsimp only
  split
  · unfold openGroup
    split
    · exact fun heq => by cases heq
    · dsimp only
      split <;> exact fun heq => by cases heq
  · rename_i hgroup
    obtain ⟨unpacked, hunpacked⟩ := Option.isSome_iff_exists.mp (hread.resolve_left hgroup)
    rw [hunpacked]
    dsimp only
    unfold openPairwise
    split
    · split
      · exact openWithSession_not_thrown P _ _ _ _ _ _
      · split
        · rename_i hpin
          unfold checkAndPin at hpin
          rw [huserId] at hpin
          cases userId with
          | none => cases hpin
          | some userId =>
            dsimp only at hpin
            split at hpin
            · cases hpin
            · split at hpin <;> cases hpin
        · exact fun heq => by cases heq
        · dsimp only
          split
          · exact fun heq => by cases heq
          · exact openWithSession_not_thrown P _ _ _ _ _ _
    · exact openWithSession_not_thrown P _ _ _ _ _ _

/-- A message that can be received does not end the loop. -/
theorem Receivable.not_thrown (h : Receivable P now m s) : (receive P now m s).2 ≠ .thrown := by
  rw [receive_enveloppe]
  unfold Receivable at h
  rcases henv : enveloppe P m s with ⟨s₀, _ | m'⟩
  · nofun
  have hm := h m' (by rw [henv])
  dsimp only
  unfold receiveOpen
  cases hchannel : m'.channelId.isNull with
  | false =>
    rw [hchannel, if_neg Bool.false_ne_true] at hm
    exact hm.not_thrown P now
  | true =>
    rw [hchannel, if_pos rfl] at hm
    obtain ⟨haddressed, hlegible⟩ := hm
    obtain ⟨conv, s₁, hresolve⟩ := haddressed.resolves P now s₀
    rw [hresolve]
    dsimp only
    cases hopen : openMessage P conv m' s₁ with
    | skipped s₂ => nofun
    | thrown s₂ => exact absurd hopen (haddressed.opens P conv s₁ s₂)
    | clair s₂ sender plain =>
      refine (dispatch_not_thrown_iff P now conv sender plain m' s₂).mpr ?_
      exact hlegible conv sender plain s₂ ⟨hchannel, s₀, s₁, henv, hresolve, hopen⟩

end ZiaCrypte.Inbox

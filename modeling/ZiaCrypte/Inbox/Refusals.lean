import ZiaCrypte.Inbox.Openings

/-!
# Messages that are refused without a trace

The loop skips a message that does not decrypt. The client is as it was where the
conversation was known with its peer, no session was restored or accepted, no key
pinned, and the calls of the engine leave it as it was in the end.
-/
namespace ZiaCrypte.Inbox

open ZiaCrypte.Lib ZiaCrypte.Engine ZiaCrypte.Chat

variable {E : Type} (P : Platform E) (now : Int)

/-- The stored sessions of the devices that have none in the conversation. -/
def stockees (s : State E) (conv : Text) (c : Conversation) (devices : List Text) : List Bytes :=
  devices.filterMap fun device =>
    if c.sessions.containsKey device then none
    else (s.coffre.sess.get? (conv, device)).filter (· ≠ [])

/-- The engine imports none of the sessions. -/
def ImportsRefused : List Bytes → E → E → Prop
  | [], e, e' => e' = e
  | blob :: blobs, e, e' =>
      (P.importSession blob e).1 = none ∧ ImportsRefused blobs (P.importSession blob e).2 e'

def GroupRefused (conv sender : Text) (m : Incoming) (e e' : E) : Prop :=
  match m.ciphertext.asString.bind P.base64Decode with
  | none => e' = e
  | some ciphertext => P.senderKeyDecrypt conv sender ciphertext e = (none, e')

def SessionRefused (c : Conversation) (sender : Text) (header : Bytes) (m : Incoming) (e e' : E) :
    Prop :=
  match c.sessions.get? sender, m.ciphertext.asString.bind P.base64Decode with
  | some session, some ciphertext => P.decrypt session header ciphertext e = (none, e')
  | _, _ => e' = e

/-- Nobody is named or the pinned key is used, and the engine makes no session of the
handshake; or the alert about another key is there already. -/
def HandshakeRefused (sender : Text) (senderUserId : Json) (handshake : ZiaHandshakeMaterial)
    (s : State E) (e' : E) : Prop :=
  match senderUserId.asString? with
  | none => False
  | some none => P.acceptSession handshake s.outside = (none, e')
  | some (some userId) =>
      match s.known.get? sender with
      | none => False
      | some existing =>
          if existing.identityKey = handshake.initiatorIdentityKey then
            P.acceptSession handshake s.outside = (none, e')
          else
            s.identityAlerts.Holds sender
              ⟨userId, existing.identityKey, handshake.initiatorIdentityKey⟩ ∧ e' = s.outside

/-- The message of a device is refused, in a conversation that is known. -/
def MessageRefused (conv : Text) (c : Conversation) (m : Incoming) (s : State E) (e' : E) : Prop :=
  ∃ sender entete, m.senderDeviceId.asString = some sender ∧
    m.header.asString.bind P.base64Decode = some entete ∧
    if Envelope.estGroupe entete then GroupRefused P conv sender m s.outside e'
    else ∃ unpacked, Envelope.unpackHeader entete = some unpacked ∧
      match unpacked.handshake with
      | none => SessionRefused P c sender unpacked.ratchetHeader m s.outside e'
      | some handshake =>
          if c.sessions.containsKey sender then
            SessionRefused P c sender unpacked.ratchetHeader m s.outside e'
          else HandshakeRefused P sender m.senderUserId handshake s e'

/-- A message behind its envelope is refused without a trace. -/
def Refused (m : Incoming) (s : State E) (e' : E) : Prop :=
  ∃ conv c e, m.conversationId.asString = some conv ∧ s.conversations.Holds conv c ∧
    (c.peerUserId.isSome ∨ m.senderUserId.asString? = some none) ∧
    ImportsRefused P (stockees s conv c c.targetDeviceIds) s.outside e ∧
    MessageRefused P conv c m { s with outside := e } e'

/-! ## The sessions that are restored -/

def HasSession (conv device : Text) (s : State E) : Prop :=
  ∃ c, s.conv? conv = some c ∧ c.sessions.containsKey device = true

theorem hasSession_iff {conv device : Text} {s : State E} {c : Conversation}
    (hc : s.conv? conv = some c) :
    HasSession conv device s ↔ c.sessions.containsKey device = true := by
  constructor
  · rintro ⟨c', hc', h⟩
    obtain rfl := Option.some.inj (hc.symm.trans hc')
    exact h
  · exact fun h => ⟨c, hc, h⟩

variable {P} {conv : Text} {s : State E} {c : Conversation}

theorem restoreEach_hasSession (P : Platform E) {device : Text} (devices : List Text)
    (h : HasSession conv device s) : HasSession conv device (restoreEach P conv devices s) := by
  induction devices generalizing s with
  | nil => exact h
  | cons device' devices ih =>
    rw [restoreEach]
    refine ih ?_
    obtain ⟨c, hc, hcontains⟩ := h
    rw [hc]
    dsimp only
    split
    · exact ⟨c, hc, hcontains⟩
    split
    · exact ⟨c, hc, hcontains⟩
    split
    · exact ⟨c, hc, hcontains⟩
    split
    · exact ⟨c, hc, hcontains⟩
    · exact ⟨_, by rw [conv?_putConv, if_pos rfl], LinkedMap.containsKey_insert_of _ _ hcontains⟩

theorem restoreEach_refused {devices : List Text} {e e' : E}
    (hc : s.conv? conv = some c)
    (h : ImportsRefused P (stockees s conv c devices) e e') :
    restoreEach P conv devices { s with outside := e } = { s with outside := e' } := by
  induction devices generalizing e with
  | nil =>
    obtain rfl := h
    rfl
  | cons device devices ih =>
    rw [restoreEach, show State.conv? { s with outside := e } conv = some c from hc]
    dsimp only
    simp only [stockees, List.filterMap_cons] at h
    split
    · rename_i hcontains
      rw [if_pos hcontains] at h
      exact ih h
    · rename_i hcontains
      rw [if_neg hcontains] at h
      cases hblob : s.coffre.sess.get? (conv, device) with
      | none =>
        rw [hblob] at h
        exact ih h
      | some blob =>
        rw [hblob] at h
        by_cases hnil : blob = []
        · subst hnil
          exact ih h
        · simp only [Option.filter_some, hnil, ne_eq, not_false_eq_true, decide_true, if_true] at h
          dsimp only
          rw [if_neg hnil, h.1]
          exact ih h.2

theorem restoreEach_or (P : Platform E) (devices : List Text) (e : E)
    (hc : s.conv? conv = some c) :
    (∃ e', ImportsRefused P (stockees s conv c devices) e e') ∨
      ∃ device, c.sessions.containsKey device = false ∧
        HasSession conv device (restoreEach P conv devices { s with outside := e }) := by
  induction devices generalizing e with
  | nil => exact .inl ⟨e, rfl⟩
  | cons device devices ih =>
    rw [restoreEach, show State.conv? { s with outside := e } conv = some c from hc]
    simp only [stockees, List.filterMap_cons]
    by_cases hcontains : c.sessions.containsKey device = true
    · rw [if_pos hcontains, if_pos hcontains]
      exact ih e
    · rw [if_neg hcontains, if_neg hcontains]
      cases hblob : s.coffre.sess.get? (conv, device) with
      | none => exact ih e
      | some blob =>
        by_cases hnil : blob = []
        · subst hnil
          exact ih e
        · simp only [Option.filter_some, hnil, ne_eq, not_false_eq_true, decide_true, if_true,
            if_false]
          cases himport : (P.importSession blob e).1 with
          | none =>
            rcases ih (P.importSession blob e).2 with ⟨e', h⟩ | h
            · exact .inl ⟨e', himport, h⟩
            · exact .inr h
          | some id =>
            refine .inr ⟨device, Bool.not_eq_true _ ▸ hcontains, restoreEach_hasSession P _ ?_⟩
            refine ⟨_, by rw [conv?_putConv, if_pos rfl], ?_⟩
            rw [LinkedMap.containsKey, LinkedMap.get?_insert_self]
            rfl

/-! ## Opening -/

theorem outside_eq_iff {e : E} : s = { s with outside := e } ↔ e = s.outside := by
  constructor
  · exact fun h => (congrArg State.outside h).symm
  · rintro rfl
    rfl

theorem openGroup_refused_iff {sender : Text} {m : Incoming} {e' : E} :
    openGroup P conv sender m s = .skipped { s with outside := e' } ↔
      GroupRefused P conv sender m s.outside e' := by
  unfold openGroup GroupRefused
  cases m.ciphertext.asString.bind P.base64Decode with
  | none => rw [Opening.skipped.injEq, outside_eq_iff]
  | some ciphertext =>
    dsimp only
    rw [Prod.ext_iff]
    split
    · rename_i hnone
      exact ⟨fun h => ⟨hnone, congrArg (·.state.outside) h⟩,
        fun h => congrArg (fun e => Opening.skipped { s with outside := e }) h.2⟩
    · rename_i plain hsome
      refine iff_of_false ?_ fun h => ?_
      · rintro ⟨⟩
      · cases h.1.symm.trans hsome

theorem openWithSession_refused_iff (hc : s.conv? conv = some c) {sender : Text} {header : Bytes}
    {m : Incoming} {e' : E} :
    openWithSession P conv sender header m s = .skipped { s with outside := e' } ↔
      SessionRefused P c sender header m s.outside e' := by
  unfold openWithSession SessionRefused
  rw [hc, Option.bind_some]
  cases c.sessions.get? sender with
  | none => rw [Opening.skipped.injEq, outside_eq_iff]
  | some session =>
    cases m.ciphertext.asString.bind P.base64Decode with
    | none => rw [Opening.skipped.injEq, outside_eq_iff]
    | some ciphertext =>
      dsimp only
      rw [Prod.ext_iff]
      split
      · rename_i hnone
        exact ⟨fun h => ⟨hnone, congrArg (·.state.outside) h⟩,
        fun h => congrArg (fun e => Opening.skipped { s with outside := e }) h.2⟩
      · rename_i plain hsome
        refine iff_of_false ?_ fun h => ?_
        · rintro ⟨⟩
        · cases h.1.symm.trans hsome

/-- With a session only the engine moves. -/
theorem openWithSession_state (conv sender : Text) (header : Bytes) (m : Incoming) (s : State E) :
    (openWithSession P conv sender header m s).state =
      { s with outside := (openWithSession P conv sender header m s).state.outside } := by
  unfold openWithSession
  split
  · rfl
  · split
    · rfl
    · dsimp only
      split <;> rfl

theorem openWithSession_conversations (conv sender : Text) (header : Bytes) (m : Incoming)
    (s : State E) :
    (openWithSession P conv sender header m s).state.conversations = s.conversations := by
  rw [openWithSession_state]

theorem openGroup_state (conv sender : Text) (m : Incoming) (s : State E) :
    (openGroup P conv sender m s).state =
      { s with outside := (openGroup P conv sender m s).state.outside } := by
  unfold openGroup
  split
  · rfl
  · dsimp only
    split <;> rfl

theorem checkAndPin_conversations {sender : Text} {senderUserId : Json} {identityKey : PublicKey}
    {s' : State E} (h : checkAndPin sender senderUserId identityKey s = .accepted s' ∨
      checkAndPin sender senderUserId identityKey s = .changed s') :
    s'.conversations = s.conversations := by
  unfold checkAndPin at h
  split at h
  · rcases h with ⟨⟨⟩⟩ | ⟨⟨⟩⟩
  · rcases h with ⟨⟨⟩⟩ | ⟨⟨⟩⟩
    rfl
  · split at h
    · rcases h with ⟨⟨⟩⟩ | ⟨⟨⟩⟩
      rfl
    · split at h
      · rcases h with ⟨⟨⟩⟩ | ⟨⟨⟩⟩
        rfl
      · rcases h with ⟨⟨⟩⟩ | ⟨⟨⟩⟩
        rfl

/-- A session the engine makes of a handshake stays in the conversation. -/
theorem acceptSession_refused_iff (hc : s.conv? conv = some c) {sender : Text}
    (hcontains : c.sessions.containsKey sender = false) {handshake : ZiaHandshakeMaterial}
    {header : Bytes} {m : Incoming} {e' : E} :
    (match P.acceptSession handshake s.outside with
      | (session, outside) =>
        match session with
        | none => Opening.skipped { s with outside := outside }
        | some id =>
            openWithSession P conv sender header m (State.putConv { s with outside := outside } conv
              { c with
                sessions := c.sessions.insert sender id
                targetDeviceIds := addToSet c.targetDeviceIds sender })) =
        .skipped { s with outside := e' } ↔
      P.acceptSession handshake s.outside = (none, e') := by
  dsimp only
  rw [Prod.ext_iff]
  split
  · rename_i hnone
    exact ⟨fun h => ⟨hnone, congrArg (·.state.outside) h⟩,
      fun h => congrArg (fun e => Opening.skipped { s with outside := e }) h.2⟩
  · rename_i id hsome
    refine iff_of_false (fun h => ?_) fun h => ?_
    · have hmap : s.conversations.insert conv { c with
          sessions := c.sessions.insert sender id
          targetDeviceIds := addToSet c.targetDeviceIds sender } = s.conversations :=
        (openWithSession_conversations conv sender header m _).symm.trans
          (congrArg (·.state.conversations) h)
      have hget := ((LinkedMap.insert_eq_self_iff _ _ _).mp hmap).get?
      have hsession := congrArg (·.sessions.containsKey sender)
        (Option.some.inj (hc.symm.trans hget))
      dsimp only at hsession
      rw [hcontains, LinkedMap.containsKey, LinkedMap.get?_insert_self] at hsession
      cases hsession
    · cases h.1.symm.trans hsome

theorem openPairwise_refused_iff (hc : s.conv? conv = some c) {sender : Text}
    {unpacked : Envelope.Unpacked} {m : Incoming} {e' : E} :
    openPairwise P conv sender unpacked m s = .skipped { s with outside := e' } ↔
      match unpacked.handshake with
      | none => SessionRefused P c sender unpacked.ratchetHeader m s.outside e'
      | some handshake =>
          if c.sessions.containsKey sender then
            SessionRefused P c sender unpacked.ratchetHeader m s.outside e'
          else HandshakeRefused P sender m.senderUserId handshake s e' := by
  unfold openPairwise
  rw [hc]
  cases unpacked.handshake with
  | none => exact openWithSession_refused_iff hc
  | some handshake =>
    dsimp only
    split
    · exact openWithSession_refused_iff hc
    rename_i hcontains
    rw [Bool.not_eq_true] at hcontains
    unfold checkAndPin HandshakeRefused
    rcases m.senderUserId.asString? with _ | _ | userId
    · simp
    · exact acceptSession_refused_iff hc hcontains
    · cases hknown : s.known.get? sender with
      | none =>
        -- The key is pinned.
        refine iff_of_false (fun h => ?_) id
        have hpinned : s.known.insert sender ⟨userId, handshake.initiatorIdentityKey⟩ = s.known := by
          have hstate := congrArg (·.state.known) h
          dsimp only at hstate
          split at hstate
          · exact hstate
          · rw [openWithSession_state] at hstate
            exact hstate
        rw [((LinkedMap.insert_eq_self_iff _ _ _).mp hpinned).get?] at hknown
        cases hknown
      | some existing =>
        dsimp only
        by_cases hkey : existing.identityKey = handshake.initiatorIdentityKey
        · rw [if_pos hkey, if_pos hkey]
          exact acceptSession_refused_iff hc hcontains
        · rw [if_neg hkey, if_neg hkey, Opening.skipped.injEq, ← LinkedMap.insert_eq_self_iff]
          constructor
          · exact fun h => ⟨congrArg State.identityAlerts h, (congrArg State.outside h).symm⟩
          · rintro ⟨halerts, rfl⟩
            rw [halerts]

theorem openMessage_refused_iff (hc : s.conv? conv = some c) {m : Incoming} {e' : E} :
    openMessage P conv m s = .skipped { s with outside := e' } ↔ MessageRefused P conv c m s e' := by
  unfold openMessage MessageRefused
  cases m.senderDeviceId.asString with
  | none => simp
  | some sender =>
    cases m.header.asString.bind P.base64Decode with
    | none => simp
    | some entete =>
      simp only [Option.some.injEq, exists_and_left, exists_eq_left']
      split
      · exact openGroup_refused_iff
      · cases Envelope.unpackHeader entete with
        | none => simp
        | some unpacked =>
          simp only [Option.some.injEq, exists_eq_left']
          exact openPairwise_refused_iff hc

/-- The conversations stay as they are, or get a session. -/
theorem openMessage_conversations (hc : s.conv? conv = some c) (m : Incoming) :
    (openMessage P conv m s).state.conversations = s.conversations ∨
      ∃ device id targets, c.sessions.containsKey device = false ∧
        (openMessage P conv m s).state.conversations = s.conversations.insert conv { c with
          sessions := c.sessions.insert device id
          targetDeviceIds := targets } := by
  unfold openMessage
  split
  · exact .inl rfl
  rename_i sender _
  split
  · exact .inl rfl
  split
  · rw [openGroup_state]
    exact .inl rfl
  split
  · exact .inl rfl
  rename_i unpacked _
  unfold openPairwise
  rw [hc]
  split
  · rename_i handshake c' _ hc'
    obtain rfl := Option.some.inj hc'
    split
    · rw [openWithSession_state]
      exact .inl rfl
    · rename_i hcontains
      split
      · exact .inl rfl
      · rename_i s' hpin
        exact .inl (checkAndPin_conversations (.inr hpin))
      · rename_i s' hpin
        have hconversations := checkAndPin_conversations (.inl hpin)
        dsimp only
        split
        · exact .inl hconversations
        · rename_i id _
          refine .inr ⟨sender, id, addToSet c.targetDeviceIds sender, Bool.not_eq_true _ ▸ hcontains, ?_⟩
          rw [openWithSession_state, ← hconversations]
          rfl
  · rw [openWithSession_state]
    exact .inl rfl

theorem openMessage_hasSession {device : Text} (m : Incoming) (h : HasSession conv device s) :
    HasSession conv device (openMessage P conv m s).state := by
  obtain ⟨c, hc, hcontains⟩ := h
  rcases openMessage_conversations (P := P) hc m with hsame | ⟨device', id, targets, -, hnew⟩
  · exact ⟨c, by rw [State.conv?, hsame]; exact hc, hcontains⟩
  · exact ⟨_, by rw [State.conv?, hnew, LinkedMap.get?_insert_self],
      LinkedMap.containsKey_insert_of _ _ hcontains⟩

/-! ## The whole message -/

/-- What is known of the peer of a conversation once a message has come in. -/
def pairDe (c : Conversation) (m : Incoming) : Option (Option Text) :=
  if c.peerUserId.isSome then some c.peerUserId else m.senderUserId.asString?

theorem resolveConversation_known {m : Incoming} {convId : Text} (now : Int)
    (hconv : m.conversationId.asString = some convId) (hc : s.conv? convId = some c) :
    resolveConversation P now m s = (pairDe c m).map fun peerUserId =>
      (convId, restoreEach P convId c.targetDeviceIds
        (s.putConv convId { c with peerUserId := peerUserId })) := by
  simp only [resolveConversation, hconv, Option.bind_eq_bind, Option.bind_some, hc]
  unfold pairDe
  split
  · simp [restoreSessions]
  · cases m.senderUserId.asString? with
    | none => rfl
    | some peerUserId => simp [restoreSessions]

theorem resolveConversation_id {m : Incoming} {s' : State E} (now : Int)
    (h : resolveConversation P now m s = some (conv, s')) :
    m.conversationId.asString = some conv := by
  cases hconv : m.conversationId.asString with
  | none =>
    rw [resolveConversation, hconv] at h
    cases h
  | some convId =>
    cases hc : s.conv? convId with
    | some c =>
      rw [resolveConversation_known now hconv hc] at h
      obtain ⟨_, -, hpair⟩ := Option.map_eq_some_iff.mp h
      rw [(Prod.mk.inj hpair).1]
    | none =>
      simp only [resolveConversation, hconv, Option.bind_eq_bind, Option.bind_some, hc,
        Option.bind_eq_some_iff] at h
      obtain ⟨_, -, _, -, _, -, hpair⟩ := h
      rw [(Prod.mk.inj (Option.some.inj hpair)).1]

theorem pairDe_same_iff (c : Conversation) (m : Incoming) :
    pairDe c m = some c.peerUserId ↔ c.peerUserId.isSome ∨ m.senderUserId.asString? = some none := by
  unfold pairDe
  cases hpeer : c.peerUserId <;> simp

/-- The loop skips a message and leaves the client as it was exactly if the message is
refused without a trace. -/
theorem refused_iff {m : Incoming} {e e' : E} :
    (∃ conv s₁, resolveConversation P now m { s with outside := e } = some (conv, s₁) ∧
      openMessage P conv m s₁ = .skipped { s with outside := e' }) ↔
      Refused P m { s with outside := e } e' := by
  constructor
  · rintro ⟨conv, s₁, hresolve, hopen⟩
    have hfinal : (openMessage P conv m s₁).state = { s with outside := e' } :=
      congrArg Opening.state hopen
    -- The conversation was there: one that is made stays.
    obtain ⟨c₁, hc₁, -⟩ := ((resolveConversation_readIn P now hresolve).keeps
      (openMessage_keeps P conv m s₁)).messages
    rw [hfinal] at hc₁
    have hc : s.conv? conv = some c₁ := hc₁
    have hconv := resolveConversation_id now hresolve
    rw [resolveConversation_known (s := { s with outside := e }) now hconv hc] at hresolve
    obtain ⟨peerUserId, hpeer, hpair⟩ := Option.map_eq_some_iff.mp hresolve
    obtain ⟨-, rfl⟩ := Prod.mk.inj hpair
    have hput : (s.putConv conv { c₁ with peerUserId := peerUserId }).conv? conv =
        some { c₁ with peerUserId := peerUserId } := by
      rw [conv?_putConv, if_pos rfl]
    rcases restoreEach_or P c₁.targetDeviceIds e hput with ⟨e₁, himports⟩ | ⟨device, hnot, hhas⟩
    · have hrestored := restoreEach_refused hput himports
      change restoreEach P conv c₁.targetDeviceIds (State.putConv { s with outside := e } conv
        { c₁ with peerUserId := peerUserId }) = _ at hrestored
      rw [hrestored] at hopen hfinal
      rcases openMessage_conversations (P := P)
        (s := { s.putConv conv { c₁ with peerUserId := peerUserId } with outside := e₁ }) hput m with
        hsame | ⟨device, id, targets, hnot, hnew⟩
      · rw [hfinal] at hsame
        have hholds := (LinkedMap.insert_eq_self_iff _ _ _).mp hsame.symm
        have hself := Option.some.inj (hc.symm.trans hholds.get?)
        have hpeerUserId : c₁.peerUserId = peerUserId := congrArg Conversation.peerUserId hself
        rw [← hself] at hholds
        subst hpeerUserId
        rw [(putConv_eq_self_iff conv c₁).mpr hholds] at hopen
        exact ⟨conv, c₁, e₁, hconv, hholds, (pairDe_same_iff c₁ m).mp hpeer, himports,
          (openMessage_refused_iff (s := { s with outside := e₁ }) hc).mp hopen⟩
      · -- A session that was made stays.
        rw [hfinal] at hnew
        have hget : s.conversations.get? conv = _ := congrArg (LinkedMap.get? · conv) hnew
        rw [LinkedMap.get?_insert_self] at hget
        have hsession := congrArg (·.sessions.containsKey device)
          (Option.some.inj (hc.symm.trans hget))
        dsimp only at hsession hnot
        rw [hnot, LinkedMap.containsKey, LinkedMap.get?_insert_self] at hsession
        cases hsession
    · -- A session that was restored stays.
      have hstays : HasSession conv device { s with outside := e' } :=
        hfinal ▸ openMessage_hasSession m hhas
      have hsession : c₁.sessions.containsKey device = true := (hasSession_iff hc₁).mp hstays
      cases hnot.symm.trans hsession
  · rintro ⟨conv, c, e₁, hconv, hholds, hpeer, himports, hmessage⟩
    have hc : s.conv? conv = some c := hholds.get?
    refine ⟨conv, { s with outside := e₁ }, ?_, ?_⟩
    · rw [resolveConversation_known (s := { s with outside := e }) now hconv hc,
        (pairDe_same_iff c m).mpr hpeer, Option.map_some]
      have hput : State.putConv { s with outside := e } conv { c with peerUserId := c.peerUserId } =
          { s with outside := e } := (putConv_eq_self_iff conv c).mpr hholds
      rw [hput, restoreEach_refused hc himports]
    · exact (openMessage_refused_iff (s := { s with outside := e₁ }) hc).mpr hmessage

end ZiaCrypte.Inbox

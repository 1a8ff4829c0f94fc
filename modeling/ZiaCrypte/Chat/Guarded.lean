import ZiaCrypte.Chat.ChatService

/-!
# What any event of the client keeps

`Coherent` ties the memory of the client to its journal and its record; `Grows`
says that within one launch nothing is taken back. `Guard` is what the code
makes sure of before a statement or a request; every later result about the
client starts from guarded events.
-/
namespace ZiaCrypte.Chat

open ZiaCrypte.Engine ZiaCrypte.Lib

variable {K : Type}

/-! ## Coherence and growth -/

structure Coherent (s : Client K) : Prop where
  installed : ∀ conv device session, s.sessionOf conv device = some session →
    ∃ source pinned,
      Entry.installed (s.conversation conv).id device session source pinned ∈ s.journal
  stored : ∀ k blob, s.coffre.sess.get? k = some blob → blob ∈ s.record.exports
  fresh : ∀ session e, s.sessions.get? session = some e → session < s.nextSession
  keys : ∀ conv key, s.senderKeys.get? conv = some key → s.keysAtLaunch ≤ key
  launch : s.keysAtLaunch ≤ s.nextSenderKey

structure Grows (s t : Client K) : Prop where
  objects : ∀ conv, conv < s.objects.length → conv < t.objects.length ∧
    (t.conversation conv).id = (s.conversation conv).id ∧
    ∀ device, (s.conversation conv).sessions.containsKey device = true →
      (t.conversation conv).sessions.containsKey device = true
  journal : s.journal <:+ t.journal
  seals : s.record.seals ⊆ t.record.seals
  exports : s.record.exports ⊆ t.record.exports
  accepted : s.record.accepted ⊆ t.record.accepted
  sessions : ∀ session origin, s.originOf session = some origin →
    t.originOf session = some origin
  launch : t.keysAtLaunch = s.keysAtLaunch

theorem Grows.refl (s : Client K) : Grows s s where
  objects _ h := ⟨h, rfl, fun _ hd => hd⟩
  journal := List.suffix_refl _
  seals _ h := h
  exports _ h := h
  accepted _ h := h
  sessions _ _ h := h
  launch := rfl

theorem Grows.trans {s t u : Client K} (h : Grows s t) (h' : Grows t u) : Grows s u where
  objects conv hconv := by
    obtain ⟨hlt, hid, hkeys⟩ := h.objects conv hconv
    obtain ⟨hlt', hid', hkeys'⟩ := h'.objects conv hlt
    exact ⟨hlt', hid'.trans hid, fun device hd => hkeys' device (hkeys device hd)⟩
  journal := h.journal.trans h'.journal
  seals := List.Subset.trans h.seals h'.seals
  exports := List.Subset.trans h.exports h'.exports
  accepted := List.Subset.trans h.accepted h'.accepted
  sessions session origin ho := h'.sessions session origin (h.sessions session origin ho)
  launch := h'.launch.trans h.launch

/-- Everything `Coherent` and `Grows` look at is the same. -/
structure SameCore (s t : Client K) : Prop where
  objects : t.objects = s.objects
  journal : t.journal = s.journal
  record : t.record = s.record
  sessions : t.sessions = s.sessions
  nextSession : t.nextSession = s.nextSession
  sess : t.coffre.sess = s.coffre.sess
  senderKeys : t.senderKeys = s.senderKeys
  nextSenderKey : t.nextSenderKey = s.nextSenderKey
  launch : t.keysAtLaunch = s.keysAtLaunch

theorem SameCore.conversation {s t : Client K} (h : SameCore s t) (conv : Ref) :
    t.conversation conv = s.conversation conv := by
  rw [Client.conversation, h.objects, Client.conversation]

theorem SameCore.sessionOf {s t : Client K} (h : SameCore s t) (conv : Ref) (device : DeviceId) :
    t.sessionOf conv device = s.sessionOf conv device := by
  rw [Client.sessionOf, h.conversation, Client.sessionOf]

theorem SameCore.coherent {s t : Client K} (h : SameCore s t) (hs : Coherent s) : Coherent t where
  installed conv device session hsession := by
    rw [h.journal, h.conversation]
    exact hs.installed conv device session ((h.sessionOf conv device).symm.trans hsession)
  stored k blob hblob := by
    rw [h.record]
    rw [h.sess] at hblob
    exact hs.stored k blob hblob
  fresh session e he := by
    rw [h.nextSession]
    rw [h.sessions] at he
    exact hs.fresh session e he
  keys conv key hkey := by
    rw [h.launch]
    rw [h.senderKeys] at hkey
    exact hs.keys conv key hkey
  launch := by
    rw [h.launch, h.nextSenderKey]
    exact hs.launch

theorem SameCore.grows {s t : Client K} (h : SameCore s t) : Grows s t where
  objects conv hconv := by
    rw [h.objects, h.conversation]
    exact ⟨hconv, rfl, fun _ hd => hd⟩
  journal := h.journal ▸ List.suffix_refl _
  seals _ he := by rwa [h.record]
  exports _ he := by rwa [h.record]
  accepted _ he := by rwa [h.record]
  sessions session origin ho := by rw [Client.originOf, h.sessions]; exact ho
  launch := h.launch

/-- Both at once, as every event keeps them. -/
def Advances (s t : Client K) : Prop := Coherent s → Coherent t ∧ Grows s t

theorem SameCore.advances {s t : Client K} (h : SameCore s t) : Advances s t :=
  fun hs => ⟨h.coherent hs, h.grows⟩

theorem Advances.trans {s t u : Client K} (h : Advances s t) (h' : Advances t u) :
    Advances s u := by
  intro hs
  obtain ⟨ht, hgrows⟩ := h hs
  obtain ⟨hu, hgrows'⟩ := h' ht
  exact ⟨hu, hgrows.trans hgrows'⟩

/-! ## Statements -/

theorem Client.conversation_updateConversation (s : Client K) (conv : Ref)
    (f : Conversation → Conversation) (conv' : Ref) :
    (s.updateConversation conv f).conversation conv' =
      if conv' = conv ∧ conv < s.objects.length then f (s.conversation conv')
      else s.conversation conv' := by
  simp only [Client.conversation, Client.updateConversation, List.getD_eq_getElem?_getD,
    List.getElem?_modify]
  by_cases hlt : conv < s.objects.length
  · by_cases hconv : conv' = conv
    · subst hconv
      simp [hlt]
    · simp [hconv, Ne.symm hconv]
  · by_cases hconv : conv' = conv
    · subst hconv
      simp [hlt]
    · simp [hconv, Ne.symm hconv]

@[simp] theorem Client.length_objects_updateConversation (s : Client K) (conv : Ref)
    (f : Conversation → Conversation) :
    (s.updateConversation conv f).objects.length = s.objects.length := by
  simp [Client.updateConversation]

/-- An update of a conversation that leaves its id and its sessions alone. -/
theorem advances_updateConversation (s : Client K) (conv : Ref) {f : Conversation → Conversation}
    (hid : ∀ c, (f c).id = c.id) (hsessions : ∀ c, (f c).sessions = c.sessions) :
    Advances s (s.updateConversation conv f) := by
  have hconv : ∀ conv', ((s.updateConversation conv f).conversation conv').id =
      (s.conversation conv').id ∧ ((s.updateConversation conv f).conversation conv').sessions =
      (s.conversation conv').sessions := by
    intro conv'
    rw [Client.conversation_updateConversation]
    split
    · exact ⟨hid _, hsessions _⟩
    · exact ⟨rfl, rfl⟩
  intro hs
  refine ⟨⟨fun conv' device session hsession => ?_, hs.stored, hs.fresh, hs.keys, hs.launch⟩,
    { Grows.refl s with objects := fun conv' hlt => ?_ }⟩
  · rw [Client.sessionOf, (hconv conv').2] at hsession
    rw [(hconv conv').1]
    exact hs.installed conv' device session hsession
  · refine ⟨by simpa using hlt, (hconv conv').1, fun device hd => ?_⟩
    rw [(hconv conv').2]
    exact hd

theorem advances_note (s : Client K) (e : Entry) : Advances s (s.note e) := by
  intro hs
  refine ⟨⟨fun conv device session hsession => ?_, hs.stored, hs.fresh, hs.keys, hs.launch⟩,
    { Grows.refl s with journal := List.suffix_cons e s.journal }⟩
  obtain ⟨source, pinned, hmem⟩ := hs.installed conv device session hsession
  exact ⟨source, pinned, List.mem_cons_of_mem e hmem⟩

theorem advances_matchKey (s : Client K) (device : DeviceId) (key : PublicKey) :
    Advances s (s.matchKey device key) :=
  fun hs => ⟨⟨hs.installed, hs.stored, hs.fresh, hs.keys, hs.launch⟩, { Grows.refl s with }⟩

theorem advances_send (s : Client K) (m : DeviceMessage) : Advances s (s.send m) :=
  fun hs => ⟨⟨hs.installed, hs.stored, hs.fresh, hs.keys, hs.launch⟩, { Grows.refl s with }⟩

theorem Client.conversation_create (s : Client K) (c : Conversation) (conv : Ref) :
    (Stmt.apply (.create c) s).conversation conv =
      if conv = s.objects.length then c else s.conversation conv := by
  simp only [Client.conversation, Stmt.apply]
  split
  · rename_i h
    subst h
    simp
  · rename_i h
    rcases Nat.lt_or_gt_of_ne h with hlt | hgt
    · rw [List.getD_append _ _ _ _ hlt]
    · rw [List.getD_append_right _ _ _ _ (by omega), List.getD_eq_default _ _ (by simp; omega),
        List.getD_eq_default _ _ (by omega)]

/-- New objects have no session. -/
theorem advances_create (s : Client K) {c : Conversation} (hc : c.sessions = .empty) :
    Advances s (Stmt.apply (.create c) s) := by
  intro hs
  refine ⟨⟨fun conv device session hsession => ?_, hs.stored, hs.fresh, hs.keys, hs.launch⟩,
    { Grows.refl s with objects := fun conv hlt => ?_ }⟩
  · rw [Client.sessionOf, Client.conversation_create] at hsession
    split at hsession
    · rw [hc] at hsession
      cases hsession
    · rename_i hne
      rw [Client.conversation_create, if_neg hne]
      exact hs.installed conv device session hsession
  · rw [Client.conversation_create, if_neg (Nat.ne_of_lt hlt)]
    refine ⟨?_, rfl, fun _ hd => hd⟩
    simp only [Stmt.apply, List.length_append, List.length_singleton]
    omega

theorem Client.install_objects (s : Client K) (conv : Ref) (device : DeviceId)
    (session : SessionId) (source : Source) :
    (s.install conv device session source).objects =
      (s.updateConversation conv fun c =>
        { c with sessions := c.sessions.insert device session }).objects := by
  unfold Client.install
  cases s.pinnedKey device <;> cases source <;> rfl

theorem Client.conversation_install (s : Client K) (conv : Ref) (device : DeviceId)
    (session : SessionId) (source : Source) (conv' : Ref) :
    (s.install conv device session source).conversation conv' =
      (s.updateConversation conv fun c =>
        { c with sessions := c.sessions.insert device session }).conversation conv' := by
  rw [Client.conversation, Client.install_objects]
  rfl

theorem Client.sessions_install (s : Client K) (conv : Ref) (device : DeviceId)
    (session : SessionId) (source : Source) (conv' : Ref) :
    ((s.install conv device session source).conversation conv').sessions =
      if conv' = conv ∧ conv < s.objects.length then
        (s.conversation conv').sessions.insert device session
      else (s.conversation conv').sessions := by
  rw [Client.conversation_install, Client.conversation_updateConversation]
  split <;> rfl

theorem Client.id_install (s : Client K) (conv : Ref) (device : DeviceId) (session : SessionId)
    (source : Source) (conv' : Ref) :
    ((s.install conv device session source).conversation conv').id = (s.conversation conv').id := by
  rw [Client.conversation_install, Client.conversation_updateConversation]
  split <;> rfl

theorem Client.journal_install (s : Client K) (conv : Ref) (device : DeviceId)
    (session : SessionId) (source : Source) :
    (s.install conv device session source).journal =
      .installed (s.conversation conv).id device session source (s.pinnedKey device) ::
        s.journal := by
  unfold Client.install
  cases s.pinnedKey device <;> cases source <;> rfl

theorem Client.record_install (s : Client K) (conv : Ref) (device : DeviceId)
    (session : SessionId) (source : Source) :
    (s.install conv device session source).record =
      { s.record with
        matched := (s.pinnedKey device).elim s.record.matched fun key =>
          (device, key) :: s.record.matched } := by
  unfold Client.install
  cases s.pinnedKey device <;> cases source <;> rfl

theorem advances_install (s : Client K) (conv : Ref) (device : DeviceId) (session : SessionId)
    (source : Source) : Advances s (s.install conv device session source) := by
  intro hs
  have hrest : (s.install conv device session source).coffre = s.coffre ∧
      (s.install conv device session source).sessions = s.sessions ∧
      (s.install conv device session source).nextSession = s.nextSession ∧
      (s.install conv device session source).senderKeys = s.senderKeys ∧
      (s.install conv device session source).nextSenderKey = s.nextSenderKey ∧
      (s.install conv device session source).keysAtLaunch = s.keysAtLaunch := by
    unfold Client.install
    cases s.pinnedKey device <;> cases source <;> exact ⟨rfl, rfl, rfl, rfl, rfl, rfl⟩
  obtain ⟨hcoffre, hsessions, hnext, hkeys, hnextKey, hlaunch⟩ := hrest
  have hrecord := s.record_install conv device session source
  have hjournal := s.journal_install conv device session source
  constructor
  · refine ⟨fun conv' device' session' hsession => ?_, ?_, ?_, ?_, ?_⟩
    · rw [hjournal, Client.id_install]
      rw [Client.sessionOf, Client.sessions_install] at hsession
      have hold : s.sessionOf conv' device' = some session' →
          ∃ source' pinned', Entry.installed (s.conversation conv').id device' session' source'
              pinned' ∈
            Entry.installed (s.conversation conv).id device session source (s.pinnedKey device) ::
              s.journal := by
        intro h
        obtain ⟨source', pinned', hmem⟩ := hs.installed conv' device' session' h
        exact ⟨source', pinned', List.mem_cons_of_mem _ hmem⟩
      split at hsession
      · rename_i hconv
        rw [LinkedMap.get?_insert] at hsession
        split at hsession
        · rename_i hdevice
          obtain rfl := Option.some.inj hsession
          rw [hconv.1, hdevice]
          exact ⟨source, _, List.mem_cons_self⟩
        · exact hold hsession
      · exact hold hsession
    · rw [hcoffre, hrecord]
      exact hs.stored
    · rw [hsessions, hnext]
      exact hs.fresh
    · rw [hkeys, hlaunch]
      exact hs.keys
    · rw [hlaunch, hnextKey]
      exact hs.launch
  · refine ⟨fun conv' hlt => ⟨?_, s.id_install _ _ _ _ _, fun device' hd => ?_⟩, ?_, ?_, ?_, ?_,
      fun session' origin ho => ?_, hlaunch⟩
    · rw [Client.install_objects]
      simpa using hlt
    · rw [Client.sessions_install]
      split
      · exact LinkedMap.containsKey_insert_of device session hd
      · exact hd
    · rw [hjournal]
      exact List.suffix_cons _ _
    all_goals first
      | (rw [hrecord]; exact fun _ h => h)
      | (rw [Client.originOf, hsessions]; exact ho)

/-- What a statement may create. -/
def Stmt.Plain : Stmt → Prop
  | .create conv => conv.sessions = .empty
  | _ => True

theorem advances_stmt (a : Stmt) (s : Client K) (ha : a.Plain) : Advances s (a.apply s) := by
  cases a with
  | create conv => exact advances_create s ha
  | setPeerUserId conv user => exact advances_updateConversation s conv (fun _ => rfl) fun _ => rfl
  | completePeerUserId conv user =>
    exact advances_updateConversation s conv (fun _ => rfl) fun _ => rfl
  | setGroup conv => exact advances_updateConversation s conv (fun _ => rfl) fun _ => rfl
  | clearMembers conv => exact advances_updateConversation s conv (fun _ => rfl) fun _ => rfl
  | addMembers conv users => exact advances_updateConversation s conv (fun _ => rfl) fun _ => rfl
  | addTarget conv device => exact advances_updateConversation s conv (fun _ => rfl) fun _ => rfl
  | removeTarget conv device =>
    exact advances_updateConversation s conv (fun _ => rfl) fun _ => rfl
  | addOwn conv device => exact advances_updateConversation s conv (fun _ => rfl) fun _ => rfl
  | install conv device session source => exact advances_install s conv device session source
  | socketAdd m => exact advances_send s m
  | checked device key => exact (advances_note s _).trans (advances_matchKey _ device key)
  | prepared session m => exact advances_note s _
  | opened conv sender session => exact advances_note s _
  | refreshed conv members =>
    exact fun hs => ⟨⟨hs.installed, hs.stored, hs.fresh, hs.keys, hs.launch⟩,
      { Grows.refl s with }⟩
  | _ => exact SameCore.advances ⟨rfl, rfl, rfl, rfl, rfl, rfl, rfl, rfl, rfl⟩

/-! ## Requests -/

theorem advances_issue (q : Request K) (s : Client K) : Advances s (q.issue s) := by
  have hlog : Advances s (q.log s) := by
    cases q with
    | sendMessage m => exact advances_send s m
    | deposerScelle jeton device scelle => exact advances_send s _
    | sendGroupMessage conv devices ciphertext =>
      exact fun hs => ⟨⟨hs.installed, hs.stored, hs.fresh, hs.keys, hs.launch⟩,
        { Grows.refl s with }⟩
    | _ => exact SameCore.advances ⟨rfl, rfl, rfl, rfl, rfl, rfl, rfl, rfl, rfl⟩
  exact hlog.trans (SameCore.advances ⟨rfl, rfl, rfl, rfl, rfl, rfl, rfl, rfl, rfl⟩)

variable (P : Platform K)

theorem Client.originOf_putSession {s : Client K} {session : SessionId} {e : EngineSession K}
    (he : s.sessions.get? session = some e) (state : ZiaSession K) (session' : SessionId) :
    (s.putSession session e state).originOf session' = s.originOf session' := by
  rw [Client.originOf, Client.putSession, LinkedMap.get?_insert, Client.originOf]
  split
  · rename_i hsession
    rw [hsession, he]
    rfl
  · rfl

theorem advances_putSession {s : Client K} {session : SessionId} {e : EngineSession K}
    (he : s.sessions.get? session = some e) (state : ZiaSession K) :
    Advances s (s.putSession session e state) := by
  intro hs
  refine ⟨⟨hs.installed, hs.stored, fun session' e' he' => ?_, hs.keys, hs.launch⟩,
    { Grows.refl s with sessions := fun session' origin ho => ?_ }⟩
  · rw [Client.putSession, LinkedMap.get?_insert] at he'
    split at he'
    · rename_i hsession
      exact hsession ▸ hs.fresh session e he
    · exact hs.fresh session' e' he'
  · rw [Client.originOf_putSession he]
    exact ho

theorem advances_recordSeal (s : Client K) (e : EngineSession K) (plaintext : Bytes)
    (message : EncryptedMessage) : Advances s (s.recordSeal P e plaintext message) := by
  intro hs
  unfold Client.recordSeal
  split
  · exact ⟨hs, .refl s⟩
  · exact ⟨⟨hs.installed, hs.stored, hs.fresh, hs.keys, hs.launch⟩,
      { Grows.refl s with seals := List.subset_cons_self _ _ }⟩

/-- A session under a new number. -/
theorem advances_newSession (s : Client K) (e : EngineSession K) :
    Advances s { s with
      sessions := s.sessions.insert s.nextSession e
      nextSession := s.nextSession + 1 } := by
  intro hs
  refine ⟨⟨hs.installed, hs.stored, fun session' e' he' => ?_, hs.keys, hs.launch⟩,
    { Grows.refl s with sessions := fun session' origin ho => ?_ }⟩
  · rw [LinkedMap.get?_insert] at he'
    split at he'
    · rename_i hsession
      exact hsession ▸ Nat.lt_succ_self _
    · exact Nat.lt_succ_of_lt (hs.fresh session' e' he')
  · obtain ⟨e', he', _⟩ := Option.map_eq_some_iff.mp ho
    have hne : session' ≠ s.nextSession := Nat.ne_of_lt (hs.fresh session' e' he')
    rw [Client.originOf, LinkedMap.get?_insert_ne _ _ hne]
    exact ho

theorem advances_openSession (s : Client K) (state : ZiaSession K) (origin : Origin) :
    Advances s (s.openSession state origin) :=
  (advances_newSession s ⟨state, origin⟩).trans
    (SameCore.advances ⟨rfl, rfl, rfl, rfl, rfl, rfl, rfl, rfl, rfl⟩)

theorem advances_accept (s : Client K) (m : DeviceMessage) :
    Advances s { s with record := { s.record with accepted := m :: s.record.accepted } } :=
  fun hs => ⟨⟨hs.installed, hs.stored, hs.fresh, hs.keys, hs.launch⟩,
    { Grows.refl s with accepted := List.subset_cons_self _ _ }⟩

theorem advances_newSenderKey (s : Client K) (conv : ConvId) :
    Advances s { s with
      senderKeys := s.senderKeys.insert conv s.nextSenderKey
      nextSenderKey := s.nextSenderKey + 1 } := by
  intro hs
  refine ⟨⟨hs.installed, hs.stored, hs.fresh, fun conv' key hkey => ?_,
    Nat.le_succ_of_le hs.launch⟩, { Grows.refl s with }⟩
  rw [LinkedMap.get?_insert] at hkey
  split at hkey
  · obtain rfl := Option.some.inj hkey
    exact hs.launch
  · exact hs.keys conv' key hkey

theorem Client.encryptOutcome_eq_some {s : Client K} {session : SessionId} {plaintext : Bytes}
    {env : CallEnv K} {e : EngineSession K} {o : Outcome K EncryptedMessage} :
    s.encryptOutcome P session plaintext env = some (e, o) ↔
      s.sessions.get? session = some e ∧ ziaSessionEncrypt P.toPrimitives env e.state plaintext = o := by
  simp only [Client.encryptOutcome, Option.map_eq_some_iff, Prod.mk.injEq]
  constructor
  · rintro ⟨e', he', rfl, rfl⟩
    exact ⟨he', rfl⟩
  · rintro ⟨he, ho⟩
    exact ⟨e, he, rfl, ho⟩

theorem Client.decryptOutcome_eq_some {s : Client K} {session : SessionId}
    {header ciphertext : Bytes} {env : CallEnv K} {e : EngineSession K} {o : Outcome K Bytes} :
    s.decryptOutcome P session header ciphertext env = some (e, o) ↔
      s.sessions.get? session = some e ∧
        ziaSessionDecrypt P.toPrimitives env e.state header ciphertext = o := by
  simp only [Client.decryptOutcome, Option.map_eq_some_iff, Prod.mk.injEq]
  constructor
  · rintro ⟨e', he', rfl, rfl⟩
    exact ⟨he', rfl⟩
  · rintro ⟨he, ho⟩
    exact ⟨e, he, rfl, ho⟩

/-- What a write to the vault stores. -/
def Request.Stores (q : Request K) (s : Client K) : Prop :=
  match q with
  | .writeSession _ _ blob => blob ∈ s.record.exports
  | _ => True

theorem advances_carryOut (q : Request K) (x : Outside K) (s : Client K) (hq : q.Stores s) :
    Advances s (q.carryOut P x s) := by
  have hsame : Advances s s := fun hs => ⟨hs, .refl s⟩
  cases q with
  | encrypt session plaintext =>
    cases x with
    | call env =>
      cases ho : s.encryptOutcome P session plaintext env with
      | none => simpa only [Request.carryOut, ho] using hsame
      | some eo =>
        obtain ⟨e, o⟩ := eo
        have he := ((Client.encryptOutcome_eq_some P).mp ho).1
        cases o with
        | ok message state =>
          simp only [Request.carryOut, ho]
          refine (advances_recordSeal P s e plaintext message).trans ?_
          refine advances_putSession (?_ : _ = some e) state
          unfold Client.recordSeal
          split <;> exact he
        | error rc state =>
          simp only [Request.carryOut, ho]
          exact advances_putSession he state
        | fault => simpa only [Request.carryOut, ho] using hsame
    | _ => exact hsame
  | decrypt session header ciphertext =>
    cases x with
    | call env =>
      cases ho : s.decryptOutcome P session header ciphertext env with
      | none => simpa only [Request.carryOut, ho] using hsame
      | some eo =>
        obtain ⟨e, o⟩ := eo
        have he := ((Client.decryptOutcome_eq_some P).mp ho).1
        cases o with
        | ok clair state =>
          simp only [Request.carryOut, ho]
          exact advances_putSession he state
        | error rc state =>
          simp only [Request.carryOut, ho]
          exact advances_putSession he state
        | fault => simpa only [Request.carryOut, ho] using hsame
    | _ => exact hsame
  | exportSession session =>
    cases x with
    | done =>
      cases he : s.sessions.get? session with
      | none => simpa only [Request.carryOut, he] using hsame
      | some e =>
        simp only [Request.carryOut, he]
        exact fun hs => ⟨⟨hs.installed, fun k blob hblob => List.mem_cons_of_mem _
          (hs.stored k blob hblob), hs.fresh, hs.keys, hs.launch⟩,
          { Grows.refl s with exports := List.subset_cons_self _ _ }⟩
    | _ => exact hsame
  | importSession blob =>
    cases x with
    | done => exact advances_newSession s _
    | _ => exact hsame
  | startSession bundle =>
    cases x with
    | opening env =>
      cases hr : ziaSessionFromBundle P.toX3dhPrimitives env s.engine bundle with
      | error rc => simpa only [Request.carryOut, hr] using hsame
      | ok r =>
        simp only [Request.carryOut, hr]
        exact advances_openSession s r.1 _
    | _ => exact hsame
  | acceptSession handshake =>
    cases x with
    | done =>
      cases hr : ziaSessionAcceptHandshake P.toX3dhPrimitives s.engine handshake with
      | error rc => simpa only [Request.carryOut, hr] using hsame
      | ok r =>
        simp only [Request.carryOut, hr]
        exact (advances_openSession s r.1 _).trans
          (SameCore.advances ⟨rfl, rfl, rfl, rfl, rfl, rfl, rfl, rfl, rfl⟩)
    | _ => exact hsame
  | readSession conv device =>
    cases x with
    | done =>
      cases hblob : s.coffre.sess.get? (conv, device) with
      | none => simpa only [Request.carryOut, hblob] using hsame
      | some blob =>
        simp only [Request.carryOut, hblob]
        exact advances_note s _
    | _ => exact hsame
  | writeSession conv device blob =>
    cases x with
    | done =>
      refine fun hs => ⟨⟨hs.installed, fun k blob' hblob => ?_, hs.fresh, hs.keys, hs.launch⟩,
        { Grows.refl s with }⟩
      rw [Request.carryOut, LinkedMap.get?_insert] at hblob
      split at hblob
      · obtain rfl := Option.some.inj hblob
        exact hq
      · exact hs.stored k blob' hblob
    | _ => exact hsame
  | senderKeyCreate conv =>
    cases x with
    | done => exact advances_newSenderKey s conv
    | lost => exact advances_newSenderKey s conv
    | _ => exact hsame
  | sendMessage m =>
    cases x with
    | done => exact advances_accept s m
    | lost => exact advances_accept s m
    | _ => exact hsame
  | deposerScelle jeton device scelle =>
    cases x with
    | done => exact advances_accept s _
    | lost => exact advances_accept s _
    | _ => exact hsame
  | writeConversations data =>
    cases x with
    | done => exact SameCore.advances ⟨rfl, rfl, rfl, rfl, rfl, rfl, rfl, rfl, rfl⟩
    | _ => exact hsame
  | writeIdentities data =>
    cases x with
    | done => exact SameCore.advances ⟨rfl, rfl, rfl, rfl, rfl, rfl, rfl, rfl, rfl⟩
    | _ => exact hsame
  | writeJetons data =>
    cases x with
    | done => exact SameCore.advances ⟨rfl, rfl, rfl, rfl, rfl, rfl, rfl, rfl, rfl⟩
    | _ => exact hsame
  | _ => exact hsame

theorem advances_settle (ticket : Nat) (q : Request K) (x : Outside K) (s : Client K)
    (hq : q.Stores s) : Advances s (q.settle P ticket x s) :=
  (advances_carryOut P q x s hq).trans
    (SameCore.advances ⟨rfl, rfl, rfl, rfl, rfl, rfl, rfl, rfl, rfl⟩)

theorem coherent_crash {s : Client K} (hs : Coherent s) : Coherent s.crash where
  installed conv device session hsession := by
    simp [Client.sessionOf, Client.conversation, Client.crash, Client.initial,
      Conversation.new] at hsession
  stored := hs.stored
  fresh session e he := by cases he
  keys conv key hkey := by cases hkey
  launch := Nat.le_refl _

theorem coherent_initial (user : UserId) (device : DeviceId) (engine : ZiaEngine K) :
    Coherent (Client.initial user device engine) where
  installed conv device session hsession := by
    simp [Client.sessionOf, Client.conversation, Client.initial, Conversation.new] at hsession
  stored k blob hblob := by cases hblob
  fresh session e he := by cases he
  keys conv key hkey := by cases hkey
  launch := Nat.le_refl _

/-! ## Guards -/

/-- `enc` was sealed on the ratchet of this native session. -/
def SealedOn (s : Client K) (session : SessionId) (enc : EncryptedMessage) : Prop :=
  ∃ entry ∈ s.record.seals, s.originOf session = some entry.origin ∧ entry.message = enc

/-- A device has a session in this conversation. -/
def HasSession (s : Client K) (conv : Ref) (device : DeviceId) : Prop :=
  conv < s.objects.length ∧ (s.conversation conv).sessions.containsKey device = true

theorem HasSession.grows {s t : Client K} {conv : Ref} {device : DeviceId}
    (h : HasSession s conv device) (hgrows : Grows s t) : HasSession t conv device := by
  obtain ⟨hlt, _, hkeys⟩ := hgrows.objects conv h.1
  exact ⟨hlt, hkeys device h.2⟩

theorem hasSession_of_containsKey {s : Client K} {conv : Ref} {device : DeviceId}
    (h : (s.conversation conv).sessions.containsKey device = true) : HasSession s conv device := by
  refine ⟨?_, h⟩
  by_contra hlt
  rw [Client.conversation, List.getD_eq_default _ _ (Nat.le_of_not_lt hlt)] at h
  cases h

theorem hasSession_of_sessionOf {s : Client K} {conv : Ref} {device : DeviceId}
    {session : SessionId} (h : s.sessionOf conv device = some session) :
    HasSession s conv device :=
  hasSession_of_containsKey (LinkedMap.containsKey_iff.mpr ⟨session, h⟩)

/-- This launch put the session in a conversation, for this device. -/
def WasInstalled (s : Client K) (conv : ConvId) (device : DeviceId) (session : SessionId) : Prop :=
  ∃ source pinned, Entry.installed conv device session source pinned ∈ s.journal

theorem WasInstalled.grows {s t : Client K} {conv : ConvId} {device : DeviceId}
    {session : SessionId} (h : WasInstalled s conv device session) (hgrows : Grows s t) :
    WasInstalled t conv device session := by
  obtain ⟨source, pinned, hmem⟩ := h
  exact ⟨source, pinned, hgrows.journal.subset hmem⟩

/-- An exported session of this client. -/
def Exported (s : Client K) (blob : StoredSession K) (conv : ConvId) (device : DeviceId) : Prop :=
  blob ∈ s.record.exports ∧ ∃ session, s.originOf session = some blob.origin ∧
    WasInstalled s conv device session

/-- A stored session this launch has read from the vault. -/
def ReadBack (s : Client K) (blob : StoredSession K) : Prop :=
  blob ∈ s.record.exports ∧
    ∃ conv device, Entry.read conv device blob.origin blob.sealedBefore ∈ s.journal

theorem Exported.grows {s t : Client K} {blob : StoredSession K} {conv : ConvId}
    {device : DeviceId} (h : Exported s blob conv device) (hgrows : Grows s t) :
    Exported t blob conv device := by
  obtain ⟨hmem, session, horigin, hinstalled⟩ := h
  exact ⟨hgrows.exports hmem, session, hgrows.sessions session _ horigin,
    hinstalled.grows hgrows⟩

theorem ReadBack.grows {s t : Client K} {blob : StoredSession K} (h : ReadBack s blob)
    (hgrows : Grows s t) : ReadBack t blob := by
  obtain ⟨hmem, conv, device, hread⟩ := h
  exact ⟨hgrows.exports hmem, conv, device, hgrows.journal.subset hread⟩

/-- A message put together for `device`, under the handshake that is pending for it. -/
def PreparedFrom (s : Client K) (conv : Ref) (device : DeviceId) (session : SessionId)
    (enc : EncryptedMessage) (m : DeviceMessage) : Prop :=
  m = s.messageFor conv device enc ∧ HasSession s conv device ∧
    WasInstalled s (s.conversation conv).id device session ∧ SealedOn s session enc

/-- This launch put the message together. -/
def WasPrepared (s : Client K) (m : DeviceMessage) : Prop :=
  ∃ session, Entry.prepared session m ∈ s.journal

theorem WasPrepared.grows {s t : Client K} {m : DeviceMessage} (h : WasPrepared s m)
    (hgrows : Grows s t) : WasPrepared t m := by
  obtain ⟨session, hmem⟩ := h
  exact ⟨session, hgrows.journal.subset hmem⟩

/-- Where the code has the session from that it installs. -/
def Provenance (s : Client K) (conv : Ref) (device : DeviceId) (session : SessionId)
    (source : Source) : Prop :=
  match source with
  | .imported => ∃ origin sealedBefore, s.originOf session = some origin ∧
      Entry.read (s.conversation conv).id device origin sealedBefore ∈ s.journal
  | .initiated handshake => ∃ n, s.originOf session = some (.initiated n handshake)
  | .accepted _ _ handshake => ∃ n, s.originOf session = some (.accepted n handshake)
  | .acceptedCall handshake => ∃ n, s.originOf session = some (.accepted n handshake)

/-- With an account in the message, the poll loop compared the key first. -/
def CheckedFirst (s : Client K) (device : DeviceId) : Source → Prop
  | .accepted since (some _) handshake =>
      Entry.checked device handshake.initiatorIdentityKey ∈ s.since since
  | _ => True

/-- What the code makes sure of before it does something. -/
def Guard : ChatEvent K → Client K → Prop
  | .act (.create c), _ => c.sessions = .empty
  | .act (.checked device key), s => ∃ i, s.known.get? device = some i ∧ i.identityKey = key
  | .act (.install conv device session source), s =>
      Provenance s conv device session source ∧ CheckedFirst s device source
  | .act (.opened conv sender session), s =>
      WasInstalled s (s.conversation conv).id sender session
  | .act (.prepared session m), s => ∃ conv device enc, PreparedFrom s conv device session enc m
  | .act (.socketAdd m), s => WasPrepared s m
  | .act (.removePending conv device), s =>
      ∃ m ∈ s.record.accepted, WasPrepared s m ∧ m.conversationId = (s.conversation conv).id ∧ m.recipientDeviceId = device
  | .issue (.sendMessage m), s => WasPrepared s m
  | .issue (.deposerScelle _ device scelle), s => WasPrepared s (scelle.toMessage device)
  | .issue (.sendGroupMessage conv devices ciphertext), s =>
      s.keysAtLaunch ≤ ciphertext.key ∧ ∀ device ∈ devices, ∃ c, c < s.objects.length ∧
        (s.conversation c).id = conv ∧ (s.conversation c).sessions.containsKey device = true
  | .settle _ (.importSession blob) _, s => ReadBack s blob
  | .settle _ (.writeSession conv device blob) _, s => Exported s blob conv device
  | _, _ => True

theorem Guard.plain {a : Stmt} {s : Client K} (h : Guard (.act a) s) : a.Plain := by
  cases a with
  | create conv => exact h
  | _ => trivial

theorem Guard.stores {t : Nat} {q : Request K} {x : Outside K} {s : Client K}
    (h : Guard (.settle t q x) s) : q.Stores s := by
  cases q with
  | writeSession conv device blob => exact h.1
  | _ => trivial

/-- Guarded events keep coherence, and grow the state unless the process dies. -/
theorem Guard.advances {e : ChatEvent K} {s : Client K} (h : Guard e s) (hs : Coherent s) :
    Coherent ((chatSemantics P).apply e s) ∧
      (e ≠ .crash → Grows s ((chatSemantics P).apply e s)) := by
  cases e with
  | act a =>
    have hadv := advances_stmt a s h.plain hs
    exact ⟨hadv.1, fun _ => hadv.2⟩
  | issue q =>
    have hadv := advances_issue q s hs
    exact ⟨hadv.1, fun _ => hadv.2⟩
  | settle t q x =>
    have hadv := advances_settle P t q x s h.stores hs
    exact ⟨hadv.1, fun _ => hadv.2⟩
  | crash => exact ⟨coherent_crash hs, fun hne => absurd rfl hne⟩

/-- While a body waits, the state stays coherent and grows. -/
theorem reach_advances {s t : Client K} (h : Reach (chatSemantics P) Guard s t)
    (hs : Coherent s) : Coherent t ∧ Grows s t := by
  refine Reach.stable (P := fun u => Coherent u ∧ Grows s u) ?_ h ⟨hs, .refl s⟩
  rintro e u halive hguard ⟨hu, hgrows⟩
  obtain ⟨hcoh, hgrow⟩ := hguard.advances P hu
  exact ⟨hcoh, hgrows.trans (hgrow halive)⟩

end ZiaCrypte.Chat

import ZiaCrypte.Chat.SafeReceives

/-!
# What one event writes

`Carried` lists, once, what a request can do when it is carried out. From it come
the equations the later invariants use: which entries an event adds to the
journal, which keys and messages it adds to the record, and what becomes of the
vault.
-/
namespace ZiaCrypte.Chat

open ZiaCrypte.Engine ZiaCrypte.Lib

variable {K : Type} (P : Platform K)

/-- The state a request leaves when it is carried out in `s`. -/
inductive Carried (s : Client K) : Request K → Client K → Prop where
  | nothing (q : Request K) : Carried s q s
  | sealed {session : SessionId} {plaintext : Bytes} {env : CallEnv K} {e : EngineSession K}
      {message : EncryptedMessage} {state : ZiaSession K}
      (he : s.sessions.get? session = some e)
      (ho : ziaSessionEncrypt P.toPrimitives env e.state plaintext = .ok message state) :
      Carried s (.encrypt session plaintext)
        ((s.recordSeal P e plaintext message).putSession session e state)
  | notSealed {session : SessionId} {plaintext : Bytes} {env : CallEnv K} {e : EngineSession K}
      {rc : ZiaError} {state : ZiaSession K} (he : s.sessions.get? session = some e)
      (ho : ziaSessionEncrypt P.toPrimitives env e.state plaintext = .error rc state) :
      Carried s (.encrypt session plaintext) (s.putSession session e state)
  | decrypted {session : SessionId} {header ciphertext : Bytes} {env : CallEnv K}
      {e : EngineSession K} {state : ZiaSession K} (he : s.sessions.get? session = some e)
      (ho : (ziaSessionDecrypt P.toPrimitives env e.state header ciphertext).session? =
        some state) :
      Carried s (.decrypt session header ciphertext) (s.putSession session e state)
  | exported {session : SessionId} {e : EngineSession K}
      (he : s.sessions.get? session = some e) :
      Carried s (.exportSession session)
        { s with record := { s.record with exports := s.exported e :: s.record.exports } }
  | imported (blob : StoredSession K) :
      Carried s (.importSession blob)
        { s with
          sessions := s.sessions.insert s.nextSession ⟨restored P.zero blob.state, blob.origin⟩
          nextSession := s.nextSession + 1 }
  | initiated {bundle : ZiaPrekeyBundle} {env : HandshakeEnv K} {state : ZiaSession K}
      {handshake : ZiaHandshakeMaterial}
      (ho : ziaSessionFromBundle P.toX3dhPrimitives env s.engine bundle = .ok (state, handshake)) :
      Carried s (.startSession bundle) (s.openSession state (.initiated s.nextOrigin handshake))
  | accepted {handshake : ZiaHandshakeMaterial} {state : ZiaSession K} {engine : ZiaEngine K}
      (ho : ziaSessionAcceptHandshake P.toX3dhPrimitives s.engine handshake =
        .ok (state, engine)) :
      Carried s (.acceptSession handshake)
        { s.openSession state (.accepted s.nextOrigin handshake) with engine := engine }
  | read {conv : ConvId} {device : DeviceId} {blob : StoredSession K}
      (hblob : s.coffre.sess.get? (conv, device) = some blob) :
      Carried s (.readSession conv device)
        (s.note (.read conv device blob.origin blob.sealedBefore))
  | written (conv : ConvId) (device : DeviceId) (blob : StoredSession K) :
      Carried s (.writeSession conv device blob)
        { s with coffre := { s.coffre with sess := s.coffre.sess.insert (conv, device) blob } }
  | stored (q : Request K) (coffre : Coffre K) (hsess : coffre.sess = s.coffre.sess) :
      Carried s q { s with coffre := coffre }
  | senderKey (conv : ConvId) :
      Carried s (.senderKeyCreate conv)
        { s with
          senderKeys := s.senderKeys.insert conv s.nextSenderKey
          nextSenderKey := s.nextSenderKey + 1 }
  | taken (q : Request K) (m : DeviceMessage) :
      Carried s q { s with record := { s.record with accepted := m :: s.record.accepted } }

theorem carryOut_carried (q : Request K) (x : Outside K) (s : Client K) :
    Carried P s q (q.carryOut P x s) := by
  cases q with
  | encrypt session plaintext =>
    cases x with
    | call env =>
      cases ho : s.encryptOutcome P session plaintext env with
      | none =>
        simp only [Request.carryOut, ho]
        exact .nothing _
      | some eo =>
        obtain ⟨e, o⟩ := eo
        obtain ⟨he, ho'⟩ := (Client.encryptOutcome_eq_some P).mp ho
        cases o with
        | ok message state =>
          simp only [Request.carryOut, ho]
          exact .sealed he ho'
        | error rc state =>
          simp only [Request.carryOut, ho]
          exact .notSealed he ho'
        | fault =>
          simp only [Request.carryOut, ho]
          exact .nothing _
    | _ => exact .nothing _
  | decrypt session header ciphertext =>
    cases x with
    | call env =>
      cases ho : s.decryptOutcome P session header ciphertext env with
      | none =>
        simp only [Request.carryOut, ho]
        exact .nothing _
      | some eo =>
        obtain ⟨e, o⟩ := eo
        obtain ⟨he, ho'⟩ := (Client.decryptOutcome_eq_some P).mp ho
        cases o with
        | ok clair state =>
          simp only [Request.carryOut, ho]
          exact .decrypted he (by rw [ho']; rfl)
        | error rc state =>
          simp only [Request.carryOut, ho]
          exact .decrypted he (by rw [ho']; rfl)
        | fault =>
          simp only [Request.carryOut, ho]
          exact .nothing _
    | _ => exact .nothing _
  | exportSession session =>
    cases x with
    | done =>
      cases he : s.sessions.get? session with
      | none =>
        simp only [Request.carryOut, he]
        exact .nothing _
      | some e =>
        simp only [Request.carryOut, he]
        exact .exported he
    | _ => exact .nothing _
  | importSession blob =>
    cases x with
    | done => exact .imported blob
    | _ => exact .nothing _
  | startSession bundle =>
    cases x with
    | opening env =>
      cases hr : ziaSessionFromBundle P.toX3dhPrimitives env s.engine bundle with
      | error rc =>
        simp only [Request.carryOut, hr]
        exact .nothing _
      | ok r =>
        simp only [Request.carryOut, hr]
        exact .initiated hr
    | _ => exact .nothing _
  | acceptSession handshake =>
    cases x with
    | done =>
      cases hr : ziaSessionAcceptHandshake P.toX3dhPrimitives s.engine handshake with
      | error rc =>
        simp only [Request.carryOut, hr]
        exact .nothing _
      | ok r =>
        simp only [Request.carryOut, hr]
        exact .accepted hr
    | _ => exact .nothing _
  | readSession conv device =>
    cases x with
    | done =>
      cases hblob : s.coffre.sess.get? (conv, device) with
      | none =>
        simp only [Request.carryOut, hblob]
        exact .nothing _
      | some blob =>
        simp only [Request.carryOut, hblob]
        exact .read hblob
    | _ => exact .nothing _
  | writeSession conv device blob =>
    cases x with
    | done => exact .written conv device blob
    | _ => exact .nothing _
  | senderKeyCreate conv =>
    cases x with
    | done => exact .senderKey conv
    | lost => exact .senderKey conv
    | _ => exact .nothing _
  | sendMessage m =>
    cases x with
    | done => exact .taken _ m
    | lost => exact .taken _ m
    | _ => exact .nothing _
  | deposerScelle jeton device scelle =>
    cases x with
    | done => exact .taken _ _
    | lost => exact .taken _ _
    | _ => exact .nothing _
  | writeConversations data =>
    cases x with
    | done => exact .stored _ _ rfl
    | _ => exact .nothing _
  | writeIdentities data =>
    cases x with
    | done => exact .stored _ _ rfl
    | _ => exact .nothing _
  | writeJetons data =>
    cases x with
    | done => exact .stored _ _ rfl
    | _ => exact .nothing _
  | _ => exact .nothing _

/-! ## The journal -/

/-- The entries an event adds. -/
def entriesOf : ChatEvent K → Client K → List Entry
  | .act (.install conv device session source), s =>
      [.installed (s.conversation conv).id device session source (s.pinnedKey device)]
  | .act (.checked device key), _ => [.checked device key]
  | .act (.prepared session m), _ => [.prepared session m]
  | .act (.opened conv sender session), s => [.opened (s.conversation conv).id sender session]
  | .settle _ (.readSession conv device) .done, s =>
      (s.coffre.sess.get? (conv, device)).toList.map fun blob =>
        .read conv device blob.origin blob.sealedBefore
  | _, _ => []

@[simp] theorem journal_recordSeal (s : Client K) (e : EngineSession K) (plaintext : Bytes)
    (message : EncryptedMessage) : (s.recordSeal P e plaintext message).journal = s.journal := by
  unfold Client.recordSeal
  split <;> rfl

theorem Carried.journal {s t : Client K} {q : Request K} (h : Carried P s q t)
    (hq : ∀ conv device, q ≠ .readSession conv device) : t.journal = s.journal := by
  cases h with
  | sealed he ho => exact journal_recordSeal P s _ _ _
  | read hblob => exact absurd rfl (hq _ _)
  | _ => rfl

theorem journal_settle (t : Nat) (q : Request K) (x : Outside K) (s : Client K) :
    (q.settle P t x s).journal = entriesOf (.settle t q x) s ++ s.journal := by
  change (q.carryOut P x s).journal = _
  cases q with
  | readSession conv device =>
    cases x with
    | done => cases hblob : s.coffre.sess.get? (conv, device) <;>
        simp [Request.carryOut, entriesOf, hblob, Client.note]
    | _ => rfl
  | _ => exact (carryOut_carried P _ x s).journal P fun _ _ h => by cases h

theorem journal_apply {e : ChatEvent K} (s : Client K) (halive : e ≠ .crash) :
    ((chatSemantics P).apply e s).journal = entriesOf e s ++ s.journal := by
  cases e with
  | act a =>
    cases a with
    | install conv device session source => exact s.journal_install conv device session source
    | _ => rfl
  | issue q => cases q <;> rfl
  | settle t q x => exact journal_settle P t q x s
  | crash => exact absurd rfl halive

theorem mem_entriesOf_settle {t : Nat} {q : Request K} {x : Outside K} {s : Client K} {entry : Entry}
    (h : entry ∈ entriesOf (.settle t q x) s) :
    ∃ conv device blob, q = .readSession conv device ∧
      s.coffre.sess.get? (conv, device) = some blob ∧
      entry = .read conv device blob.origin blob.sealedBefore := by
  unfold entriesOf at h
  split at h
  · cases ‹Event.settle t q x = _›
  · cases ‹Event.settle t q x = _›
  · cases ‹Event.settle t q x = _›
  · cases ‹Event.settle t q x = _›
  · rename_i conv device heq
    obtain ⟨rfl, rfl, rfl⟩ := Event.settle.inj heq
    obtain ⟨blob, hblob, rfl⟩ := List.mem_map.mp h
    exact ⟨conv, device, blob, rfl, Option.mem_toList.mp hblob, rfl⟩
  · cases h

/-- A journal entry of a running launch is old, or the event's own. -/
theorem mem_journal_apply {e : ChatEvent K} {s : Client K} (halive : e ≠ .crash) {entry : Entry}
    (h : entry ∈ ((chatSemantics P).apply e s).journal) :
    entry ∈ s.journal ∨ entry ∈ entriesOf e s := by
  rw [journal_apply P s halive] at h
  exact (List.mem_append.mp h).symm

/-- Every entry but the one of a read comes from an action. -/
theorem act_of_mem_entriesOf {e : ChatEvent K} {s : Client K} (halive : e ≠ .crash) {entry : Entry}
    (hread : ∀ conv device origin n, entry ≠ .read conv device origin n)
    (h : entry ∈ entriesOf e s) : ∃ a, e = .act a := by
  cases e with
  | act a => exact ⟨a, rfl⟩
  | issue q => cases h
  | settle t q x =>
    obtain ⟨conv, device, blob, _, _, heq⟩ := mem_entriesOf_settle h
    exact absurd heq (hread conv device blob.origin blob.sealedBefore)
  | crash => exact absurd rfl halive

theorem installed_apply {e : ChatEvent K} {s : Client K} (halive : e ≠ .crash) {conv : ConvId}
    {device : DeviceId} {session : SessionId} {source : Source} {pinned : Option PublicKey}
    (h : Entry.installed conv device session source pinned ∈
      ((chatSemantics P).apply e s).journal) :
    Entry.installed conv device session source pinned ∈ s.journal ∨
      ∃ ref, e = .act (.install ref device session source) ∧ conv = (s.conversation ref).id := by
  refine (mem_journal_apply P halive h).imp_right fun hnew => ?_
  obtain ⟨a, rfl⟩ := act_of_mem_entriesOf halive (by rintro _ _ _ _ ⟨⟩) hnew
  cases a <;> simp_all [entriesOf]

theorem checked_apply {e : ChatEvent K} {s : Client K} (halive : e ≠ .crash) {device : DeviceId}
    {key : PublicKey} (h : Entry.checked device key ∈ ((chatSemantics P).apply e s).journal) :
    Entry.checked device key ∈ s.journal ∨ e = .act (.checked device key) := by
  refine (mem_journal_apply P halive h).imp_right fun hnew => ?_
  obtain ⟨a, rfl⟩ := act_of_mem_entriesOf halive (by rintro _ _ _ _ ⟨⟩) hnew
  cases a <;> simp_all [entriesOf]

theorem prepared_apply {e : ChatEvent K} {s : Client K} (halive : e ≠ .crash)
    {session : SessionId} {m : DeviceMessage}
    (h : Entry.prepared session m ∈ ((chatSemantics P).apply e s).journal) :
    Entry.prepared session m ∈ s.journal ∨ e = .act (.prepared session m) := by
  refine (mem_journal_apply P halive h).imp_right fun hnew => ?_
  obtain ⟨a, rfl⟩ := act_of_mem_entriesOf halive (by rintro _ _ _ _ ⟨⟩) hnew
  cases a <;> simp_all [entriesOf]

theorem read_apply {e : ChatEvent K} {s : Client K} (halive : e ≠ .crash) {conv : ConvId}
    {device : DeviceId} {origin : Origin} {n : Nat}
    (h : Entry.read conv device origin n ∈ ((chatSemantics P).apply e s).journal) :
    Entry.read conv device origin n ∈ s.journal ∨
      ∃ blob, s.coffre.sess.get? (conv, device) = some blob ∧ origin = blob.origin ∧
        n = blob.sealedBefore := by
  refine (mem_journal_apply P halive h).imp_right fun hnew => ?_
  cases e with
  | act a => cases a <;> simp [entriesOf] at hnew
  | issue q => cases hnew
  | settle t q x =>
    obtain ⟨conv', device', blob, _, hblob, heq⟩ := mem_entriesOf_settle hnew
    obtain ⟨rfl, rfl, rfl, rfl⟩ := Entry.read.inj heq
    exact ⟨blob, hblob, rfl, rfl⟩
  | crash => exact absurd rfl halive

/-! ## What requests leave alone -/

/-- The parts of the state only statements and issued requests write. -/
structure SameHeap (s t : Client K) : Prop where
  objects : t.objects = s.objects
  pendingHandshakes : t.pendingHandshakes = s.pendingHandshakes
  known : t.known = s.known
  keysAtLaunch : t.keysAtLaunch = s.keysAtLaunch
  matched : t.record.matched = s.record.matched
  refreshed : t.record.refreshed = s.record.refreshed
  sent : t.record.sent = s.record.sent
  sentToGroup : t.record.sentToGroup = s.record.sentToGroup

theorem Carried.sameHeap {s t : Client K} {q : Request K} (h : Carried P s q t) :
    SameHeap s t := by
  cases h with
  | @sealed _ plaintext _ e message _ he ho =>
    unfold Client.recordSeal
    split <;> exact ⟨rfl, rfl, rfl, rfl, rfl, rfl, rfl, rfl⟩
  | _ => exact ⟨rfl, rfl, rfl, rfl, rfl, rfl, rfl, rfl⟩

theorem settle_sameHeap (t : Nat) (q : Request K) (x : Outside K) (s : Client K) :
    SameHeap s (q.settle P t x s) := by
  have h := (carryOut_carried P q x s).sameHeap P
  exact ⟨h.objects, h.pendingHandshakes, h.known, h.keysAtLaunch, h.matched, h.refreshed, h.sent,
    h.sentToGroup⟩

/-! ## Keys that matched a pin -/

theorem matched_install (s : Client K) (conv : Ref) (device : DeviceId) (session : SessionId)
    (source : Source) :
    s.record.matched ⊆ (s.install conv device session source).record.matched := by
  rw [Client.record_install]
  cases s.pinnedKey device with
  | none => exact fun _ h => h
  | some key => exact List.subset_cons_self _ _

theorem matched_apply (e : ChatEvent K) (s : Client K) :
    s.record.matched ⊆ ((chatSemantics P).apply e s).record.matched := by
  cases e with
  | act a =>
    cases a with
    | install conv device session source => exact matched_install s conv device session source
    | checked device key => exact List.subset_cons_self _ _
    | _ => exact fun _ h => h
  | issue q => cases q <;> exact fun _ h => h
  | settle t q x =>
    change _ ⊆ (q.settle P t x s).record.matched
    rw [(settle_sameHeap P t q x s).matched]
    exact fun _ h => h
  | crash => exact fun _ h => h

theorem mem_matched_install {s : Client K} {conv : Ref} {device : DeviceId} {session : SessionId}
    {source : Source} {key : PublicKey} (h : s.pinnedKey device = some key) :
    (device, key) ∈ (s.install conv device session source).record.matched := by
  rw [Client.record_install, h]
  exact List.mem_cons_self

/-! ## Messages that leave -/

/-- The message an event sends to one device. -/
def departs : ChatEvent K → Option DeviceMessage
  | .act (.socketAdd m) => some m
  | .issue (.sendMessage m) => some m
  | .issue (.deposerScelle _ device scelle) => some (scelle.toMessage device)
  | _ => none

/-- Only a message that was put together leaves. -/
theorem wasPrepared_of_departs {e : ChatEvent K} {s : Client K} (h : Guard e s)
    {m : DeviceMessage} (hm : departs e = some m) : WasPrepared s m := by
  unfold departs at hm
  split at hm
  · obtain rfl := Option.some.inj hm
    exact h
  · obtain rfl := Option.some.inj hm
    exact h
  · obtain rfl := Option.some.inj hm
    exact h
  · cases hm

theorem sent_apply (e : ChatEvent K) (s : Client K) :
    ((chatSemantics P).apply e s).record.sent =
      (departs e).toList.map (⟨·, s.nextSenderKey⟩) ++ s.record.sent := by
  cases e with
  | act a =>
    cases a with
    | install conv device session source =>
      change (s.install conv device session source).record.sent = _
      rw [Client.record_install]
      rfl
    | _ => rfl
  | issue q => cases q <;> rfl
  | settle t q x => exact (settle_sameHeap P t q x s).sent
  | crash => rfl

/-! ## The vault -/

/-- A stored session was there before, or is what the event writes. -/
theorem vault_apply {e : ChatEvent K} {s : Client K} {k : ConvId × DeviceId}
    {blob : StoredSession K}
    (h : ((chatSemantics P).apply e s).coffre.sess.get? k = some blob) :
    s.coffre.sess.get? k = some blob ∨
      ∃ t x, e = .settle t (.writeSession k.1 k.2 blob) x := by
  cases e with
  | act a =>
    cases a with
    | install conv device session source =>
      left
      have hcoffre : (s.install conv device session source).coffre = s.coffre := by
        unfold Client.install
        cases s.pinnedKey device <;> cases source <;> rfl
      rwa [← hcoffre]
    | _ => exact .inl h
  | issue q => left; cases q <;> exact h
  | crash => exact .inl h
  | settle t q x =>
    change (q.carryOut P x s).coffre.sess.get? k = some blob at h
    generalize hu : q.carryOut P x s = u at h
    have hc := carryOut_carried P q x s
    rw [hu] at hc
    cases hc with
    | written conv device blob' =>
      rw [LinkedMap.get?_insert] at h
      split at h
      · rename_i hk
        obtain rfl := Option.some.inj h
        exact .inr ⟨t, x, by rw [hk]⟩
      · exact .inl h
    | stored q coffre hsess => exact .inl (hsess ▸ h)
    | sealed he ho =>
      left
      unfold Client.recordSeal at h
      split at h <;> exact h
    | _ => exact .inl h

end ZiaCrypte.Chat

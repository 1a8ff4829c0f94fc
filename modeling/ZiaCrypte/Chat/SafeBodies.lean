import ZiaCrypte.Chat.Guarded

/-!
# Every body of the service is guarded

One lemma a method. `Fine` asks only for guarded events; the few bodies whose
result matters to what follows have a lemma with a postcondition.
-/
namespace ZiaCrypte.Chat

open ZiaCrypte.Engine ZiaCrypte.Lib
open ZiaCrypte.Lib.Async (raise orElse)

variable {K : Type} {α β : Type} (P : Platform K)

abbrev Ok (post : Except ChatError α → Client K → Prop) (x : Task K α) (s : Client K) : Prop :=
  Safe (chatSemantics P) Guard post x s

abbrev Fine (x : Task K α) (s : Client K) : Prop := Ok P (fun _ _ => True) x s

variable {P}

/-! ## Rules -/

theorem Ok.bind {pre : Except ChatError α → Client K → Prop}
    {post : Except ChatError β → Client K → Prop} {x : Task K α} {f : α → Task K β}
    {s : Client K} (hs : Coherent s) (hx : Ok P pre x s)
    (hf : ∀ a t, Coherent t → Grows s t → pre (.ok a) t → Ok P post (f a) t)
    (he : ∀ e t, Coherent t → Grows s t → pre (.error e) t → post (.error e) t) :
    Ok P post (x >>= f) s := by
  refine (safe_bind x f).mpr (Safe.mono hx fun r t hr hpre => ?_)
  obtain ⟨ht, hgrows⟩ := reach_advances P hr hs
  cases r with
  | ok a => exact hf a t ht hgrows hpre
  | error e => exact he e t ht hgrows hpre

theorem Fine.bind {x : Task K α} {f : α → Task K β} {s : Client K} (hs : Coherent s)
    (hx : Fine P x s) (hf : ∀ a t, Coherent t → Grows s t → Fine P (f a) t) :
    Fine P (x >>= f) s :=
  Ok.bind hs hx (fun a t ht hgrows _ => hf a t ht hgrows) fun _ _ _ _ _ => trivial

theorem Ok.read {post : Except ChatError β → Client K → Prop} {f : Client K → Task K β}
    {s : Client K} (h : Ok P post (f s) s) : Ok P post (readState >>= f) s := h

theorem Fine.read {f : Client K → Task K β} {s : Client K} (h : Fine P (f s) s) :
    Fine P (readState >>= f) s := h

theorem Ok.act {post : Except ChatError β → Client K → Prop} {a : Stmt} {f : Unit → Task K β}
    {s : Client K} (hs : Coherent s) (ha : Guard (.act a) s)
    (hf : ∀ t, Coherent t → Grows s t → t = a.apply s → Ok P post (f ()) t) :
    Ok P post (exec a >>= f) s := by
  have hadv := advances_stmt a s ha.plain hs
  exact ⟨ha, hf _ hadv.1 hadv.2 rfl⟩

theorem Fine.act {a : Stmt} {f : Unit → Task K β} {s : Client K} (hs : Coherent s)
    (ha : Guard (.act a) s)
    (hf : ∀ t, Coherent t → Grows s t → t = a.apply s → Fine P (f ()) t) :
    Fine P (exec a >>= f) s := Ok.act hs ha hf

/-- A guarded body ends in a coherent state that has grown. -/
theorem Fine.keeps {x : Task K α} {s : Client K} (hs : Coherent s) (hx : Fine P x s) :
    Ok P (fun _ t => Coherent t ∧ Grows s t) x s :=
  Safe.mono hx fun _ _ hr _ => reach_advances P hr hs

theorem Fine.pure (a : α) (s : Client K) : Fine P (Pure.pure a) s := trivial

theorem Fine.raise (e : ChatError) (s : Client K) : Fine P (Async.raise e : Task K α) s := trivial

theorem Fine.exec {a : Stmt} {s : Client K} (ha : Guard (.act a) s) : Fine P (exec a) s :=
  ⟨ha, trivial⟩

/-- Waiting for an answer, with what carried it out. -/
theorem Ok.ask {q : Request K} {post : Except ChatError (Reply K q) → Client K → Prop}
    {s : Client K} (hs : Coherent s) (hissue : Guard (.issue q) s)
    (hsettle : ∀ t x s₁, Grows s s₁ → Guard (.settle t q x) s₁)
    (hpost : ∀ t x s₁ s₂, Coherent s₁ → Grows s s₁ → Coherent s₂ → Grows s s₂ →
      Grows (q.settle P t x s₁) s₂ → post (q.answer P x s₁) s₂) :
    Ok P post (ask q) s := by
  refine ⟨hissue, fun s₁ hr₁ x _ => ?_⟩
  have hadv := advances_issue q s hs
  obtain ⟨hs₁, hgrows₁⟩ := reach_advances P hr₁ hadv.1
  have hg₁ := hadv.2.trans hgrows₁
  refine ⟨hsettle _ x s₁ hg₁, fun s₂ hr₂ => ?_⟩
  have hadv₂ := advances_settle P s.nextTicket q x s₁ (hsettle s.nextTicket x s₁ hg₁).stores hs₁
  obtain ⟨hs₂, hgrows₂⟩ := reach_advances P hr₂ hadv₂.1
  exact hpost _ x s₁ s₂ hs₁ hg₁ hs₂ (hg₁.trans (hadv₂.2.trans hgrows₂)) hgrows₂

theorem Fine.ask {q : Request K} {s : Client K} (hs : Coherent s) (hissue : Guard (.issue q) s)
    (hsettle : ∀ t x s₁, Grows s s₁ → Guard (.settle t q x) s₁) : Fine P (ask q) s :=
  Ok.ask hs hissue hsettle fun _ _ _ _ _ _ _ _ _ => trivial

theorem Fine.orElse {x : Task K α} {h : ChatError → Task K α} {s : Client K} (hs : Coherent s)
    (hx : Fine P x s) (hh : ∀ e t, Coherent t → Grows s t → Fine P (h e) t) :
    Fine P (orElse x h) s := by
  refine (safe_orElse x h).mpr (Safe.mono hx fun r t hr _ => ?_)
  obtain ⟨ht, hgrows⟩ := reach_advances P hr hs
  cases r with
  | ok a => trivial
  | error e => exact hh e t ht hgrows

theorem Fine.caught {x : Task K α} {a : α} {s : Client K} (hs : Coherent s) (hx : Fine P x s) :
    Fine P (Async.orElse x fun _ => Pure.pure a) s :=
  Fine.orElse hs hx fun _ _ _ _ => trivial

theorem Fine.attempt {x : Task K α} {s : Client K} (hx : Fine P x s) : Fine P x.attempt s :=
  (safe_attempt x).mpr hx

/-- The extra suspension of a call loses nothing that is kept. -/
theorem Ok.call {post : Except ChatError α → Client K → Prop} {x : Task K α} {s : Client K}
    (hs : Coherent s) (hx : Ok P post x s)
    (hkept : ∀ r t u, Coherent t → Grows t u → post r t → post r u) : Ok P post (call x) s := by
  unfold Chat.call
  refine (safe_bind _ _).mpr ((safe_attempt x).mpr (Safe.mono hx fun r t hr hpost => ?_))
  obtain ⟨ht, _⟩ := reach_advances P hr hs
  refine (safe_bind _ _).mpr ?_
  refine Ok.ask ht trivial (fun _ _ _ _ => trivial) fun _ _ _ u _ _ _ hgrows _ => ?_
  cases r with
  | ok a => exact hkept _ t u ht hgrows hpost
  | error e => exact hkept _ t u ht hgrows hpost

theorem Fine.call {x : Task K α} {s : Client K} (hs : Coherent s) (hx : Fine P x s) :
    Fine P (call x) s :=
  Ok.call hs hx fun _ _ _ _ _ h => h

/-! ## Pins -/

theorem fine_moveNext (n : Nat) (f : Client K → Nat) (s : Client K) : Fine P (moveNext n f) s := by
  refine Fine.read ?_
  split
  · exact Fine.pure _ _
  · exact Fine.raise _ _

theorem fine_savePins {s : Client K} (hs : Coherent s) : Fine P (savePins (K := K)) s :=
  Fine.read (Fine.ask hs trivial fun _ _ _ _ => trivial)

theorem mem_since_note (s : Client K) (e : Entry) {n : Nat} (hn : n ≤ s.journal.length) :
    e ∈ (s.note e).since n := by
  obtain ⟨k, hk⟩ : ∃ k, s.journal.length + 1 - n = k + 1 := ⟨s.journal.length - n, by omega⟩
  rw [Client.since, Client.note, List.length_cons, hk, List.take_succ_cons]
  exact List.mem_cons_self

theorem Grows.mem_since {s t : Client K} (h : Grows s t) {e : Entry} {n : Nat}
    (he : e ∈ s.since n) : e ∈ t.since n := by
  obtain ⟨newer, hnewer⟩ := h.journal
  have hlt : n < s.journal.length := by
    by_contra hle
    rw [Client.since, Nat.sub_eq_zero_of_le (Nat.le_of_not_lt hle)] at he
    cases he
  have hlen : newer.length + s.journal.length - n = newer.length + (s.journal.length - n) := by
    omega
  rw [Client.since, ← hnewer, List.length_append, hlen, List.take_length_add_append]
  exact List.mem_append_right newer he

theorem mem_journal_of_mem_since {s : Client K} {e : Entry} {n : Nat} (h : e ∈ s.since n) :
    e ∈ s.journal :=
  List.mem_of_mem_take h

theorem Grows.length_journal {s t : Client K} (h : Grows s t) :
    s.journal.length ≤ t.journal.length :=
  h.journal.length_le

/-- Once `checkAndPin` returns, the key has been compared. -/
theorem ok_checkAndPin (device : DeviceId) (user : UserId) (key : PublicKey) {n : Nat}
    {s : Client K} (hs : Coherent s) (hn : n ≤ s.journal.length) :
    Ok P (fun r t => r = .ok () → Entry.checked device key ∈ t.since n)
      (checkAndPin device user key) s := by
  refine Ok.read ?_
  split
  · refine Ok.act hs trivial fun t ht hgrows htdef => ?_
    refine Ok.act ht ⟨⟨device, user, key, false⟩, ?_, rfl⟩ fun u hu _ hudef => ?_
    · subst htdef
      exact LinkedMap.get?_insert_self _ _ _
    · refine Safe.mono ((Fine.call hu (fine_savePins hu)).keeps hu) fun r v _ hv _ => ?_
      subst hudef
      exact hv.2.mem_since (mem_since_note t _ (Nat.le_trans hn hgrows.length_journal))
  · rename_i existing hexisting
    split
    · exact fun h => nomatch h
    · rename_i hkey
      exact ⟨⟨existing, hexisting, not_not.mp hkey⟩, fun _ => mem_since_note s _ hn⟩

theorem fine_checkAndPin (device : DeviceId) (user : UserId) (key : PublicKey) {s : Client K}
    (hs : Coherent s) : Fine P (checkAndPin device user key) s :=
  Safe.imp (ok_checkAndPin device user key hs (Nat.zero_le _)) fun _ _ _ => trivial

theorem fine_acceptIdentityChange (device : DeviceId) {s : Client K} (hs : Coherent s) :
    Fine P (acceptIdentityChange device) s := by
  refine Fine.read ?_
  split
  · exact Fine.pure _ _
  · refine Fine.bind hs (Fine.call hs ?_) fun _ t ht _ => Fine.exec trivial
    exact Fine.act hs trivial fun t ht _ _ => Fine.call ht (fine_savePins ht)

theorem fine_markVerified (device : DeviceId) (verified : Bool) {s : Client K} (hs : Coherent s) :
    Fine P (markVerified device verified) s := by
  refine Fine.read ?_
  split
  · exact Fine.pure _ _
  · exact Fine.act hs trivial fun t ht _ _ => Fine.call ht (fine_savePins ht)

/-! ## Persistence -/

theorem fine_saveConversations {s : Client K} (hs : Coherent s) :
    Fine P (saveConversations (K := K)) s :=
  Fine.read (Fine.ask hs trivial fun _ _ _ _ => trivial)

theorem fine_saveHistory {s : Client K} (hs : Coherent s) : Fine P (saveHistory (K := K)) s :=
  Fine.ask hs trivial fun _ _ _ _ => trivial

theorem fine_readHistory {s : Client K} (hs : Coherent s) : Fine P (readHistory (K := K)) s :=
  Fine.caught hs (Fine.ask hs trivial fun _ _ _ _ => trivial)

/-- An export that is answered is on record. -/
theorem ok_exportSession (session : SessionId) {s : Client K} (hs : Coherent s) :
    Ok P (fun r t => ∀ blob, r = .ok blob →
        blob ∈ t.record.exports ∧ t.originOf session = some blob.origin)
      (ask (.exportSession session)) s := by
  refine Ok.ask hs trivial (fun _ _ _ _ => trivial) fun t x s₁ s₂ _ _ _ _ hgrows blob hblob => ?_
  cases x with
  | done =>
    cases he : s₁.sessions.get? session with
    | none => simp only [Request.answer, he] at hblob; cases hblob
    | some e =>
      simp only [Request.answer, he] at hblob
      obtain rfl := Except.ok.inj hblob
      refine ⟨hgrows.exports ?_, hgrows.sessions session _ ?_⟩
      · simp only [Request.settle, Request.carryOut, he]
        exact List.mem_cons_self
      · simp only [Request.settle, Request.carryOut, he, Client.originOf]
        rfl
  | _ => cases hblob

theorem fine_saveSession (conv : Ref) (device : DeviceId) {session : SessionId} {s : Client K}
    (hs : Coherent s) (hsession : s.sessionOf conv device = some session) :
    Fine P (saveSession conv device session) s := by
  refine Fine.caught hs (Ok.bind hs (ok_exportSession session hs) ?_ fun _ _ _ _ _ => trivial)
  intro blob t ht hgrows hblob
  obtain ⟨hmem, horigin⟩ := hblob blob rfl
  have hid := (hgrows.objects conv (hasSession_of_sessionOf hsession).1).2.1
  have hexported : Exported t blob (t.conversation conv).id device :=
    ⟨hmem, session, horigin,
      hid ▸ WasInstalled.grows (hs.installed conv device session hsession) hgrows⟩
  exact Fine.read (Fine.ask ht trivial fun _ _ s₁ hgrows₁ => hexported.grows hgrows₁)

theorem fine_saveEach (conv : Ref) (n : Nat) (devices : List DeviceId) {s : Client K}
    (hs : Coherent s) : Fine P (saveEach conv n devices) s := by
  induction devices generalizing s with
  | nil => exact fine_moveNext _ _ _
  | cons device devices ih =>
    refine Fine.bind hs (fine_moveNext _ _ _) fun _ t ht _ => Fine.read ?_
    split
    · exact Fine.bind ht (Fine.raise _ _) fun _ u hu _ => ih hu
    · rename_i session hsession
      exact Fine.bind ht (fine_saveSession conv device ht hsession) fun _ u hu _ => ih hu

theorem fine_saveSessions (conv : Ref) {s : Client K} (hs : Coherent s) :
    Fine P (saveSessions conv) s :=
  Fine.read (fine_saveEach conv _ _ hs)

/-- What the vault hands out has been exported, and the journal says it was read. -/
theorem ok_readSession (conv : ConvId) (device : DeviceId) {s : Client K} (hs : Coherent s) :
    Ok P (fun r t => ∀ blob, r = .ok (some blob) → blob ∈ t.record.exports ∧
        Entry.read conv device blob.origin blob.sealedBefore ∈ t.journal)
      (ask (.readSession conv device)) s := by
  refine Ok.ask hs trivial (fun _ _ _ _ => trivial)
    fun t x s₁ s₂ hs₁ _ _ _ hgrows blob hblob => ?_
  cases x with
  | done =>
    have hget : s₁.coffre.sess.get? (conv, device) = some blob := Except.ok.inj hblob
    simp only [Request.settle, Request.carryOut, hget] at hgrows
    exact ⟨hgrows.exports (hs₁.stored _ _ hget), hgrows.journal.subset List.mem_cons_self⟩
  | _ => cases hblob

/-- The new session continues the stored one. -/
theorem ok_importSession (blob : StoredSession K) {s : Client K} (hs : Coherent s)
    (hblob : ReadBack s blob) :
    Ok P (fun r t => ∀ session, r = .ok session → t.originOf session = some blob.origin)
      (ask (.importSession blob)) s := by
  refine Ok.ask hs trivial (fun _ _ _ hgrows => hblob.grows hgrows)
    fun t x s₁ s₂ _ _ _ _ hgrows session hr => ?_
  cases x with
  | done =>
    obtain rfl := Except.ok.inj hr
    refine hgrows.sessions _ _ ?_
    simp only [Request.settle, Request.carryOut, Client.originOf, LinkedMap.get?_insert_self]
    rfl
  | _ => cases hr

theorem fine_restoreSession (conv : Ref) (device : DeviceId) {s : Client K} (hs : Coherent s)
    (hconv : conv < s.objects.length) : Fine P (restoreSession conv device) s := by
  refine Fine.caught hs (Fine.read ?_)
  refine Ok.bind hs (ok_readSession _ device hs) ?_ fun _ _ _ _ _ => trivial
  intro blob t ht hgrows hblob
  split
  · exact Fine.pure _ _
  · rename_i blob
    obtain ⟨hexported, hread⟩ := hblob blob rfl
    refine Ok.bind ht (ok_importSession blob ht ⟨hexported, _, _, hread⟩) ?_ fun _ _ _ _ _ => trivial
    intro session u hu hgrows' horigin
    refine Fine.exec ⟨⟨blob.origin, blob.sealedBefore, horigin session rfl, ?_⟩, trivial⟩
    rw [((hgrows.trans hgrows').objects conv hconv).2.1]
    exact hgrows'.journal.subset hread

theorem fine_restoreEach (conv : Ref) (n : Nat) (devices : List DeviceId) {s : Client K}
    (hs : Coherent s) (hconv : devices ≠ [] → conv < s.objects.length) :
    Fine P (restoreEach conv n devices) s := by
  induction devices generalizing s with
  | nil => exact fine_moveNext _ _ _
  | cons device devices ih =>
    have hlt := hconv (List.cons_ne_nil _ _)
    refine Fine.bind hs (fine_moveNext _ _ _) fun _ t ht hgrows => Fine.read ?_
    have hlt' := (hgrows.objects conv hlt).1
    split
    · exact ih ht fun _ => hlt'
    · refine Fine.bind ht (fine_restoreSession conv device ht hlt') fun _ u hu hgrows' => ?_
      exact ih hu fun _ => (hgrows'.objects conv hlt').1

theorem fine_restoreSessions (conv : Ref) {s : Client K} (hs : Coherent s) :
    Fine P (restoreSessions conv) s := by
  refine Fine.read (fine_restoreEach conv _ _ hs fun hne => ?_)
  by_contra hlt
  apply hne
  rw [Client.conversation, List.getD_eq_default _ _ (Nat.le_of_not_lt hlt)]
  rfl

theorem fine_loadEach (saved : List SavedConversation) {s : Client K} (hs : Coherent s) :
    Fine P (loadEach saved) s := by
  induction saved generalizing s with
  | nil => exact Fine.pure _ _
  | cons saved rest ih =>
    refine Fine.read (Fine.act hs rfl fun t ht _ _ => ?_)
    refine Fine.bind ht (Fine.call ht (fine_readHistory ht)) fun _ u hu _ => ?_
    exact Fine.act hu trivial fun v hv _ _ => ih hv

theorem fine_adoptSession {s : Client K} (hs : Coherent s) : Fine P (adoptSession (K := K)) s := by
  refine Fine.act hs trivial fun t ht _ _ => ?_
  refine Fine.bind ht (Fine.call ht (Fine.ask ht trivial fun _ _ _ _ => trivial)) ?_
  refine fun identities u hu _ => Fine.act hu trivial fun v hv _ _ => ?_
  refine Fine.bind hv (Fine.call hv (Fine.orElse hv ?_ fun _ _ _ _ => Fine.exec trivial)) ?_
  · refine Fine.bind hv (Fine.ask hv trivial fun _ _ _ _ => trivial) ?_
    exact fun jetons w hw _ => Fine.exec trivial
  · intro _ w hw _
    refine Fine.bind hw (Fine.call hw (Fine.caught hw ?_)) fun _ x hx _ => Fine.exec trivial
    refine Fine.bind hw (Fine.ask hw trivial fun _ _ _ _ => trivial) ?_
    exact fun saved x hx _ => fine_loadEach saved hx

/-! ## Opening sessions -/

/-- A session that was begun comes from the handshake it was answered with. -/
theorem ok_startSession (bundle : ZiaPrekeyBundle) {s : Client K} (hs : Coherent s) :
    Ok P (fun r t => ∀ init, r = .ok init →
        ∃ n, t.originOf init.1 = some (.initiated n init.2))
      (ask (.startSession bundle)) s := by
  refine Ok.ask hs trivial (fun _ _ _ _ => trivial) fun t x s₁ s₂ _ _ _ _ hgrows init hr => ?_
  cases x with
  | opening env =>
    cases hopen : ziaSessionFromBundle P.toX3dhPrimitives env s₁.engine bundle with
    | error rc => simp only [Request.answer, hopen] at hr; cases hr
    | ok opened =>
      simp only [Request.answer, hopen] at hr
      obtain rfl := Except.ok.inj hr
      refine ⟨s₁.nextOrigin, hgrows.sessions _ _ ?_⟩
      simp only [Request.settle, Request.carryOut, hopen, Client.originOf, Client.openSession,
        LinkedMap.get?_insert_self]
      rfl
  | _ => cases hr

/-- What follows the check of the bundle's key. -/
theorem fine_openSession_pin (conv : Ref) (user : UserId) (b : BundleJson) {s : Client K}
    (hs : Coherent s) : Fine P (do
      let pinned ← (Chat.call (checkAndPin b.deviceId user b.identityKey)).attempt
      match pinned with
      | .error (.identityChanged alert) =>
          Chat.exec (.putAlert alert)
          Chat.exec (.removeTarget conv b.deviceId)
      | .error e => Async.raise e
      | .ok _ =>
          Chat.exec (.removeAnnonce conv)
          let init ← Chat.ask (.startSession b.toBundle)
          Chat.exec (.install conv b.deviceId init.1 (.initiated init.2))) s := by
  refine Fine.bind hs (Fine.attempt (Fine.call hs (fine_checkAndPin _ _ _ hs))) ?_
  intro pinned t ht _
  split
  · exact Fine.act ht trivial fun u hu _ _ => Fine.exec trivial
  · exact Fine.raise _ _
  · refine Fine.act ht trivial fun u hu _ _ => ?_
    refine Ok.bind hu (ok_startSession _ hu) ?_ fun _ _ _ _ _ => trivial
    exact fun init v _ _ horigin => Fine.exec ⟨horigin init rfl, trivial⟩

theorem fine_openSession (conv : Ref) (user : UserId) (b : BundleJson) {s : Client K}
    (hs : Coherent s) : Fine P (openSession conv user b) s := by
  unfold openSession
  refine Fine.read ?_
  split
  · exact Fine.pure _ _
  · refine Fine.act hs trivial fun t ht _ _ => ?_
    dsimp only
    split <;> split
    · exact Fine.exec trivial
    · exact Fine.act ht trivial fun u hu _ _ => fine_openSession_pin conv user b hu
    · exact Fine.pure _ _
    · exact fine_openSession_pin conv user b ht

theorem fine_openEach (conv : Ref) (user : UserId) (bundles : List BundleJson) {s : Client K}
    (hs : Coherent s) : Fine P (openEach conv user bundles) s := by
  induction bundles generalizing s with
  | nil => exact Fine.pure _ _
  | cons b bundles ih =>
    exact Fine.bind hs (fine_openSession conv user b hs) fun _ t ht _ => ih ht

theorem fine_openSessionsWith (conv : Ref) (user : UserId) {s : Client K} (hs : Coherent s) :
    Fine P (openSessionsWith conv user) s :=
  Fine.bind hs (Fine.ask hs trivial fun _ _ _ _ => trivial)
    fun bundles _ ht _ => fine_openEach conv user bundles ht

end ZiaCrypte.Chat

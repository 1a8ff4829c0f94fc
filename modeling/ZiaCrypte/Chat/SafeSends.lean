import ZiaCrypte.Chat.SafeBodies

/-!
# Every send is guarded

A message goes out only once it was put together, for a device that has a
session, from what that session sealed and under the handshake pending for it;
and a pending handshake is dropped only after the server took such a message.
-/
namespace ZiaCrypte.Chat

open ZiaCrypte.Engine ZiaCrypte.Lib
open ZiaCrypte.Lib.Async (raise orElse)

variable {K : Type} {P : Platform K}

/-! ## What is known of a message -/

theorem SealedOn.grows {s t : Client K} {session : SessionId} {enc : EncryptedMessage}
    (h : SealedOn s session enc) (hgrows : Grows s t) : SealedOn t session enc := by
  obtain ⟨entry, hentry, horigin, hmessage⟩ := h
  exact ⟨entry, hgrows.seals hentry, hgrows.sessions session _ horigin, hmessage⟩

/-- The message was put together for this device of this conversation. -/
structure PreparedFor (s : Client K) (conv : Ref) (device : DeviceId) (m : DeviceMessage) :
    Prop where
  hasSession : HasSession s conv device
  prepared : WasPrepared s m
  conversation : m.conversationId = (s.conversation conv).id
  recipient : m.recipientDeviceId = device

theorem PreparedFor.grows {s t : Client K} {conv : Ref} {device : DeviceId} {m : DeviceMessage}
    (h : PreparedFor s conv device m) (hgrows : Grows s t) : PreparedFor t conv device m where
  hasSession := h.hasSession.grows hgrows
  prepared := h.prepared.grows hgrows
  conversation := h.conversation.trans (hgrows.objects conv h.hasSession.1).2.1.symm
  recipient := h.recipient

/-! ## Requests with an effect that matters -/

theorem sendingKey_of_encrypt_ok {env : CallEnv K} {state state' : ZiaSession K}
    {plaintext : Bytes} {message : EncryptedMessage}
    (h : ziaSessionEncrypt P.toPrimitives env state plaintext = .ok message state') :
    ∃ key, sendingKey P state = some key := by
  unfold ziaSessionEncrypt at h
  split at h
  · cases h
  · split at h
    · cases h
    · rename_i hkdf
      exact ⟨_, by rw [sendingKey, hkdf]; rfl⟩

/-- An encryption that is answered is on record. -/
theorem ok_encrypt (session : SessionId) (plaintext : Bytes) {s : Client K} (hs : Coherent s) :
    Ok P (fun r t => ∀ enc, r = .ok enc → SealedOn t session enc)
      (ask (.encrypt session plaintext)) s := by
  refine Ok.ask hs trivial (fun _ _ _ _ => trivial) fun t x s₁ s₂ _ _ _ _ hgrows enc henc => ?_
  refine SealedOn.grows ?_ hgrows
  cases x with
  | call env =>
    cases ho : s₁.encryptOutcome P session plaintext env with
    | none => simp only [Request.answer, ho] at henc; cases henc
    | some eo =>
      obtain ⟨e, o⟩ := eo
      simp only [Request.answer, ho] at henc
      cases o with
      | ok message state =>
        obtain rfl := Except.ok.inj henc
        obtain ⟨key, hkey⟩ :=
          sendingKey_of_encrypt_ok ((Client.encryptOutcome_eq_some P).mp ho).2
        simp only [Request.settle, Request.carryOut, ho, Client.recordSeal, hkey]
        refine ⟨_, List.mem_cons_self, ?_, rfl⟩
        simp only [Client.originOf, Client.putSession, LinkedMap.get?_insert_self]
        rfl
      | error rc state => cases henc
      | fault => cases henc
  | _ => cases henc

theorem ok_sendMessage (m : DeviceMessage) {s : Client K} (hs : Coherent s)
    (hm : WasPrepared s m) :
    Ok P (fun r t => r = .ok () → m ∈ t.record.accepted) (ask (.sendMessage m)) s := by
  refine Ok.ask hs hm (fun _ _ _ _ => trivial) fun t x s₁ s₂ _ _ _ _ hgrows hr => ?_
  refine hgrows.accepted ?_
  cases x with
  | done => exact List.mem_cons_self
  | _ => cases hr

theorem ok_deposerScelle (jeton : Jeton) (device : DeviceId) (scelle : Scelle) {s : Client K}
    (hs : Coherent s) (hm : WasPrepared s (scelle.toMessage device)) :
    Ok P (fun r t => r = .ok () → scelle.toMessage device ∈ t.record.accepted)
      (ask (.deposerScelle jeton device scelle)) s := by
  refine Ok.ask hs hm (fun _ _ _ _ => trivial) fun t x s₁ s₂ _ _ _ _ hgrows hr => ?_
  refine hgrows.accepted ?_
  cases x with
  | done => exact List.mem_cons_self
  | _ => cases hr

theorem ok_sealedSeal (identity : PublicKey) (interieur : Interieur) {s : Client K}
    (hs : Coherent s) :
    Ok P (fun r _ => ∀ scelle, r = .ok scelle → scelle.interieur = interieur)
      (ask (.sealedSeal identity interieur)) s := by
  refine Ok.ask hs trivial (fun _ _ _ _ => trivial) fun t x s₁ s₂ _ _ _ _ _ scelle hr => ?_
  cases x with
  | done =>
    obtain rfl := Except.ok.inj hr
    rfl
  | _ => cases hr

/-- A group ciphertext is under a key of this launch. -/
theorem ok_senderKeyEncrypt (conv : ConvId) (plaintext : Bytes) {s : Client K} (hs : Coherent s) :
    Ok P (fun r t => ∀ chiffre, r = .ok chiffre → t.keysAtLaunch ≤ chiffre.key)
      (ask (.senderKeyEncrypt conv plaintext)) s := by
  refine Ok.ask hs trivial (fun _ _ _ _ => trivial)
    fun t x s₁ s₂ hs₁ hgrows₁ _ hgrows₂ _ chiffre hr => ?_
  cases x with
  | done =>
    cases hkey : s₁.senderKeys.get? conv with
    | none => simp only [Request.answer, hkey] at hr; cases hr
    | some key =>
      simp only [Request.answer, hkey] at hr
      obtain rfl := Except.ok.inj hr
      rw [hgrows₂.launch, ← hgrows₁.launch]
      exact hs₁.keys conv key hkey
  | _ => cases hr

/-! ## Sends -/

theorem ok_encryptFor (conv : Ref) (device : DeviceId) {session : SessionId} (plaintext : Bytes)
    {s : Client K} (hs : Coherent s) (hsession : s.sessionOf conv device = some session) :
    Ok P (fun r t => ∀ m, r = .ok m → PreparedFor t conv device m)
      (encryptFor conv device session plaintext) s := by
  have hhas := hasSession_of_sessionOf hsession
  refine Ok.bind hs (ok_encrypt session plaintext hs) ?_ fun e t _ _ _ m hm => nomatch hm
  intro enc t ht hgrows hsealed
  have hhas' := hhas.grows hgrows
  have hinstalled : WasInstalled s (s.conversation conv).id device session :=
    hs.installed conv device session hsession
  have hid := (hgrows.objects conv hhas.1).2.1
  refine Ok.read (Ok.act ht ?_ fun u hu _ hudef m hm => ?_)
  · exact ⟨conv, device, enc, rfl, hhas', hid ▸ hinstalled.grows hgrows, hsealed enc rfl⟩
  · obtain rfl := Except.ok.inj hm
    subst hudef
    exact ⟨hhas', ⟨session, List.mem_cons_self⟩, rfl, rfl⟩

/-- The pending handshake goes once the server has the message. -/
theorem guard_removePending {s : Client K} {conv : Ref} {device : DeviceId} {m : DeviceMessage}
    (hm : PreparedFor s conv device m) (haccepted : m ∈ s.record.accepted) :
    Guard (.act (.removePending conv device)) s :=
  ⟨m, haccepted, hm.prepared, hm.conversation, hm.recipient⟩

theorem fine_sendSealed (conv : Ref) (device : DeviceId) {m : DeviceMessage} {s : Client K}
    (hs : Coherent s) (hm : PreparedFor s conv device m) :
    Fine P (sendSealed conv device m) s := by
  refine Fine.read ?_
  split
  · refine Fine.caught hs (Ok.bind hs (ok_sealedSeal _ _ hs) ?_ fun _ _ _ _ _ => trivial)
    intro scelle t ht hgrows hscelle
    have hmessage : scelle.toMessage device = m := by
      rw [Scelle.toMessage, hscelle scelle rfl, ← hm.recipient]
    have hprepared := (hm.grows hgrows).prepared
    rw [← hmessage] at hprepared
    refine Ok.bind ht (ok_deposerScelle _ device scelle ht hprepared) ?_ fun _ _ _ _ _ => trivial
    intro _ u hu hgrows' haccepted
    rw [hmessage] at haccepted
    have hmu := hm.grows (hgrows.trans hgrows')
    refine Fine.act hu (guard_removePending hmu (haccepted rfl)) fun v hv _ _ => ?_
    exact Fine.bind hv (Fine.call hv (fine_saveSessions conv hv)) fun _ w _ _ => Fine.pure _ _
  · exact Fine.pure _ _

/-- What follows the opening of the sessions. -/
theorem fine_sendToDevice_opened (conv : Ref) (device : DeviceId) (payload : Payload)
    {s : Client K} (hs : Coherent s) : Fine P (do
      let s ← readState
      match s.sessionOf conv device with
      | none => pure ()
      | some session =>
          let m ← encryptFor conv device session (P.encodePayload payload)
          let parti ← sendSealed conv device m
          if parti then pure ()
          else
            ask (.sendMessage m)
            exec (.removePending conv device)
            call (saveSessions conv)) s := by
  refine Fine.read ?_
  split
  · exact Fine.pure _ _
  · rename_i session hsession
    refine Ok.bind hs (ok_encryptFor conv device _ hs hsession) ?_ fun _ _ _ _ _ => trivial
    intro m t ht _ hm
    have hmt := hm m rfl
    refine Fine.bind ht (fine_sendSealed conv device ht hmt) fun parti u hu hgrows => ?_
    split
    · exact Fine.pure _ _
    · have hmu := hmt.grows hgrows
      refine Ok.bind hu (ok_sendMessage m hu hmu.prepared) ?_ fun _ _ _ _ _ => trivial
      intro _ v hv hgrows' haccepted
      refine Fine.act hv (guard_removePending (hmu.grows hgrows') (haccepted rfl)) ?_
      exact fun w hw _ _ => Fine.call hw (fine_saveSessions conv hw)

theorem fine_sendToDevice (conv : Ref) (device : DeviceId) (payload : Payload) {s : Client K}
    (hs : Coherent s) : Fine P (sendToDevice P conv device payload) s := by
  unfold sendToDevice
  refine Fine.read ?_
  split
  · exact fine_sendToDevice_opened conv device payload hs
  · refine Fine.bind hs (Fine.call hs (fine_openSessionsWith conv _ hs)) fun _ t ht _ => ?_
    exact fine_sendToDevice_opened conv device payload ht

theorem fine_diffuserEach (conv : Ref) (payload : Payload) (devices : List DeviceId)
    {s : Client K} (hs : Coherent s) : Fine P (diffuserEach P conv payload devices) s := by
  induction devices generalizing s with
  | nil => exact Fine.pure _ _
  | cons device devices ih =>
    refine Fine.bind hs (Fine.caught hs ?_) fun _ t ht _ => ih ht
    exact Fine.call hs (fine_sendToDevice conv device payload hs)

theorem fine_diffuserControle (conv : Ref) (payload : Payload) {s : Client K} (hs : Coherent s) :
    Fine P (diffuserControle P conv payload) s :=
  Fine.read (fine_diffuserEach conv payload _ hs)

theorem fine_distribuerEach (conv : Ref) (key : SenderKey) (devices : List DeviceId)
    {s : Client K} (hs : Coherent s) : Fine P (distribuerEach P conv key devices) s := by
  induction devices generalizing s with
  | nil => exact Fine.pure _ _
  | cons device devices ih =>
    refine Fine.bind hs (Fine.attempt (Fine.call hs (fine_sendToDevice conv device _ hs))) ?_
    intro sent t ht _
    refine Fine.bind ht (ih ht) fun rest u _ _ => ?_
    split <;> exact Fine.pure _ _

theorem fine_assurerCleGroupe (conv : Ref) {s : Client K} (hs : Coherent s) :
    Fine P (assurerCleGroupe P conv) s := by
  refine Fine.read ?_
  dsimp only
  split
  · exact Fine.pure _ _
  split
  · exact Fine.pure _ _
  refine Fine.bind hs (Fine.attempt (Fine.ask hs trivial fun _ _ _ _ => trivial)) ?_
  intro distribution t ht _
  split
  · exact Fine.pure _ _
  · refine Fine.bind ht (fine_distribuerEach conv _ _ ht) fun ok u hu _ => ?_
    split
    · exact Fine.act hu trivial fun v _ _ _ => Fine.pure _ _
    · exact Fine.act hu trivial fun v _ _ _ => Fine.pure _ _

theorem hasSession_of_mem_keys {s : Client K} {conv : Ref} {device : DeviceId}
    (h : device ∈ (s.conversation conv).sessions.keys) : HasSession s conv device :=
  hasSession_of_containsKey (LinkedMap.mem_keys_iff.mp h)

theorem fine_sendToGroup (conv : Ref) (clearText : Bytes) {s : Client K} (hs : Coherent s) :
    Fine P (sendToGroup P conv clearText) s := by
  refine Fine.read ?_
  split
  · exact Fine.pure _ _
  refine Fine.bind hs (Fine.call hs (fine_assurerCleGroupe conv hs)) fun ok t ht _ => ?_
  split
  · exact Fine.pure _ _
  refine Fine.read (Fine.caught ht ?_)
  refine Ok.bind ht (ok_senderKeyEncrypt _ _ ht) ?_ fun _ _ _ _ _ => trivial
  intro chiffre u hu hgrows hkey
  refine Fine.bind hu (Fine.ask hu ⟨hkey chiffre rfl, fun device hdevice => ?_⟩
    fun _ _ _ _ => trivial) fun _ v _ _ => Fine.pure _ _
  have hhas := hasSession_of_mem_keys hdevice
  have hid := (hgrows.objects conv hhas.1).2.1
  have hhas' := hhas.grows hgrows
  exact ⟨conv, hhas'.1, hid, hhas'.2⟩

theorem fine_sendText (conv : Ref) (device : DeviceId) (clearText : Bytes) {s : Client K}
    (hs : Coherent s) : Fine P (sendText conv device clearText) s := by
  refine Fine.read ?_
  split
  · exact Fine.pure _ _
  · rename_i session hsession
    refine Fine.caught hs (Ok.bind hs (ok_encryptFor conv device _ hs hsession) ?_
      fun _ _ _ _ _ => trivial)
    intro m t ht _ hm
    have hmt := hm m rfl
    refine Ok.bind ht (ok_sendMessage m ht hmt.prepared) ?_ fun _ _ _ _ _ => trivial
    intro _ u hu hgrows haccepted
    refine Fine.act hu (guard_removePending (hmt.grows hgrows) (haccepted rfl)) ?_
    exact fun v _ _ _ => Fine.pure _ _

theorem fine_sendTextEach (conv : Ref) (clearText : Bytes) (devices : List DeviceId)
    {s : Client K} (hs : Coherent s) : Fine P (sendTextEach conv clearText devices) s := by
  induction devices generalizing s with
  | nil => exact Fine.pure _ _
  | cons device devices ih =>
    refine Fine.bind hs (fine_sendText conv device clearText hs) fun one t ht _ => ?_
    exact Fine.bind ht (ih ht) fun rest u _ _ => Fine.pure _ _

theorem fine_sendPayloadTo (conv : Ref) (payload : Payload) {s : Client K} (hs : Coherent s) :
    Fine P (sendPayloadTo P conv payload) s := by
  have hsave : ∀ (delivered : Nat) {t : Client K}, Coherent t → Fine P (
      if payload.estAnnonceInterne || delivered = 0 then pure ()
      else do
        call saveHistory
        call (saveSessions conv)
        call saveConversations) t := by
    intro delivered t ht
    split
    · exact Fine.pure _ _
    · refine Fine.bind ht (Fine.call ht (fine_saveHistory ht)) fun _ u hu _ => ?_
      refine Fine.bind hu (Fine.call hu (fine_saveSessions conv hu)) fun _ v hv _ => ?_
      exact Fine.call hv (fine_saveConversations hv)
  unfold sendPayloadTo
  refine Fine.bind hs (fine_sendToGroup conv _ hs) fun grouped t ht _ => Fine.read ?_
  split
  · exact Fine.bind ht (Fine.pure _ _) fun delivered u hu _ => hsave delivered hu
  · exact Fine.bind ht (fine_sendTextEach conv _ _ ht) fun delivered u hu _ => hsave delivered hu

theorem fine_sendPayload (payload : Payload) {s : Client K} (hs : Coherent s) :
    Fine P (sendPayload P payload) s := by
  refine Fine.read ?_
  split
  · exact Fine.pure _ _
  · split
    · exact Fine.pure _ _
    · exact Fine.caught hs (fine_sendPayloadTo _ payload hs)

theorem fine_envoyerSignalAppel (conv : Ref) (device : DeviceId) (data : Bytes) {s : Client K}
    (hs : Coherent s) : Fine P (envoyerSignalAppel conv device data) s := by
  refine Fine.read ?_
  split
  · exact Fine.pure _ _
  · rename_i session hsession
    refine Fine.caught hs (Ok.bind hs (ok_encryptFor conv device _ hs hsession) ?_
      fun _ _ _ _ _ => trivial)
    exact fun m t ht _ hm => Fine.exec (hm m rfl).prepared

theorem fine_marquerLu (conv : Ref) {s : Client K} (hs : Coherent s) :
    Fine P (marquerLu P conv) s := by
  refine Fine.bind hs (Fine.ask hs trivial fun _ _ _ _ => trivial) fun ids t ht _ => ?_
  split
  · exact Fine.pure _ _
  · exact Fine.call ht (fine_diffuserControle conv _ ht)

theorem fine_backfillEach (sibling : DeviceId) (anciens : ConvId → Bool) (convs : List Ref)
    {s : Client K} (hs : Coherent s) : Fine P (backfillEach P sibling anciens convs) s := by
  induction convs generalizing s with
  | nil => exact Fine.pure _ _
  | cons conv convs ih =>
    refine Fine.read ?_
    dsimp only
    split
    · refine Fine.bind hs (Fine.call hs (fine_sendToDevice conv sibling _ hs)) ?_
      exact fun _ t ht _ => ih ht
    · exact ih hs

theorem fine_publierJeton {s : Client K} (hs : Coherent s) : Fine P (publierJeton (K := K)) s := by
  refine Fine.read ?_
  split
  · exact Fine.pure _ _
  · refine Fine.caught hs (Fine.bind hs (Fine.ask hs trivial fun _ _ _ _ => trivial) ?_)
    exact fun jeton t ht _ => Fine.exec trivial

theorem fine_annoncerJeton (conv : Ref) {s : Client K} (hs : Coherent s) :
    Fine P (annoncerJeton P conv) s := by
  refine Fine.read ?_
  split
  · exact Fine.pure _ _
  · split
    · exact Fine.pure _ _
    · refine Fine.caught hs (Fine.bind hs (Fine.call hs (fine_diffuserControle conv _ hs)) ?_)
      exact fun _ t _ _ => Fine.pure _ _

theorem fine_annoncerEach (convs : List Ref) {s : Client K} (hs : Coherent s) :
    Fine P (annoncerEach P convs) s := by
  induction convs generalizing s with
  | nil => exact Fine.pure _ _
  | cons conv convs ih =>
    refine Fine.read ?_
    dsimp only
    split
    · exact ih hs
    · refine Fine.bind hs (Fine.call hs (fine_annoncerJeton conv hs)) fun ok t ht _ => ?_
      split
      · exact Fine.act ht trivial fun u hu _ _ => ih hu
      · exact ih ht

theorem fine_viderFileJeton {s : Client K} (hs : Coherent s) : Fine P (viderFileJeton P) s := by
  have hvider : ∀ {t : Client K}, Coherent t → Fine P (do
      let s ← readState
      if s.monJeton.isNone then pure ()
      else annoncerEach P (s.conversations.entries.map (·.2))) t := by
    intro t ht
    refine Fine.read ?_
    split
    · exact Fine.pure _ _
    · exact fine_annoncerEach _ ht
  unfold viderFileJeton
  refine Fine.read ?_
  split
  · exact Fine.bind hs (Fine.call hs (fine_publierJeton hs)) fun _ t ht _ => hvider ht
  · exact hvider hs

/-! ## Conversations -/

theorem fine_openConversation (id : ConvId) {s : Client K} (hs : Coherent s) :
    Fine P (openConversation P id) s := by
  refine Fine.read ?_
  split
  · exact Fine.pure _ _
  · rename_i conv _
    refine Fine.act hs trivial fun t ht _ _ => ?_
    refine Fine.bind ht (Fine.call ht (fine_restoreSessions conv ht)) ?_
    exact fun _ u hu _ => fine_marquerLu conv hu

theorem fine_saveAll (conv : Ref) {s : Client K} (hs : Coherent s) : Fine P (do
      call (saveConversations (K := K))
      call (saveSessions conv)) s := by
  refine Fine.bind hs (Fine.call hs (fine_saveConversations hs)) fun _ t ht _ => ?_
  exact Fine.call ht (fine_saveSessions conv ht)

/-- What follows the choice of the conversation. -/
theorem fine_startChatWith_chosen (statut : Option Bytes) (convId : ConvId) (conv : Ref)
    (peer me : UserId) {s : Client K} (hs : Coherent s) : Fine P (do
      exec (.setActive convId)
      call (restoreSessions conv)
      call (openSessionsWith conv peer)
      call (openSessionsWith conv me)
      match statut with
      | none => pure ()
      | some statut => call (diffuserControle P conv (.controle statut))
      call saveConversations
      call (saveSessions conv)) s := by
  refine Fine.act hs trivial fun t ht _ _ => ?_
  refine Fine.bind ht (Fine.call ht (fine_restoreSessions conv ht)) fun _ u hu _ => ?_
  refine Fine.bind hu (Fine.call hu (fine_openSessionsWith conv _ hu)) fun _ v hv _ => ?_
  refine Fine.bind hv (Fine.call hv (fine_openSessionsWith conv _ hv)) fun _ w hw _ => ?_
  dsimp only
  split
  · exact fine_saveAll conv hw
  · refine Fine.bind hw (Fine.call hw (fine_diffuserControle conv _ hw)) ?_
    exact fun _ x hx _ => fine_saveAll conv hx

theorem fine_startChatWith (statut : Option Bytes) {s : Client K} (hs : Coherent s) :
    Fine P (startChatWith P statut) s := by
  refine Fine.caught hs ?_
  refine Fine.bind hs (Fine.ask hs trivial fun _ _ _ _ => trivial) fun peer t ht _ => ?_
  refine Fine.bind ht (Fine.ask ht trivial fun _ _ _ _ => trivial) fun convId u hu _ => ?_
  refine Fine.read ?_
  dsimp only
  split
  · refine Fine.act hu trivial fun v hv _ _ => ?_
    exact fine_startChatWith_chosen statut convId _ _ _ hv
  · refine Fine.act hu rfl fun v hv _ _ => ?_
    refine Fine.act hv trivial fun w hw _ _ => ?_
    refine Fine.bind hw (Fine.call hw (fine_readHistory hw)) fun _ x hx _ => ?_
    exact Fine.act hx trivial fun y hy _ _ => fine_startChatWith_chosen statut convId _ _ _ hy

theorem fine_lookupEach (n : Nat) {s : Client K} (hs : Coherent s) :
    Fine P (lookupEach (K := K) n) s := by
  induction n generalizing s with
  | zero => exact Fine.pure _ _
  | succ n ih =>
    refine Fine.bind hs (Fine.ask hs trivial fun _ _ _ _ => trivial) fun user t ht _ => ?_
    exact Fine.bind ht (ih ht) fun rest u _ _ => Fine.pure _ _

theorem fine_openEachMember (conv : Ref) (members : List UserId) {s : Client K}
    (hs : Coherent s) : Fine P (openEachMember conv members) s := by
  induction members generalizing s with
  | nil => exact Fine.pure _ _
  | cons member members ih =>
    refine Fine.bind hs (Fine.call hs (fine_openSessionsWith conv member hs)) ?_
    exact fun _ t ht _ => ih ht

theorem fine_createGroup (count : Nat) (name : Bytes) {s : Client K} (hs : Coherent s) :
    Fine P (createGroup P count name) s := by
  have hrest : ∀ (convId : ConvId) (conv : Ref) (members : List UserId) (me : UserId)
      {t : Client K}, Coherent t → Fine P (do
        exec (.addMembers conv members)
        exec (.register convId conv)
        exec (.setActive convId)
        call (restoreSessions conv)
        openEachMember conv members
        call (openSessionsWith conv me)
        call saveConversations
        call (saveSessions conv)
        call (sendPayload P (.annonce name))) t := by
    intro convId conv members me t ht
    refine Fine.act ht trivial fun u hu _ _ => ?_
    refine Fine.act hu trivial fun v hv _ _ => ?_
    refine Fine.act hv trivial fun w hw _ _ => ?_
    refine Fine.bind hw (Fine.call hw (fine_restoreSessions conv hw)) fun _ x hx _ => ?_
    refine Fine.bind hx (fine_openEachMember conv members hx) fun _ y hy _ => ?_
    refine Fine.bind hy (Fine.call hy (fine_openSessionsWith conv _ hy)) fun _ z hz _ => ?_
    refine Fine.bind hz (Fine.call hz (fine_saveConversations hz)) fun _ a ha _ => ?_
    refine Fine.bind ha (Fine.call ha (fine_saveSessions conv ha)) fun _ b hb _ => ?_
    exact Fine.call hb (fine_sendPayload _ hb)
  refine Fine.caught hs (Fine.bind hs (fine_lookupEach count hs) fun memberIds t ht _ => ?_)
  split
  · exact Fine.pure _ _
  · refine Fine.bind ht (Fine.ask ht trivial fun _ _ _ _ => trivial) fun convId u hu _ => ?_
    refine Fine.read ?_
    dsimp only
    split
    · exact hrest convId _ memberIds _ hu
    · exact Fine.act hu rfl fun v hv _ _ => hrest convId _ memberIds _ hv

theorem fine_refreshEach (conv : Ref) (n : Nat) (members : List UserId) {s : Client K}
    (hs : Coherent s) : Fine P (refreshEach conv n members) s := by
  induction members generalizing s with
  | nil => exact fine_moveNext _ _ _
  | cons member members ih =>
    refine Fine.bind hs (fine_moveNext _ _ _) fun _ t ht _ => ?_
    refine Fine.bind ht (Fine.call ht (fine_openSessionsWith conv member ht)) ?_
    exact fun _ u hu _ => ih hu

theorem fine_refreshGroupMembers {s : Client K} (hs : Coherent s) :
    Fine P (refreshGroupMembers (K := K)) s := by
  refine Fine.read ?_
  split
  · exact Fine.pure _ _
  · rename_i conv _
    split
    · exact Fine.pure _ _
    · refine Fine.caught hs ?_
      refine Fine.bind hs (Fine.ask hs trivial fun _ _ _ _ => trivial) fun membres t ht _ => ?_
      refine Fine.act ht trivial fun u hu _ _ => ?_
      refine Fine.act hu trivial fun v hv _ _ => Fine.read ?_
      refine Fine.bind hv (fine_refreshEach conv _ _ hv) fun _ w hw _ => ?_
      refine Fine.bind hw (Fine.call hw (fine_saveConversations hw)) fun _ x hx _ => ?_
      refine Fine.bind hx (Fine.call hx (fine_saveSessions conv hx)) ?_
      exact fun _ y _ _ => Fine.exec trivial

end ZiaCrypte.Chat

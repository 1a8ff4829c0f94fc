import ZiaCrypte.Chat.SafeSends

/-!
# Every receive is guarded

The poll loop installs a session for a sender it was told the account of only
after it compared the sender's key. With every body guarded, so is every event
of every run of the service.
-/
namespace ZiaCrypte.Chat

open ZiaCrypte.Engine ZiaCrypte.Lib
open ZiaCrypte.Lib.Async (raise orElse)

variable {K : Type} {P : Platform K}

theorem fine_field {α : Type} (x : Option α) (s : Client K) : Fine P (field x) s := by
  cases x with
  | none => exact Fine.raise _ _
  | some a => exact Fine.pure _ _

theorem fine_ouvrirScelle (brut : ServerMessage) {s : Client K} (hs : Coherent s) :
    Fine P (ouvrirScelle brut) s := by
  refine Fine.caught hs (Fine.bind hs (fine_field _ _) fun scelle t ht _ => ?_)
  refine Fine.bind ht (Fine.ask ht trivial fun _ _ _ _ => trivial) ?_
  exact fun json u _ _ => Fine.pure _ _

theorem fine_resolveConversation (m : ServerMessage) {s : Client K} (hs : Coherent s) :
    Fine P (resolveConversation m) s := by
  refine Fine.bind hs (fine_field _ _) fun convId t ht _ => Fine.read ?_
  split
  · rename_i existing _
    refine Fine.act ht trivial fun u hu _ _ => ?_
    refine Fine.bind hu (Fine.call hu (fine_restoreSessions existing hu)) ?_
    exact fun _ v _ _ => Fine.pure _ _
  · refine Fine.bind ht (fine_field _ _) fun sender u hu _ => ?_
    refine Fine.act hu rfl fun v hv _ _ => ?_
    refine Fine.bind hv (Fine.call hv (fine_readHistory hv)) fun _ w hw _ => ?_
    refine Fine.bind hw (Fine.call hw (fine_restoreSessions _ hw)) fun _ x hx _ => ?_
    exact Fine.act hx trivial fun y _ _ _ => Fine.pure _ _

theorem fine_recevoirCanal (m : ServerMessage) (canalId : ConvId) {s : Client K}
    (hs : Coherent s) : Fine P (recevoirCanal P m canalId) s := by
  refine Fine.read ?_
  split
  · rename_i conv sender _ _
    split
    · exact Fine.pure _ _
    · refine Fine.bind hs (Fine.attempt (Fine.bind hs (fine_field _ _) fun chiffre t ht _ =>
        Fine.ask ht trivial fun _ _ _ _ => trivial)) fun clair t ht _ => ?_
      split
      · exact Fine.pure _ _
      · split
        · refine Fine.bind ht (Fine.call ht (fine_saveHistory ht)) ?_
          exact fun _ u _ _ => Fine.pure _ _
        · refine Fine.bind ht (Fine.call ht (fine_saveHistory ht)) ?_
          exact fun _ u _ _ => Fine.pure _ _
        · exact Fine.pure _ _
  · exact Fine.pure _ _

theorem fine_appliquerControle (conv : Ref) (payload : Payload) (device : DeviceId)
    {s : Client K} (hs : Coherent s) : Fine P (appliquerControle conv payload device) s := by
  refine Fine.read (Fine.caught hs ?_)
  split
  · exact Fine.ask hs trivial fun _ _ _ _ => trivial
  · refine Fine.act hs trivial fun t ht _ _ => Fine.read ?_
    exact Fine.call ht (Fine.ask ht trivial fun _ _ _ _ => trivial)
  · exact Fine.call hs (fine_saveHistory hs)

theorem fine_applySyncPayload (convId : ConvId) (peerId : Option UserId) (group : Bool)
    (members : List UserId) {s : Client K} (hs : Coherent s) :
    Fine P (applySyncPayload convId peerId group members) s := by
  have hsave : ∀ (conv : Ref) {t : Client K}, Coherent t → Fine P (do
      exec (.addMembers conv members)
      call (saveHistory (K := K))
      call saveConversations) t := by
    intro conv t ht
    refine Fine.act ht trivial fun u hu _ _ => ?_
    refine Fine.bind hu (Fine.call hu (fine_saveHistory hu)) fun _ v hv _ => ?_
    exact Fine.call hv (fine_saveConversations hv)
  have hcomplete : ∀ (conv : Ref) {t : Client K}, Coherent t → Fine P (do
      exec (.completePeerUserId conv peerId)
      if group then exec (.setGroup conv) else pure ()
      exec (.addMembers conv members)
      call saveHistory
      call saveConversations) t := by
    intro conv t ht
    refine Fine.act ht trivial fun u hu _ _ => ?_
    dsimp only
    split
    · exact Fine.act hu trivial fun v hv _ _ => hsave conv hv
    · exact hsave conv hu
  refine Fine.caught hs (Fine.read ?_)
  dsimp only
  split
  · exact hcomplete _ hs
  · refine Fine.act hs rfl fun t ht _ _ => ?_
    exact Fine.act ht trivial fun u hu _ _ => hcomplete _ hu

theorem fine_receivePlain (conv : Ref) (sender : DeviceId) (clair : Bytes) (touched : List Ref)
    {s : Client K} (hs : Coherent s) : Fine P (receivePlain P conv sender clair touched) s := by
  unfold receivePlain
  split
  · refine Fine.bind hs (Fine.call hs (fine_applySyncPayload _ _ _ _ hs)) ?_
    exact fun _ t _ _ => Fine.pure _ _
  · exact Fine.act hs trivial fun t _ _ _ => Fine.pure _ _
  · exact Fine.pure _ _
  · refine Fine.bind hs (Fine.call hs (fine_appliquerControle conv _ sender hs)) ?_
    exact fun _ t _ _ => Fine.pure _ _

/-! ## Handshakes -/

/-- When the sender's account is known and nothing was refused, the key was compared. -/
theorem ok_identityRefused (sender : DeviceId) (senderUserId : Option UserId) (key : PublicKey)
    {n : Nat} {s : Client K} (hs : Coherent s) (hn : n ≤ s.journal.length) :
    Ok P (fun r t => r = .ok false → senderUserId ≠ none → Entry.checked sender key ∈ t.since n)
      (identityRefused sender senderUserId key) s := by
  unfold identityRefused
  split
  · exact fun _ hne => absurd rfl hne
  · rename_i user
    have hcheck : Ok P (fun r t => r = .ok () → Entry.checked sender key ∈ t.since n)
        (call (checkAndPin sender user key)) s :=
      Ok.call hs (ok_checkAndPin sender user key hs hn)
        fun r t u _ hgrows h hr => hgrows.mem_since (h hr)
    have hattempt : Ok P (fun r t => ∀ a, r = .ok (.ok a) → Entry.checked sender key ∈ t.since n)
        (call (checkAndPin sender user key)).attempt s :=
      (safe_attempt _).mpr (Safe.imp hcheck fun r t h a ha => h (Except.ok.inj ha))
    refine Ok.bind hs hattempt ?_ fun e t _ _ _ h => nomatch h
    · intro pinned t ht _ hpre
      split
      · exact fun _ _ => hpre _ rfl
      · exact Ok.act ht trivial fun u _ _ _ h => nomatch Except.ok.inj h
      · exact fun h => nomatch h

/-- A session that was taken up comes from the handshake in the message. -/
theorem ok_acceptSession (handshake : ZiaHandshakeMaterial) {s : Client K} (hs : Coherent s) :
    Ok P (fun r t => ∀ session, r = .ok session →
        ∃ n, t.originOf session = some (.accepted n handshake))
      (ask (.acceptSession handshake)) s := by
  refine Ok.ask hs trivial (fun _ _ _ _ => trivial)
    fun t x s₁ s₂ _ _ _ _ hgrows session hr => ?_
  cases x with
  | done =>
    cases haccept : ziaSessionAcceptHandshake P.toX3dhPrimitives s₁.engine handshake with
    | error rc => simp only [Request.answer, haccept] at hr; cases hr
    | ok opened =>
      simp only [Request.answer, haccept] at hr
      obtain rfl := Except.ok.inj hr
      refine ⟨s₁.nextOrigin, hgrows.sessions _ _ ?_⟩
      simp only [Request.settle, Request.carryOut, haccept, Client.originOf, Client.openSession,
        LinkedMap.get?_insert_self]
      rfl
  | _ => cases hr

theorem fine_acceptHandshake (conv : Ref) (m : ServerMessage) (sender : DeviceId)
    (unpacked : Envelope.Unpacked) {s : Client K} (hs : Coherent s) :
    Fine P (acceptHandshake conv m sender unpacked) s := by
  refine Fine.read ?_
  split
  · exact Fine.pure _ _
  · rename_i handshake _
    split
    · exact Fine.pure _ _
    · refine Ok.bind hs (ok_identityRefused sender m.senderUserId _ hs (Nat.le_refl _)) ?_
        fun _ _ _ _ _ => trivial
      intro refused t ht _ hchecked
      split
      · exact Fine.pure _ _
      · rename_i hrefused
        have hfalse : refused = false := Bool.not_eq_true _ ▸ hrefused
        have haccept : Ok P (fun r t => ∀ session, r = .ok (.ok session) →
            ∃ n, t.originOf session = some (.accepted n handshake))
            (ask (.acceptSession handshake)).attempt t :=
          (safe_attempt _).mpr
            (Safe.imp (ok_acceptSession handshake ht) fun r t h a ha => h a (Except.ok.inj ha))
        refine Ok.bind ht haccept ?_ fun _ _ _ _ _ => trivial
        intro session u hu hgrows horigin
        split
        · exact Fine.pure _ _
        · refine Fine.act hu ⟨horigin _ rfl, ?_⟩ fun v hv _ _ => ?_
          · cases huser : m.senderUserId with
            | none => trivial
            | some user =>
              have hknown : m.senderUserId ≠ none := huser ▸ Option.some_ne_none user
              exact hgrows.mem_since (hchecked (by rw [hfalse]) hknown)
          · exact Fine.act hv trivial fun w _ _ _ => Fine.pure _ _

theorem fine_receivePairwise (conv : Ref) (m : ServerMessage) (sender : DeviceId) (entete : Bytes)
    (touched : List Ref) {s : Client K} (hs : Coherent s) :
    Fine P (receivePairwise P conv m sender entete touched) s := by
  refine Fine.bind hs (fine_field _ _) fun unpacked t ht _ => ?_
  refine Fine.bind ht (fine_acceptHandshake conv m sender unpacked ht) fun goesOn u hu _ => ?_
  refine Fine.read ?_
  split
  · rename_i session hsession
    have hinstalled : WasInstalled u (u.conversation conv).id sender session :=
      hu.installed conv sender session hsession
    have hlt := (hasSession_of_sessionOf hsession).1
    refine Fine.bind hu (Fine.attempt (Fine.bind hu (fine_field _ _) fun chiffre v hv _ =>
      Fine.ask hv trivial fun _ _ _ _ => trivial)) ?_
    intro clair v hv hgrows
    split
    · exact Fine.pure _ _
    · have hopened : Guard (.act (.opened conv sender session)) v := by
        change WasInstalled v (v.conversation conv).id sender session
        rw [(hgrows.objects conv hlt).2.1]
        exact hinstalled.grows hgrows
      exact Fine.act hv hopened fun w hw _ _ => fine_receivePlain conv sender _ touched hw
  · exact Fine.pure _ _

theorem fine_receiveGroup (conv : Ref) (m : ServerMessage) (sender : DeviceId)
    (touched : List Ref) {s : Client K} (hs : Coherent s) :
    Fine P (receiveGroup P conv m sender touched) s := by
  refine Fine.read ?_
  refine Fine.bind hs (Fine.attempt (Fine.bind hs (fine_field _ _) fun chiffre t ht _ =>
    Fine.ask ht trivial fun _ _ _ _ => trivial)) fun clair t ht _ => ?_
  split
  · exact Fine.pure _ _
  · exact fine_receivePlain conv sender _ touched ht

/-- What follows the opening of the sealed envelope. -/
theorem fine_processMessage_opened (o : Option ServerMessage) (touched : List Ref)
    {s : Client K} (hs : Coherent s) : Fine P (
      match o with
      | none => pure touched
      | some m =>
          match m.channelId with
          | some canalId => do
              let c ← call (recevoirCanal P m canalId)
              match c with
              | none => pure touched
              | some conv => pure (touch touched conv)
          | none => do
              let conv ← call (resolveConversation m)
              let sender ← field m.senderDeviceId
              let enteteBrute ← field m.header
              if Envelope.estGroupe enteteBrute then receiveGroup P conv m sender touched
              else receivePairwise P conv m sender enteteBrute touched) s := by
  split
  · exact Fine.pure _ _
  · rename_i m
    split
    · refine Fine.bind hs (Fine.call hs (fine_recevoirCanal m _ hs)) fun c t ht _ => ?_
      split <;> exact Fine.pure _ _
    · refine Fine.bind hs (Fine.call hs (fine_resolveConversation m hs)) fun conv t ht _ => ?_
      refine Fine.bind ht (fine_field _ _) fun sender u hu _ => ?_
      refine Fine.bind hu (fine_field _ _) fun entete v hv _ => ?_
      split
      · exact fine_receiveGroup conv m sender touched hv
      · exact fine_receivePairwise conv m sender entete touched hv

theorem fine_processMessage (brut : ServerMessage) (touched : List Ref) {s : Client K}
    (hs : Coherent s) : Fine P (processMessage P brut touched) s := by
  unfold processMessage
  split
  · refine Fine.bind hs (Fine.call hs (fine_ouvrirScelle brut hs)) fun o t ht _ => ?_
    exact fine_processMessage_opened o touched ht
  · exact Fine.bind hs (Fine.pure _ _) fun o t ht _ => fine_processMessage_opened o touched ht

theorem fine_processEach (incoming : List ServerMessage) (touched : List Ref) {s : Client K}
    (hs : Coherent s) : Fine P (processEach P incoming touched) s := by
  induction incoming generalizing touched s with
  | nil => exact Fine.pure _ _
  | cons brut rest ih =>
    exact Fine.bind hs (fine_processMessage brut touched hs) fun touched' t ht _ => ih touched' ht

theorem fine_saveTouched (convs : List Ref) {s : Client K} (hs : Coherent s) :
    Fine P (saveTouched P convs) s := by
  induction convs generalizing s with
  | nil => exact Fine.pure _ _
  | cons conv convs ih =>
    refine Fine.bind hs (Fine.call hs (fine_saveHistory hs)) fun _ t ht _ => ?_
    refine Fine.bind ht (Fine.call ht (fine_saveSessions conv ht)) fun _ u hu _ => Fine.read ?_
    dsimp only
    split
    · exact Fine.bind hu (Fine.call hu (fine_marquerLu conv hu)) fun _ v hv _ => ih hv
    · exact ih hu

theorem fine_pollOnce {s : Client K} (hs : Coherent s) : Fine P (pollOnce P) s := by
  refine Fine.caught hs ?_
  refine Fine.bind hs (Fine.ask hs trivial fun _ _ _ _ => trivial) fun incoming t ht _ => ?_
  refine Fine.bind ht (fine_processEach incoming [] ht) fun touched u hu _ => ?_
  refine Fine.bind hu (fine_saveTouched touched hu) fun _ v hv _ => ?_
  split
  · exact Fine.pure _ _
  · exact Fine.call hv (fine_saveConversations hv)

/-! ## Call signals -/

theorem fine_openSignal (conv : Ref) (signal : CallSignal) {s : Client K} (hs : Coherent s) :
    Fine P (openSignal conv signal) s := by
  refine Fine.caught hs (Fine.bind hs (fine_field _ _) fun unpacked t ht _ => ?_)
  have hsession : Fine P (sessionForSignal conv signal.sender unpacked) t := by
    refine Fine.read ?_
    split
    · exact Fine.pure _ _
    · split
      · exact Fine.pure _ _
      · refine Ok.bind ht (ok_acceptSession _ ht) ?_ fun _ _ _ _ _ => trivial
        intro session u hu _ horigin
        exact Fine.act hu ⟨horigin session rfl, trivial⟩ fun v _ _ _ => Fine.pure _ _
  refine Fine.bind ht hsession fun session u hu _ => ?_
  split
  · exact Fine.pure _ _
  · refine Fine.bind hu (Fine.ask hu trivial fun _ _ _ _ => trivial) ?_
    exact fun _ v _ _ => Fine.pure _ _

theorem fine_recevoirSignalAppel (signal : CallSignal) (decline : Bytes) {s : Client K}
    (hs : Coherent s) : Fine P (recevoirSignalAppel signal decline) s := by
  refine Fine.read ?_
  split
  · exact Fine.pure _ _
  · rename_i conv _
    refine Fine.bind hs (fine_openSignal conv signal hs) fun clair t ht _ => ?_
    split
    · refine Fine.read ?_
      split
      · exact Fine.call ht (fine_envoyerSignalAppel conv _ _ ht)
      · exact Fine.exec trivial
    · exact Fine.pure _ _

/-! ## Every run -/

theorem fine_onConversation (id : ConvId) {body : Ref → Task K Unit} {s : Client K}
    (hbody : ∀ conv, Fine P (body conv) s) : Fine P (onConversation id body) s := by
  refine Fine.read ?_
  split
  · exact Fine.pure _ _
  · exact hbody _

theorem fine_program (t : ServiceTask) {s : Client K} (hs : Coherent s) :
    Fine P (t.program P) s := by
  cases t with
  | adoptSession => exact fine_adoptSession hs
  | openConversation id => exact fine_openConversation id hs
  | startChatWith statut => exact fine_startChatWith statut hs
  | createGroup count name => exact fine_createGroup count name hs
  | refreshGroupMembers => exact fine_refreshGroupMembers hs
  | send payload => exact fine_sendPayload payload hs
  | diffuserControle id charge =>
    exact fine_onConversation id fun conv => fine_diffuserControle conv _ hs
  | backfillSibling sibling anciens => exact Fine.read (fine_backfillEach sibling anciens _ hs)
  | viderFileJeton => exact fine_viderFileJeton hs
  | publierJeton => exact fine_publierJeton hs
  | signalAppel id device data =>
    exact fine_onConversation id fun conv => fine_envoyerSignalAppel conv device data hs
  | recevoirSignalAppel signal decline => exact fine_recevoirSignalAppel signal decline hs
  | terminerAppel => exact Fine.exec trivial
  | pollOnce => exact fine_pollOnce hs
  | saveConversations => exact fine_saveConversations hs
  | acceptIdentityChange device => exact fine_acceptIdentityChange device hs
  | markVerified device verified => exact fine_markVerified device verified hs

/-- Whatever the schedule, the events of a run are guarded and lead to where it ends. -/
theorem chatRun_isSafe {user : UserId} {device : DeviceId} {engine : ZiaEngine K}
    {choices : List (ChatChoice K)} {p : ChatPool K}
    (h : chatRun P user device engine choices = some p) :
    p.IsSafe (chatSemantics P) Guard (.initial user device engine) :=
  Pool.run_isSafe Coherent (fun _ _ hs hguard => (hguard.advances P hs).1)
    (fun t _ hs _ => fine_program t hs) (fun _ => trivial)
    (coherent_initial user device engine) h

/-- What guarded events that meet `Cond` keep, and what follows from it at each of
them, holds all along every run whose events meet `Cond`. -/
theorem chatRun_always (Inv : Client K → Prop) {Cond Goal : ChatEvent K → Client K → Prop}
    (hstep : ∀ e s, Inv s → Coherent s → Guard e s → Cond e s →
      Inv ((chatSemantics P).apply e s) ∧ Goal e s)
    {user : UserId} {device : DeviceId} {engine : ZiaEngine K}
    (hinit : Inv (.initial user device engine)) {choices : List (ChatChoice K)} {p : ChatPool K}
    (h : chatRun P user device engine choices = some p)
    (hcond : Always (chatSemantics P).step Cond p.trace (.initial user device engine)) :
    Inv p.state ∧ Always (chatSemantics P).step Goal p.trace (.initial user device engine) := by
  have hsafe := chatRun_isSafe h
  have hboth := hsafe.guarded.and hcond
  have hkeep : ∀ e s t, Inv s ∧ Coherent s → Guard e s ∧ Cond e s →
      (chatSemantics P).step e s = some t → Inv t ∧ Coherent t := by
    rintro e s t ⟨hinv, hcoh⟩ ⟨hguard, hc⟩ ht
    obtain rfl := Option.some.inj ht
    exact ⟨(hstep e s hinv hcoh hguard hc).1, (hguard.advances P hcoh).1⟩
  have hstart := And.intro hinit (coherent_initial user device engine)
  refine ⟨(run_invariant_of_always _ hkeep hstart hboth hsafe.replay).1, ?_⟩
  exact always_of_invariant _ hkeep
    (fun e s hs hgc => (hstep e s hs.1 hs.2 hgc.1 hgc.2).2) hstart hboth

end ZiaCrypte.Chat

import ZiaCrypte.Sending.Guards

/-!
# The sendings and the checks keep to their guards

Whatever other bodies do at their awaits.
-/
namespace ZiaCrypte.Sending

open ZiaCrypte.Lib ZiaCrypte.Engine
open ZiaCrypte.Server (Uuid Auth Database MessageBlob SendBody GroupSendBody)
open ZiaCrypte.Inbox (Text ChatMessage AttachmentRef)

variable {nom : Uuid → Text} {s s' : Monde}

/-! ## Waiting -/

theorem Pas.refl (s : Monde) : Pas s s := .of_same rfl rfl rfl

theorem Pas.trans {s'' : Monde} (h : Pas s s') (h' : Pas s' s'') : Pas s s'' := by
  refine ⟨⟨h'.plus.me.trans h.plus.me, List.Subset.trans h.plus.copies h'.plus.copies,
    List.Subset.trans h.plus.recepisses h'.plus.recepisses,
    List.Subset.trans h.plus.releves h'.plus.releves,
    List.Subset.trans h.plus.ecritures h'.plus.ecritures⟩,
    ⟨Nat.le_trans h.suivent.cle h'.suivent.cle, ?_⟩,
    fun hrangs => h'.rangs (h.rangs hrangs)⟩
  intro b'' hb''
  rcases h'.suivent.rangs b'' hb'' with ⟨b', hb', hmeme'⟩ | hnew
  · rcases h.suivent.rangs b' hb' with ⟨b, hb, hmeme⟩ | hnew
    · exact .inl ⟨b, hb, hmeme'.id.trans hmeme.id, hmeme'.recipient.trans hmeme.recipient,
        hmeme'.copie.trans hmeme.copie, hmeme'.sender.trans hmeme.sender⟩
    · refine .inr ?_
      rw [hmeme'.id]
      exact hnew
  · exact .inr (Nat.le_trans h.suivent.cle hnew)

abbrev OutReach (nom : Uuid → Text) (s s' : Monde) : Prop :=
  Reach (outboxSemantics nom) (OutboxGuard nom) s s'

/-- A body all of whose events meet their guards. -/
abbrev OutSafe (nom : Uuid → Text) {α : Type} (post : Except Unit α → Monde → Prop)
    (x : Task α) (s : Monde) : Prop :=
  Safe (outboxSemantics nom) (OutboxGuard nom) post x s

theorem OutReach.pas (h : OutReach nom s s') : Pas s s' :=
  Reach.stable (P := fun t => Pas s t)
    (fun _ _ halive hguard hpas => hpas.trans (pas_event halive hguard)) h (.refl s)

theorem Tient.pas {device : Uuid} {pending : List MessageBlob} (h : Tient device pending s)
    (hpas : Pas s s') : Tient device pending s' := by
  intro b hb
  obtain ⟨hcle, hrangs⟩ := h b hb
  refine ⟨Nat.lt_of_lt_of_le hcle hpas.suivent.cle, fun b' hb' hid => ?_⟩
  rcases hpas.suivent.rangs b' hb' with ⟨b₀, hb₀, hmeme⟩ | hnew
  · obtain ⟨hrecipient, hcopie, hsender⟩ := hrangs b₀ hb₀ (hmeme.id.symm.trans hid)
    exact ⟨hmeme.recipient.trans hrecipient, hmeme.copie.trans hcopie,
      hmeme.sender.trans hsender⟩
  · rw [hid] at hnew
    exact absurd hcle (Nat.not_lt.mpr hnew)

/-- The rows a poll reads are its own. -/
theorem tient_selectPending (h : Rangs s) (device : Uuid) :
    Tient device (Server.selectPending s.db.messageBlobs device) s := by
  intro b hb
  obtain ⟨hmem, -⟩ := Server.mem_selectPending hb
  refine ⟨h.cles b hmem, fun b' hb' hid => ?_⟩
  obtain rfl : b' = b := List.inj_on_of_nodup_map h.uniques hb' hmem hid
  have hfilter := (List.mem_insertionSort _).mp (List.mem_of_mem_take hb)
  have hdevice := (List.mem_filter.mp hfilter).2
  rw [Bool.and_eq_true, beq_iff_eq] at hdevice
  exact ⟨hdevice.1, rfl, rfl⟩

/-! ## Rules -/

/-- A request whose events have guards that hold. -/
theorem outSafe_request {q : Request} {post : Except Unit (Reply q) → Monde → Prop}
    (hissue : OutboxGuard nom (.issue q) s)
    (hsettle : ∀ s₁, Pas (q.issue s) s₁ → ∀ x, OutboxGuard nom (.settle s.nextTicket q x) s₁ ∧
      (Pas s₁ (q.settle x s₁) → ∀ s₂, Pas (q.settle x s₁) s₂ → post (q.answer nom x s₁) s₂)) :
    OutSafe nom post (Async.request q : Task (Reply q)) s := by
  refine ⟨hissue, fun s₁ hs₁ x _ => ?_⟩
  obtain ⟨hguard, hpost⟩ := hsettle s₁ (OutReach.pas hs₁) x
  exact ⟨hguard, fun s₂ hs₂ => hpost (pas_settle hguard) s₂ (OutReach.pas hs₂)⟩

/-- A request without guards, of whose answer nothing is used. -/
theorem outSafe_free {q : Request} {post : Except Unit (Reply q) → Monde → Prop}
    (hissue : OutboxGuard nom (.issue q) s)
    (hsettle : ∀ s₁ x, OutboxGuard nom (.settle s.nextTicket q x) s₁)
    (h : ∀ r s', Pas s s' → post r s') :
    OutSafe nom post (Async.request q : Task (Reply q)) s :=
  outSafe_request hissue fun s₁ hs₁ x =>
    ⟨hsettle s₁ x, fun hx s₂ hs₂ => h _ s₂ ((pas_issue q s).trans (hs₁.trans (hx.trans hs₂)))⟩

/-- A request nothing is asked of. -/
theorem outSafe_any {q : Request} (hissue : OutboxGuard nom (.issue q) s)
    (hsettle : ∀ s₁ x, OutboxGuard nom (.settle s.nextTicket q x) s₁) :
    OutSafe nom (fun _ _ => True) (Async.request q : Task (Reply q)) s :=
  outSafe_free hissue hsettle fun _ _ _ => trivial

theorem copie_of_acceptee {envoi : Nat} {copie : Uuid} {call : Server.Call} {now : Nat}
    {received : Bool} (h : s.acceptee call now received = .ok ()) :
    (envoi, copie) ∈ (s.deposerEnvoi envoi copie call now).copies := by
  unfold Monde.acceptee at h
  split at h
  · rename_i hok
    unfold Monde.deposerEnvoi
    rw [hok]
    exact List.mem_cons_self
  · cases h

/-- A message is sent when the server has accepted it. -/
theorem outSafe_sendMessage {envoi : Nat} {body : SendBody}
    {post : Except Unit Unit → Monde → Prop}
    (hok : ∀ s', Pas s s' → (envoi, body.clientMessageId) ∈ s'.copies → post (.ok ()) s')
    (herror : ∀ s', Pas s s' → post (.error ()) s') :
    OutSafe nom post (Async.request (Request.sendMessage envoi body)) s := by
  refine outSafe_request trivial fun s₁ hs₁ x => ⟨trivial, fun hx s₂ hs₂ => ?_⟩
  have hpas : Pas s s₂ := (pas_issue _ s).trans (hs₁.trans (hx.trans hs₂))
  cases x with
  | handled now received =>
    show post (s₁.acceptee (.postMessages body) now received) s₂
    cases haccepted : s₁.acceptee (.postMessages body) now received with
    | error e => exact herror s₂ hpas
    | ok u => exact hok s₂ hpas (hs₂.plus.copies (copie_of_acceptee haccepted))
  | _ => exact herror s₂ hpas

theorem outSafe_sendGroupMessage {envoi : Nat} {body : GroupSendBody}
    {post : Except Unit Unit → Monde → Prop}
    (hok : ∀ s', Pas s s' → (envoi, body.clientMessageId) ∈ s'.copies → post (.ok ()) s')
    (herror : ∀ s', Pas s s' → post (.error ()) s') :
    OutSafe nom post (Async.request (Request.sendGroupMessage envoi body)) s := by
  refine outSafe_request trivial fun s₁ hs₁ x => ⟨trivial, fun hx s₂ hs₂ => ?_⟩
  have hpas : Pas s s₂ := (pas_issue _ s).trans (hs₁.trans (hx.trans hs₂))
  cases x with
  | handled now received =>
    show post (s₁.acceptee (.postMessagesGroup body) now received) s₂
    cases haccepted : s₁.acceptee (.postMessagesGroup body) now received with
    | error e => exact herror s₂ hpas
    | ok u => exact hok s₂ hpas (hs₂.plus.copies (copie_of_acceptee haccepted))
  | _ => exact herror s₂ hpas

/-- A sending that succeeds leaves a copy. -/
theorem outSafe_sendMessage_copie {envoi : Nat} {body : SendBody} :
    OutSafe nom (fun r s' => r = .ok () → (envoi, body.clientMessageId) ∈ s'.copies)
      (Async.request (Request.sendMessage envoi body)) s :=
  outSafe_sendMessage (fun _ _ hcopie _ => hcopie) fun _ _ h => by cases h

theorem outSafe_sendGroupMessage_copie {envoi : Nat} {body : GroupSendBody} :
    OutSafe nom (fun r s' => r = .ok () → (envoi, body.clientMessageId) ∈ s'.copies)
      (Async.request (Request.sendGroupMessage envoi body)) s :=
  outSafe_sendGroupMessage (fun _ _ hcopie _ => hcopie) fun _ _ h => by cases h

theorem outSafe_bind {α β : Type} {Q : Except Unit α → Monde → Prop}
    {post : Except Unit β → Monde → Prop} {x : Task α} {f : α → Task β}
    (hx : OutSafe nom Q x s) (hf : ∀ a s', Pas s s' → Q (.ok a) s' → OutSafe nom post (f a) s')
    (herror : ∀ s', Pas s s' → Q (.error ()) s' → post (.error ()) s') :
    OutSafe nom post (x >>= f) s := by
  rw [OutSafe, safe_bind]
  refine hx.mono fun r s' hreach hr => ?_
  cases r with
  | ok a => exact hf a s' (OutReach.pas hreach) hr
  | error e => exact herror s' (OutReach.pas hreach) hr

theorem outSafe_get {α : Type} {post : Except Unit α → Monde → Prop} {f : Monde → Task α}
    (h : OutSafe nom post (f s) s) : OutSafe nom post (Async.get >>= f) s := h

theorem outSafe_exec {α : Type} {post : Except Unit α → Monde → Prop} {a : Stmt}
    {f : Unit → Task α} (ha : a.Guard nom s) (h : OutSafe nom post (f ()) (a.apply s)) :
    OutSafe nom post (Async.exec a >>= f) s := ⟨ha, h⟩

theorem outSafe_uuidV4 {α : Type} {post : Except Unit α → Monde → Prop} {f : Uuid → Task α}
    (h : OutSafe nom post (f s.uuid) (Stmt.tirer.apply s)) :
    OutSafe nom post (uuidV4 >>= f) s := ⟨trivial, h⟩

/-- A body that is caught. -/
theorem outSafe_orElse {α : Type} {post : Except Unit α → Monde → Prop} {x : Task α}
    {h : Unit → Task α}
    (hx : OutSafe nom (Continues (fun a s' => post (.ok a) s')
      (fun e s' => OutSafe nom post (h e) s')) x s) :
    OutSafe nom post (Async.orElse x h) s := by
  rw [OutSafe, safe_orElse]
  exact hx

/-! ## The sendings -/

/-- What the paths of a sending come to: with a device that was reached there is an accepted
copy, and the receipts are recorded. -/
def Resultat (envoi : Nat) : Except Unit (Nat × List Uuid) → Monde → Prop
  | .ok r, s => (0 < r.1 → s.Accepte envoi) ∧ ∀ copie ∈ r.2, (envoi, copie) ∈ s.recepisses
  | .error _, _ => True

theorem resultat_rien (envoi : Nat) (s : Monde) : Resultat envoi (.ok (0, [])) s :=
  ⟨fun h => absurd h (Nat.lt_irrefl 0), fun _ h => absurd h List.not_mem_nil⟩

theorem envoyerGroupe_safe (conv : Uuid) (envoi : Nat) (s : Monde) :
    OutSafe nom (Resultat envoi) (envoyerGroupe conv envoi) s := by
  refine outSafe_get ?_
  split
  · refine outSafe_bind (outSafe_any trivial fun _ _ => trivial) (fun ok s₁ _ _ => ?_)
      fun _ _ _ => trivial
    split
    · refine outSafe_get (outSafe_orElse ?_)
      refine outSafe_bind (outSafe_any trivial fun _ _ => trivial) (fun chiffre s₂ _ _ => ?_)
        fun s' _ _ => resultat_rien envoi s'
      refine outSafe_uuidV4 (outSafe_bind outSafe_sendGroupMessage_copie
        (fun _ s₃ _ hcopie => ?_) fun s' _ _ => resultat_rien envoi s')
      refine outSafe_exec (hcopie rfl) ⟨fun _ => ⟨_, hcopie rfl⟩, fun copie hmem => ?_⟩
      obtain rfl := List.mem_singleton.mp hmem
      exact List.mem_cons_self
    · exact resultat_rien envoi s₁
  · exact resultat_rien envoi s

theorem envoyerA_safe (conv : Uuid) (envoi : Nat) (device : Uuid) (s : Monde) :
    OutSafe nom (Resultat envoi) (envoyerA conv envoi device) s := by
  refine outSafe_get ?_
  split
  · refine outSafe_orElse ?_
    refine outSafe_bind (outSafe_any trivial fun _ _ => trivial) (fun enc s₁ _ _ => ?_)
      fun s' _ _ => resultat_rien envoi s'
    refine outSafe_uuidV4 (outSafe_bind outSafe_sendMessage_copie (fun _ s₂ _ hcopie => ?_)
      fun s' _ _ => resultat_rien envoi s')
    refine outSafe_get ?_
    split
    · exact ⟨fun _ => ⟨_, hcopie rfl⟩, fun _ h => absurd h List.not_mem_nil⟩
    · refine outSafe_exec (hcopie rfl) ⟨fun _ => ⟨_, hcopie rfl⟩, fun copie hmem => ?_⟩
      obtain rfl := List.mem_singleton.mp hmem
      exact List.mem_cons_self
  · exact resultat_rien envoi s

/-- What one part of a sending came to still holds when the next is done. -/
theorem Resultat.et {envoi : Nat} {r r' : Nat × List Uuid} (h : Resultat envoi (.ok r) s)
    (hpas : Pas s s') (h' : Resultat envoi (.ok r') s') :
    Resultat envoi (.ok (r.1 + r'.1, r.2 ++ r'.2)) s' := by
  constructor
  · intro hlt
    by_cases hr : 0 < r.1
    · obtain ⟨copie, hcopie⟩ := h.1 hr
      exact ⟨copie, hpas.plus.copies hcopie⟩
    · have hr' : 0 < r.1 + r'.1 := hlt
      exact h'.1 (by omega)
  · intro copie hmem
    rcases List.mem_append.mp hmem with hold | hnew
    · exact hpas.plus.recepisses (h.2 copie hold)
    · exact h'.2 copie hnew

theorem envoyerChacun_safe (conv : Uuid) (envoi : Nat) (devices : List Uuid) (s : Monde) :
    OutSafe nom (Resultat envoi) (envoyerChacun conv envoi devices) s := by
  induction devices generalizing s with
  | nil => exact resultat_rien envoi s
  | cons device devices ih =>
    refine outSafe_bind (envoyerA_safe conv envoi device s) (fun un s₁ _ hun => ?_)
      fun _ _ _ => trivial
    exact outSafe_bind (ih s₁) (fun reste s₂ hpas hreste => hun.et hpas hreste)
      fun _ _ _ => trivial

theorem diffuser_safe (conv : Uuid) (envoi : Nat) (s : Monde) :
    OutSafe nom (Resultat envoi) (diffuser conv envoi) s := by
  refine outSafe_bind (envoyerGroupe_safe conv envoi s) (fun groupe s₁ _ hgroupe => ?_)
    fun _ _ _ => trivial
  split
  · exact hgroupe
  · rename_i hzero
    refine outSafe_get (outSafe_bind (envoyerChacun_safe conv envoi _ s₁)
      (fun chacun s₂ hpas hchacun => ?_) fun _ _ _ => trivial)
    have hboth := hgroupe.et hpas hchacun
    rw [Nat.eq_zero_of_not_pos hzero, Nat.zero_add] at hboth
    exact hboth

theorem saveHistory_safe (conv : Uuid) (s : Monde) :
    OutSafe nom (fun _ _ => True) (saveHistory conv) s := by
  refine outSafe_get (outSafe_request rfl fun s₁ hs₁ x => ⟨?_, fun _ _ _ => trivial⟩)
  exact hs₁.plus.ecritures List.mem_cons_self

theorem inscrire_safe (conv : Uuid) (texte : Text) (attachment : Option AttachmentRef)
    (citation : Option ChatMessage) (now : Int) {envoi : Nat} {r : Nat × List Uuid}
    (h : Resultat envoi (.ok r) s) :
    OutSafe nom (fun _ _ => True) (inscrire nom conv texte attachment citation now envoi r) s := by
  unfold inscrire
  split
  · exact ⟨trivial, trivial⟩
  · refine outSafe_get (outSafe_exec ?_ (outSafe_exec trivial ?_))
    · refine ⟨nofun, fun n hn => ?_, fun n hn t ht => ?_⟩
      · obtain rfl := Option.some.inj hn
        by_cases hzero : r.1 = 0
        · exact .inl (decide_eq_true hzero)
        · exact .inr (h.1 (Nat.pos_of_ne_zero hzero))
      · obtain rfl := Option.some.inj hn
        obtain ⟨copie, hcopie, rfl⟩ := List.mem_map.mp ht
        exact ⟨copie, h.2 copie hcopie, rfl⟩
    · split
      · trivial
      · exact saveHistory_safe conv _

theorem sendPayload_safe (texte : Text) (attachment : Option AttachmentRef) (now : Int)
    (s : Monde) : OutSafe nom (fun _ _ => True) (sendPayload nom texte attachment now) s := by
  refine outSafe_get ?_
  split
  · trivial
  · rename_i conv _
    split
    · refine outSafe_orElse (outSafe_uuidV4 (outSafe_bind (diffuser_safe conv s.uuid _)
        (fun r s₁ _ hr => ?_) fun _ _ _ => trivial))
      refine (inscrire_safe conv texte attachment s.replyingTo now hr).imp fun r' s₂ _ => ?_
      cases r' <;> trivial
    · trivial

/-- A change that neither a sending nor a check makes is free. -/
theorem guard_retoucher {conv : Uuid} {r : Retouche} (h : r.libre = true) :
    (Stmt.retoucher conv r).Guard nom s := by
  cases r with
  | ajouter l => cases h
  | remettre remis => cases h
  | _ => trivial

theorem guard_libre {a : Stmt} (h : a.libre = true) : a.Guard nom s := by
  cases a with
  | retoucher conv r => exact guard_retoucher h
  | recepisse envoi copie => cases h
  | _ => trivial

theorem renvoyer_safe (l : Ligne) (now : Int) (s : Monde) :
    OutSafe nom (fun _ _ => True) (renvoyer nom l now) s := by
  unfold renvoyer
  split
  · trivial
  · refine outSafe_get ?_
    split
    · trivial
    · exact outSafe_exec trivial (outSafe_exec trivial (sendPayload_safe _ _ _ _))

/-! ## The checks -/

/-- The server reports what devices have fetched. -/
theorem rapporte_status (h : Rangs s) (ids : List Text) : Rapporte nom (s.status nom ids) s := by
  intro t ht
  obtain ⟨b, hb, rfl⟩ := List.mem_map.mp ht
  obtain ⟨hmem, hwhere⟩ := List.mem_filter.mp hb
  rw [Bool.and_eq_true, Bool.and_eq_true, decide_eq_true_iff] at hwhere
  obtain ⟨⟨hsender, -⟩, hdelivered⟩ := hwhere
  exact ⟨_, _, h.releves b hmem hsender (Option.isSome_iff_ne_none.mp hdelivered), rfl⟩

theorem Rapporte.pas {remis : List Text} (h : Rapporte nom remis s) (hpas : Pas s s') :
    Rapporte nom remis s' := by
  intro t ht
  obtain ⟨device, copie, hmem, heq⟩ := h t ht
  exact ⟨device, copie, hpas.plus.releves hmem, heq⟩

theorem remettreChacun_safe (remis : List Text) (convs : List Uuid) {s : Monde}
    (h : Rapporte nom remis s) :
    OutSafe nom (fun _ _ => True) (remettreChacun remis convs) s := by
  induction convs generalizing s with
  | nil => trivial
  | cons conv convs ih =>
    refine outSafe_get (outSafe_exec h ?_)
    have hlater := h.pas (pas_act (.retoucher conv (.remettre remis)) s)
    dsimp only
    split
    · exact outSafe_bind (saveHistory_safe conv _) (fun _ s₁ hpas _ => ih (hlater.pas hpas))
        fun _ _ _ => trivial
    · exact ih hlater

theorem answer_deliveredAmong {ids remis : List Text} {x : Outside}
    (h : (Request.deliveredAmong ids).answer nom x s = .ok remis) :
    remis = s.status nom ids := by
  cases x with
  | handled now received =>
    cases received with
    | false => cases h
    | true =>
      unfold Request.answer at h
      dsimp only at h
      split at h
      · exact (Except.ok.inj h).symm
      · cases h
  | _ => cases h

theorem checkDeliveries_safe (h : Rangs s) :
    OutSafe nom (fun _ _ => True) checkDeliveries s := by
  refine outSafe_get ?_
  split
  · trivial
  · have hask : OutSafe nom (fun r s' => ∀ remis, r = .ok remis → Rapporte nom remis s')
        (Async.request (Request.deliveredAmong s.aConfirmer) : Task (List Text)) s := by
      refine outSafe_request trivial fun s₁ hs₁ x => ⟨trivial, fun _ s₂ hs₂ remis hremis => ?_⟩
      have hrangs : Rangs s₁ := hs₁.rangs ((pas_issue _ s).rangs h)
      rw [answer_deliveredAmong hremis]
      exact (rapporte_status hrangs _).pas hs₂
    have hcaught : OutSafe nom (fun r s' => ∀ remis, r = .ok (.ok remis) → Rapporte nom remis s')
        ((Async.request (Request.deliveredAmong s.aConfirmer) : Task (List Text)).attempt) s := by
      rw [OutSafe, safe_attempt]
      exact hask.imp fun r s' hr remis heq => hr remis (Except.ok.inj heq)
    refine outSafe_bind hcaught (fun r s₁ _ hr => ?_) fun _ _ _ => trivial
    cases r with
    | error e => trivial
    | ok remis =>
      dsimp only
      split
      · trivial
      · exact outSafe_get (remettreChacun_safe remis _ (hr remis rfl))

theorem getMessages_safe (claims : Server.Claims) (h : Rangs s) :
    OutSafe nom (fun _ _ => True) (getMessages claims) s := by
  refine outSafe_get ?_
  split
  · trivial
  · dsimp only
    split
    · trivial
    · refine outSafe_request trivial fun s₁ hs₁ x => ⟨?_, fun _ _ _ => trivial⟩
      exact (tient_selectPending h _).pas ((pas_issue _ s).trans hs₁)

/-! ## Runs -/

theorem program_safe (task : OutboxTask) {s : Monde} (h : Rangs s)
    (hallowed : task.allowed s = true) : OutSafe nom (fun _ _ => True) (task.program nom) s := by
  cases task with
  | sendPayload texte attachment now => exact sendPayload_safe texte attachment now s
  | renvoyer l now => exact renvoyer_safe l now s
  | retoucher conv r => exact ⟨guard_retoucher hallowed, trivial⟩
  | retoucherEtSauver conv r =>
    exact outSafe_exec (guard_retoucher hallowed) (saveHistory_safe conv _)
  | saveHistory conv => exact saveHistory_safe conv s
  | checkDeliveries => exact checkDeliveries_safe h
  | getMessages claims => exact getMessages_safe claims h
  | autre a => exact ⟨guard_libre hallowed, trivial⟩

theorem Rangs.initial (me : Auth) (db : Database) : Rangs (.initial me db) where
  cles _ hb := absurd hb List.not_mem_nil
  uniques := List.nodup_nil
  releves _ hb := absurd hb List.not_mem_nil

/-- The rows keep their invariant through a crash too. -/
theorem Rangs.event (h : Rangs s) {e : OutboxEvent} (hguard : OutboxGuard nom e s) :
    Rangs ((outboxSemantics nom).apply e s) := by
  by_cases halive : e = .crash
  · rw [halive]
    exact ⟨h.cles, h.uniques, h.releves⟩
  · exact (pas_event halive hguard).rangs h

theorem outboxRun_isSafe {me : Auth} {db : Database} {choices : List (Choice OutboxTask Outside)}
    {p : OutboxPool} (hrun : outboxRun nom me db choices = some p) :
    p.IsSafe (outboxSemantics nom) (OutboxGuard nom) (.initial me db) :=
  Pool.run_isSafe Rangs (fun _ _ h hguard => h.event hguard)
    (fun task _ h hallowed => program_safe task h hallowed) (fun _ => trivial)
    (.initial me db) hrun

end ZiaCrypte.Sending

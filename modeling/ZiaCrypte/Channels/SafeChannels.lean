import ZiaCrypte.Channels.Guards

/-!
# The bodies of the channels keep to their guards

Whatever the other bodies do at their awaits.
-/
namespace ZiaCrypte.Channels

open ZiaCrypte.Lib ZiaCrypte.Engine ZiaCrypte.Engine.SenderKeys

variable {D K B : Type} [DecidableEq D] [DecidableEq K] {C : Contexte D K B} {victime : D}

abbrev CanalSafe (C : Contexte D K B) (victime : D) {α : Type}
    (post : Except Unit α → Monde D K B → Prop) (x : Task D K B α) (s : Monde D K B) : Prop :=
  Safe (canalSemantics C victime) (CanalGuard C) post x s

variable {s s' : Monde D K B}

/-- A request without a guard, of whose answer something is known at its settlement that
lasts. -/
theorem canalSafe_request {q : Request D K B} {post : Except Unit (Reply q) → Monde D K B → Prop}
    (hsettle : ∀ t, Pas C s t → ∀ x, CanalGuard C (.settle s.nextTicket q x) t ∧
      ∀ u, Pas C s u → Pas C (q.settle C x t) u → post (q.answer C x t) u) :
    CanalSafe C victime post (Async.request q : Task D K B (Reply q)) s :=
  (keeps_pas victime).request (by trivial) fun t ht x _ => hsettle t ht x

/-- A request whose answer is of no use. -/
theorem canalSafe_free {q : Request D K B}
    (hguard : ∀ t, Pas C s t → ∀ x, CanalGuard C (.settle s.nextTicket q x) t) :
    CanalSafe C victime (fun _ _ => True) (Async.request q : Task D K B (Reply q)) s :=
  canalSafe_request fun t ht x => ⟨hguard t ht x, fun _ _ _ => trivial⟩

theorem canalSafe_bind {α β : Type} {Q : Except Unit α → Monde D K B → Prop} {x : Task D K B α}
    {f : α → Task D K B β} (hx : CanalSafe C victime Q x s)
    (hf : ∀ a t, Pas C s t → Q (.ok a) t → CanalSafe C victime (fun _ _ => True) (f a) t) :
    CanalSafe C victime (fun _ _ => True) (x >>= f) s :=
  (keeps_pas victime).bind hx hf fun _ _ _ _ => trivial

theorem canalSafe_orElse {α : Type} {x : Task D K B α} {h : Unit → Task D K B α}
    (hx : CanalSafe C victime (fun _ _ => True) x s)
    (hh : ∀ t, CanalSafe C victime (fun _ _ => True) (h ()) t) :
    CanalSafe C victime (fun _ _ => True) (Async.orElse x h) s := by
  rw [CanalSafe, safe_orElse]
  refine hx.imp fun r t _ => ?_
  cases r with
  | ok a => trivial
  | error e => exact hh t

theorem saveConversations_safe (d : D) (h : Registre C s) :
    CanalSafe C victime (fun _ _ => True) (saveConversations d) s := by
  refine safe_get_bind (canalSafe_free fun t ht x => ?_)
  exact fun c hc hadmin => ht.suite.admin _ _ (h.convs d c hc hadmin)

/-! ## Keys -/

theorem verifier_ok {α : Type} {r : Except ZiaError α} {a : α} (h : verifier r = .ok a) :
    r = .ok a := by
  cases r with
  | ok b => exact congrArg Except.ok (Except.ok.inj h)
  | error rc => cases h

theorem recue_ok {α : Type} {received : Bool} {answer : Option α} {a : α}
    (h : recue received answer = .ok a) : answer = some a := by
  unfold recue at h
  split at h
  · rw [Except.ok.inj h]
  · cases h

omit [DecidableEq K] in
/-- A key that was created, and the secret that was drawn for it. -/
theorem cleDe_senderKeyCreate (h : Registre C s) {d : D} {id : Identifier} {secret : K}
    {env : SenderKeyEnv K} {distribution : Distribution K}
    (hok : (ziaSenderKeyCreate C.primitives.toSenderKeyPrimitives env (s.moteurs.engine d) id).1 =
      .ok distribution) :
    CleDe (s.senderKeyCreate C d id secret env) s.moteurs.rotations.length d id secret
      distribution := by
  have hid : id ≠ [] := by
    intro hnil
    rw [ziaSenderKeyCreate, if_pos hnil] at hok
    cases hok
  have hrotations := rotations_create C.primitives.toSenderKeyPrimitives C.ids (x := s.moteurs)
    d id env
  rw [if_neg hid] at hrotations
  have hmoteurs : (s.senderKeyCreate C d id secret env).moteurs.rotations = _ := hrotations
  have hsecrets : (s.senderKeyCreate C d id secret env).secrets = s.secrets ++ [secret] :=
    if_neg hid
  refine ⟨⟨d, id, env.chain, env.signing, (ziaSenderKeyCreate C.primitives.toSenderKeyPrimitives
    env (s.moteurs.engine d) id).1.toOption⟩, ⟨?_, rfl, rfl⟩, ?_, ?_⟩
  · rw [hmoteurs]
    exact List.getElem?_concat_length
  · rw [hok]
    rfl
  · rw [hsecrets, ← h.secrets]
    exact List.getElem?_concat_length

theorem senderKeyCreate_safe {d : D} {id : Identifier} (hadmin : Admin s d id)
    (h : Registre C s) (secret : K) :
    CanalSafe C victime (fun r t => ∀ distribution, r = .ok distribution →
        ∃ k, CleDe t k d id secret distribution)
      (Async.request (Request.senderKeyCreate d id secret)) s := by
  refine canalSafe_request fun t ht x => ⟨ht.suite.admin _ _ hadmin, fun u _ hu => ?_⟩
  cases x with
  | cree env =>
    intro distribution hok
    exact ⟨_, (cleDe_senderKeyCreate (ht.registre h) (verifier_ok hok)).suite hu.suite⟩
  | _ => exact fun distribution hok => by cases hok

theorem channelSealKey_safe (secret : K) (distribution : Distribution K) :
    CanalSafe C victime (fun r _ => ∀ b, r = .ok b → SealedWith C.primitives secret distribution b)
      (Async.request (Request.channelSealKey secret distribution)) s := by
  refine canalSafe_request fun t _ x => ⟨trivial, fun u _ _ => ?_⟩
  cases x with
  | scelle alloc nonce => exact fun b hb => sealedWith_of_sealKey (verifier_ok hb)
  | _ => exact fun b hb => by cases hb

theorem putChannelKey_safe {d : D} {id : Identifier} {b : B} (h : Scellee C s d id b) :
    CanalSafe C victime (fun r t => r = .ok () → (id, b) ∈ t.deposes)
      (Async.request (Request.putChannelKey d id b)) s := by
  refine canalSafe_request fun t ht x => ⟨h.suite ht.suite, fun u _ hu => ?_⟩
  cases x with
  | handled received =>
    intro hok
    have hadmin : t.administre C d id = true := by
      by_contra hnot
      have hanswer := recue_ok hok
      rw [if_neg hnot] at hanswer
      cases hanswer
    refine hu.suite.deposes ?_
    rw [Request.settle, Monde.putChannelKey, if_pos hadmin]
    exact List.mem_cons_self
  | _ => exact fun hok => by cases hok

/-- What `creerCanal` and `renouvelerCleCanal` have in common, around one statement. -/
theorem deposer_safe {d : D} {id : Identifier} {secret : K} {a : Stmt D K}
    (ha : ∀ t : Monde D K B, Admin t d id → a.Guard C t) (hadmin : Admin s d id)
    (h : Registre C s) :
    CanalSafe C victime (fun _ _ => True) (do
      let distribution ← Async.request (Request.senderKeyCreate d id secret)
      let scelle ← Async.request (Request.channelSealKey secret distribution)
      Async.request (Request.putChannelKey d id scelle)
      Async.exec a
      saveConversations d
      Async.exec (.emettre id secret)
      pure (some (⟨id, secret⟩ : Lien K))) s := by
  refine canalSafe_bind (senderKeyCreate_safe hadmin h secret) fun distribution s₁ h₁ hcle => ?_
  obtain ⟨k, hk⟩ := hcle distribution rfl
  refine canalSafe_bind (channelSealKey_safe secret distribution) fun b s₂ h₂ hb => ?_
  have hscelle : Scellee C s₂ d id b := ⟨k, secret, distribution, hk.suite h₂.suite, hb b rfl⟩
  refine canalSafe_bind (putChannelKey_safe hscelle) fun _ s₃ h₃ hdepose => ?_
  have hpas : Pas C s₁ s₃ := h₂.trans h₃
  have hguard : a.Guard C s₃ := ha s₃ ((h₁.trans hpas).suite.admin d id hadmin)
  have hact : Pas C s₃ (a.apply s₃) := pas_act hguard
  have hlater : Pas C s₁ (a.apply s₃) := hpas.trans hact
  refine safe_exec_bind hguard (canalSafe_bind
    (saveConversations_safe d ((h₁.trans hlater).registre h)) fun _ s₄ h₄ _ => ?_)
  have hcle := hk.suite (hlater.trans h₄).suite
  exact ⟨⟨b, (hact.trans h₄).suite.deposes (hdepose rfl), k, d, distribution, hcle, hb b rfl⟩,
    trivial⟩

theorem creerCanal_safe (d : D) (secret : K) (h : Registre C s) :
    CanalSafe C victime (fun _ _ => True) (creerCanal d secret) s := by
  refine canalSafe_orElse ?_ fun _ => trivial
  have hcreate : CanalSafe C victime (fun r t => ∀ id, r = .ok id → Admin t d id)
      (Async.request (Request.createChannel d)) s := by
    refine canalSafe_request fun t _ x => ⟨trivial, fun u _ hu => ?_⟩
    cases x with
    | handled received =>
      intro id hid
      refine hu.suite.admin d id ⟨_, List.mem_append_right _ (List.mem_singleton_self _), ?_, rfl⟩
      exact Option.some.inj (recue_ok hid)
    | _ => exact fun id hid => by cases hid
  refine canalSafe_bind hcreate fun id s₁ h₁ hadmin => ?_
  exact deposer_safe (fun _ hd => hd) (hadmin id rfl) (h₁.registre h)

omit [DecidableEq D] [DecidableEq K] in
theorem admin_of_conv (h : Registre C s) {d : D} {id : Identifier}
    (hconv : ((s.conv? d id).any (·.channelIsAdmin)) = true) : Admin s d id := by
  cases hfind : s.conv? d id with
  | none =>
    rw [hfind] at hconv
    cases hconv
  | some c =>
    rw [hfind] at hconv
    have hid : c.id = id := by simpa using List.find?_some hfind
    rw [← hid]
    exact h.convs d c (List.mem_of_find?_eq_some hfind) hconv

theorem renouvelerCleCanal_safe (d : D) (id : Identifier) (secret : K) (h : Registre C s) :
    CanalSafe C victime (fun _ _ => True) (renouvelerCleCanal d id secret) s := by
  refine safe_get_bind ?_
  split
  · rename_i hconv
    refine canalSafe_orElse ?_ fun _ => trivial
    exact deposer_safe (fun _ _ => trivial) (admin_of_conv h hconv) h
  · trivial

/-! ## Links -/

omit [DecidableEq D] [DecidableEq K] in
theorem Registre.canal_eq (h : Registre C s) {c c' : Canal D B} (hc : c ∈ s.canaux)
    (hc' : c' ∈ s.canaux) (hid : c.id = c'.id) : c = c' := by
  obtain ⟨n, hn⟩ := List.getElem?_of_mem hc
  obtain ⟨n', hn'⟩ := List.getElem?_of_mem hc'
  rw [h.canaux n c hn, h.canaux n' c' hn'] at hid
  obtain rfl := C.canalIds.injective hid
  exact Option.some.inj (hn.symm.trans hn')

omit [DecidableEq D] [DecidableEq K] in
/-- A channel was created by one device. -/
theorem Registre.admin_eq (h : Registre C s) {m m' : D} {id : Identifier} (ha : Admin s m id)
    (ha' : Admin s m' id) : m = m' := by
  obtain ⟨c, hc, rfl, hm⟩ := ha
  obtain ⟨c', hc', hid, hm'⟩ := ha'
  obtain rfl := h.canal_eq hc' hc hid
  exact Option.some.inj (hm.symm.trans hm')

omit [DecidableEq D] [DecidableEq K] in
theorem CleDe.admin {k : Nat} {m : D} {id : Identifier} {secret : K} {d : Distribution K}
    (hcle : CleDe s k m id secret d) (h : Registre C s) : Admin s m id := by
  obtain ⟨ρ, hρ, -, -⟩ := hcle
  exact h.rotations k m id ρ hρ

omit [DecidableEq D] [DecidableEq K] in
theorem canal_of_canal? {id : Identifier} {c : Canal D B} (h : s.canal? id = some c) :
    c ∈ s.canaux ∧ c.id = id :=
  ⟨List.mem_of_find?_eq_some h, by simpa using List.find?_some h⟩

/-- The key of a channel, fetched and opened with a link. -/
theorem channelKey_safe (id : Identifier) (h : Registre C s) :
    CanalSafe C victime (fun r t => ∀ b, r = .ok b → ∃ m, Scellee C t m id b)
      (Async.request (Request.channelKey id)) s := by
  refine canalSafe_request fun t ht x => ⟨trivial, fun u _ hu => ?_⟩
  cases x with
  | handled received =>
    intro b hb
    obtain ⟨c, hc, hsealed⟩ := Option.bind_eq_some_iff.mp (recue_ok hb)
    obtain ⟨hmem, rfl⟩ := canal_of_canal? hc
    obtain ⟨m, hm⟩ := (ht.registre h).scelles c hmem b hsealed
    exact ⟨m, hm.suite hu.suite⟩
  | _ => exact fun b hb => by cases hb

theorem channelOpenKey_safe (hkdf : HmacInjective C.primitives.toPrimitives)
    (hseal : SealIdeal C.primitives) {m : D} {id : Identifier} {secret : K} {b : B}
    (hb : Scellee C s m id b) :
    CanalSafe C victime (fun r t => ∀ d, r = .ok d → ∃ k, CleDe t k m id secret d)
      (Async.request (Request.channelOpenKey secret b)) s := by
  refine canalSafe_request fun t _ x => ⟨trivial, fun u hu _ => ?_⟩
  obtain ⟨k, secret', d', hcle, hsealed⟩ := hb
  cases x with
  | done =>
    intro d hd
    obtain ⟨rfl, rfl⟩ := hsealed.of_open hkdf hseal (verifier_ok hd)
    exact ⟨k, hcle.suite hu.suite⟩
  | _ => exact fun d hd => by cases hd

theorem channelInfo_safe (id : Identifier) :
    CanalSafe C victime (fun r t => ∀ a, r = .ok (some a) → Admin t a id)
      (Async.request (Request.channelInfo id)) s := by
  refine canalSafe_request fun t _ x => ⟨trivial, fun u _ hu => ?_⟩
  cases x with
  | handled received =>
    intro a ha
    obtain ⟨c, hc, hadmin⟩ := Option.map_eq_some_iff.mp (recue_ok ha)
    obtain ⟨hmem, hid⟩ := canal_of_canal? hc
    exact hu.suite.admin a id ⟨c, hmem, hid, hadmin⟩
  | _ => exact fun a ha => by cases ha

theorem senderKeyProcess_safe {r m : D} {id : Identifier} {d : Distribution K}
    (h : Ouverte s r id m d) :
    CanalSafe C victime (fun x t => x = .ok () → (r, d) ∈ t.traites)
      (Async.request (Request.senderKeyProcess r id m d)) s := by
  refine canalSafe_request fun t ht x => ⟨h.suite ht.suite, fun u _ hu => ?_⟩
  cases x with
  | done => exact fun _ => hu.suite.traites List.mem_cons_self
  | _ => exact fun hok => by cases hok

theorem rejoindreCanalParLien_safe (hkdf : HmacInjective C.primitives.toPrimitives)
    (hseal : SealIdeal C.primitives) (r : D) {lien : Lien K} (hlien : lien ∈ s.liens)
    (h : Registre C s) :
    CanalSafe C victime (fun _ _ => True) (rejoindreCanalParLien r lien) s := by
  have htenir : Pas C s (Stmt.apply (.tenir r lien) s) := pas_act trivial
  refine safe_exec_bind trivial (safe_get_bind ?_)
  split
  · exact ⟨htenir.suite.liens hlien, trivial⟩
  · refine canalSafe_orElse ?_ fun _ => trivial
    refine canalSafe_bind (channelKey_safe lien.id (htenir.registre h)) fun b s₁ h₁ hb => ?_
    obtain ⟨m, hm⟩ := hb b rfl
    refine canalSafe_bind (channelOpenKey_safe hkdf hseal hm) fun d s₂ h₂ hd => ?_
    obtain ⟨k, hk⟩ := hd d rfl
    refine canalSafe_bind (channelInfo_safe lien.id) fun a s₃ h₃ ha => ?_
    cases a with
    | none => trivial
    | some a =>
      -- The channel's only admin is the sender of its keys.
      have hpas : Pas C (Stmt.apply (.tenir r lien) s) s₃ := (h₁.trans h₂).trans h₃
      have hregistre := hpas.registre (htenir.registre h)
      obtain rfl : a = m := hregistre.admin_eq (ha a rfl) ((hk.suite h₃.suite).admin hregistre)
      have hliens := hpas.suite.liens (htenir.suite.liens hlien)
      have hopen : Ouverte s₃ r lien.id a d :=
        ⟨k, lien.secret, hk.suite h₃.suite, hliens, hpas.suite.tenus List.mem_cons_self⟩
      refine canalSafe_bind (senderKeyProcess_safe hopen) fun _ s₄ h₄ htraite => ?_
      refine canalSafe_bind (canalSafe_free fun _ _ _ => trivial) fun _ s₅ h₅ _ => ?_
      have hguard : (Stmt.rejoindre r lien a).Guard C s₅ :=
        ⟨(h₄.trans h₅).suite.liens hliens, k, a, d, hk.suite ((h₃.trans h₄).trans h₅).suite,
          h₅.suite.traites (htraite rfl)⟩
      have hact : Pas C s₅ (Stmt.apply (.rejoindre r lien a) s₅) := pas_act hguard
      refine safe_exec_bind hguard (canalSafe_bind (saveConversations_safe r ?_)
        fun _ _ _ _ => trivial)
      exact (((h₄.trans h₅).trans hact).registre hregistre)

/-! ## Posts -/

theorem publierDansCanal_safe (d : D) (id : Identifier) (clair : Bytes) (h : Registre C s) :
    CanalSafe C victime (fun _ _ => True) (publierDansCanal d id clair) s := by
  refine safe_get_bind ?_
  split
  · rename_i hconv
    have hadmin := admin_of_conv h hconv
    refine canalSafe_orElse ?_ fun _ => trivial
    refine canalSafe_bind (canalSafe_free fun t ht _ => ht.suite.admin _ _ hadmin)
      fun _ _ _ _ => ?_
    exact canalSafe_free fun _ _ _ => trivial
  · trivial

theorem recevoirCanal_safe (d : D) (message : Nat) (s : Monde D K B) :
    CanalSafe C victime (fun _ _ => True) (recevoirCanal d message) s := by
  refine safe_get_bind ?_
  split
  · trivial
  · refine safe_get_bind ?_
    split
    · refine canalSafe_bind (Q := fun _ _ => True) ?_ fun _ _ _ _ => trivial
      rw [CanalSafe, safe_attempt]
      exact canalSafe_free fun _ _ _ => trivial
    · trivial

theorem quitterCanal_safe (d : D) (id : Identifier) (h : Registre C s) :
    CanalSafe C victime (fun _ _ => True) (quitterCanal d id) s := by
  have hattempt : CanalSafe C victime (fun _ _ => True)
      ((Async.request (Request.unsubscribeChannel d id) : Task D K B Unit).attempt) s := by
    rw [CanalSafe, safe_attempt]
    exact canalSafe_free fun _ _ _ => trivial
  refine canalSafe_bind hattempt fun _ s₁ h₁ _ => ?_
  have hact : Pas C s₁ (Stmt.apply (.oublier d id) s₁) := pas_act trivial
  exact safe_exec_bind trivial (saveConversations_safe d ((h₁.trans hact).registre h))

/-! ## Runs -/

theorem program_safe (hkdf : HmacInjective C.primitives.toPrimitives)
    (hseal : SealIdeal C.primitives) (task : CanalTask D K) (h : Registre C s)
    (hallowed : task.allowed s = true) :
    CanalSafe C victime (fun _ _ => True) task.program s := by
  cases task with
  | creerCanal d secret => exact canalSafe_bind (creerCanal_safe d secret h) fun _ _ _ _ => trivial
  | renouvelerCleCanal d id secret =>
    exact canalSafe_bind (renouvelerCleCanal_safe d id secret h) fun _ _ _ _ => trivial
  | rejoindreCanalParLien r lien =>
    exact canalSafe_bind (rejoindreCanalParLien_safe hkdf hseal r (of_decide_eq_true hallowed) h)
      fun _ _ _ _ => trivial
  | publierDansCanal d id clair => exact publierDansCanal_safe d id clair h
  | recevoirCanal d message => exact recevoirCanal_safe d message s
  | quitterCanal d id => exact quitterCanal_safe d id h

theorem canalRun_isSafe (hkdf : HmacInjective C.primitives.toPrimitives)
    (hseal : SealIdeal C.primitives) {choices : List (Choice (CanalTask D K) (Outside K))}
    {p : CanalPool D K B} (hrun : canalRun C victime choices = some p) :
    p.IsSafe (canalSemantics C victime) (CanalGuard C) .initial :=
  Pool.run_isSafe (Registre C) (fun _ _ h hguard => h.event hguard)
    (fun task _ h hallowed => program_safe hkdf hseal task h hallowed) (fun _ => trivial)
    .initial hrun

end ZiaCrypte.Channels

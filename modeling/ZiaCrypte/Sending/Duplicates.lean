import ZiaCrypte.Sending.Deposits
import ZiaCrypte.Sending.Receipts

/-!
# No message twice

Where no device is posted a copy of a message of which it has one that the sender believes
lost, the copies of a message are for devices of their own; and the engine of a device opens
none of them twice.
-/
namespace ZiaCrypte.Sending

open ZiaCrypte.Lib ZiaCrypte.Engine ZiaCrypte.Engine.SenderKeys
open ZiaCrypte.Server (Uuid Auth Database MessageBlob)
open ZiaCrypte.Inbox (Text cString)

variable {nom : Uuid → Text}

/-! ## Bodies -/

section Accounts

variable {s : Monde} {origine : Nat → Nat} {borne : Nat} {depots : List Depot} {g : Phase}
  {gs gs₁ gs₂ : List Phase}

theorem comptes_focus (s : Monde) (g : Phase) (gs₁ gs₂ : List Phase) :
    comptes s .dehors (gs₁ ++ g :: gs₂) = comptes s g (gs₁ ++ gs₂) := by
  rw [comptes, comptes, show Phase.dehors.compte = 0 from rfl, zero_add, List.map_append,
    List.map_cons, List.sum_append, List.sum_cons, List.map_append, List.sum_append,
    add_left_comm]

/-- One of the bodies goes to work. -/
theorem Suivi.focus (h : Suivi origine borne depots s .dehors (gs₁ ++ g :: gs₂)) :
    Suivi origine borne depots s g (gs₁ ++ gs₂) where
  ids := h.ids
  cles := h.cles
  hist := h.hist
  echecs := h.echecs
  phase := (h.autres g (List.mem_append_right _ List.mem_cons_self)).2
  autres g' hg' := h.autres g' <| by
    rcases List.mem_append.mp hg' with hleft | hright
    · exact List.mem_append_left _ hleft
    · exact List.mem_append_right _ (List.mem_cons_of_mem _ hright)
  distincts := comptes_focus s g gs₁ gs₂ ▸ h.distincts
  bornes := comptes_focus s g gs₁ gs₂ ▸ h.bornes
  anciens := h.anciens
  uniques := h.uniques

theorem Suivi.unfocus (h : Suivi origine borne depots s g (gs₁ ++ gs₂))
    (hg : g.auRepos = true) : Suivi origine borne depots s .dehors (gs₁ ++ g :: gs₂) where
  ids := h.ids
  cles := h.cles
  hist := h.hist
  echecs := h.echecs
  phase := trivial
  autres g' hg' := by
    rcases List.mem_append.mp hg' with hleft | hright
    · exact h.autres g' (List.mem_append_left _ hleft)
    · rcases List.mem_cons.mp hright with rfl | hright
      · exact ⟨hg, h.phase⟩
      · exact h.autres g' (List.mem_append_right _ hright)
  distincts := comptes_focus s g gs₁ gs₂ ▸ h.distincts
  bornes := comptes_focus s g gs₁ gs₂ ▸ h.bornes
  anciens := h.anciens
  uniques := h.uniques

/-- A body that ends leaves its account. -/
theorem Suivi.finir (h : Suivi origine borne depots s g gs) :
    Suivi origine borne depots s .dehors gs :=
  h.mono h.ids h.cles h.hist (Nat.le_refl _) trivial h.echecs
    (add_le_add (Multiset.zero_le _) le_rfl)

/-- The numbers of the accounts have been drawn. -/
theorem Suivi.lt_uuid (h : Suivi origine borne depots s .dehors gs) {n : Nat}
    (hn : some n ∈ comptes s .dehors gs) : n < s.uuid := by
  rcases Multiset.mem_add.mp hn with hphases | hechec
  · rw [show Phase.dehors.compte = 0 from rfl, zero_add] at hphases
    have hall : ∀ gs' : List Phase, (∀ g ∈ gs', g.auRepos = true ∧ g.Sait origine depots s.uuid) →
        some n ∈ (gs'.map Phase.compte).sum → n < s.uuid := by
      intro gs' hgs' hmem
      induction gs' with
      | nil => exact absurd hmem (Multiset.notMem_zero _)
      | cons g gs' ih =>
        rw [List.map_cons, List.sum_cons] at hmem
        rcases Multiset.mem_add.mp hmem with hfirst | hrest
        · obtain ⟨hrepos, hsait⟩ := hgs' g List.mem_cons_self
          cases g with
          | dehors => exact absurd hfirst (Multiset.notMem_zero _)
          | reprise l n => cases hrepos
          | compose n => cases hrepos
          | envoi n' faits recu =>
            obtain rfl := Option.some.inj (Multiset.mem_singleton.mp hfirst)
            exact hsait.1
          | livre n' =>
            obtain rfl := Option.some.inj (Multiset.mem_singleton.mp hfirst)
            exact hsait
        · exact ih (fun g' hg' => hgs' g' (List.mem_cons_of_mem _ hg')) hrest
    exact hall gs h.autres hphases
  · obtain ⟨n', heq, hn', -⟩ := h.echecs _ hechec
    rw [Option.some.inj heq]
    exact hn'

theorem Phase.Sait.update {message : Nat} {uuid : Nat} (h : g.Sait origine depots uuid)
    (hg : g.auRepos = true) :
    g.Sait (Function.update origine uuid message) depots uuid := by
  cases g with
  | dehors => trivial
  | reprise l n => cases hg
  | compose n => cases hg
  | envoi n faits recu =>
    have hne : Function.update origine uuid message n = origine n :=
      Function.update_of_ne (Nat.ne_of_lt h.1) _ _
    refine ⟨h.1, ?_, ?_⟩
    · rw [hne]
      exact h.2.1
    · rw [hne]
      exact h.2.2
  | livre n => exact h

/-- The next number is noted for a composed message. -/
theorem Suivi.noter (h : Suivi origine borne depots s .dehors gs) (message : Nat) :
    Suivi (Function.update origine s.uuid message) (borne + 1) depots s .dehors gs := by
  have hsame : ∀ n, n < s.uuid → Function.update origine s.uuid message n = origine n :=
    fun n hn => Function.update_of_ne (Nat.ne_of_lt hn) _ _
  have hmap : ∀ x ∈ comptes s .dehors gs,
      Option.map (Function.update origine s.uuid message) x = Option.map origine x := by
    intro x hx
    cases x with
    | none => rfl
    | some n => rw [Option.map_some, Option.map_some, hsame n (h.lt_uuid hx)]
  exact
    { ids := h.ids
      cles := h.cles
      hist := h.hist
      echecs := fun x hx => by
        obtain ⟨n, rfl, hn, hperdus⟩ := h.echecs x hx
        refine ⟨n, rfl, hn, ?_⟩
        rw [hsame n hn]
        exact hperdus
      phase := trivial
      autres := fun g hg => ⟨(h.autres g hg).1, (h.autres g hg).2.update (h.autres g hg).1⟩
      distincts := by
        rw [Multiset.map_congr rfl hmap]
        exact h.distincts
      bornes := fun n hn => by
        rw [hsame n (h.lt_uuid hn)]
        exact Nat.lt_succ_of_lt (h.bornes n hn)
      anciens := fun d hd => Nat.lt_succ_of_lt (h.anciens d hd)
      uniques := h.uniques }

/-- A new message is composed: it has no copy yet. -/
theorem Suivi.composer (h : Suivi origine borne depots s .dehors gs) :
    Suivi (Function.update origine s.uuid borne) (borne + 1) depots s (.compose s.uuid) gs := by
  have hnote := h.noter borne
  have hself : Function.update origine s.uuid borne s.uuid = borne := Function.update_self _ _ _
  have hcomptes : comptes s (.compose s.uuid) gs = {some s.uuid} + comptes s .dehors gs := by
    rw [comptes, comptes, show Phase.dehors.compte = 0 from rfl, zero_add, add_assoc]
    rfl
  refine { hnote with phase := ⟨rfl, ?_⟩, distincts := ?_, bornes := fun n hn => ?_ }
  · intro d hd hcompose
    rw [hself] at hcompose
    exact absurd (h.anciens d hd) (by omega)
  · rw [hcomptes, Multiset.map_add, Multiset.map_singleton, Option.map_some, hself,
      Multiset.singleton_add, Multiset.nodup_cons]
    refine ⟨fun hmem => ?_, hnote.distincts⟩
    obtain ⟨x, hx, heq⟩ := Multiset.mem_map.mp hmem
    cases x with
    | none => cases heq
    | some n =>
      have hn := h.lt_uuid hx
      have hlt := h.bornes n hx
      rw [Option.map_some, Function.update_of_ne (Nat.ne_of_lt hn)] at heq
      have hsame := Option.some.inj heq
      omega
  · rw [hcomptes] at hn
    rcases Multiset.mem_add.mp hn with hone | hold
    · rw [Option.some.inj (Multiset.mem_singleton.mp hone), hself]
      exact Nat.lt_succ_self _
    · exact hnote.bornes n hold

/-- A failed message is to be sent again, under the next number. -/
theorem Suivi.reprendre (h : Suivi origine borne depots s .dehors gs) (l : Ligne) :
    Suivi (Function.update origine s.uuid (l.envoi.elim borne origine)) (borne + 1) depots s
      (.reprise l s.uuid) gs := by
  have hnote := h.noter (l.envoi.elim borne origine)
  refine { hnote with phase := ⟨rfl, fun n hn hlt => ?_⟩ }
  rw [Function.update_self, Function.update_of_ne (Nat.ne_of_lt hlt), hn, Option.elim_some]

end Accounts

variable {K : Type}

namespace Courrier

variable (nom) in
/-- Every body keeps to the phases of its sending, and the accounts are kept. -/
def Tenu (s : Courrier K) : Prop :=
  ∃ gs, List.Forall₂ (Thread.Follows (outboxSemantics nom) sendProtocol) s.pool.threads gs ∧
    Suivi s.origine s.composes s.depots s.pool.state .dehors gs

variable {s t : Courrier K}

/-- What a body leaves at its next await. -/
theorem launch_suivi {origine : Nat → Nat} {borne : Nat} {depots : List Depot} {g : Phase}
    {gs₁ gs₂ : List Phase} {body : Task Unit} {state : Monde}
    (hbody : SendFollows nom (fun _ _ _ => True) body state g)
    (h : Suivi origine borne depots state g (gs₁ ++ gs₂)) :
    ∃ g', ((outboxSemantics nom).launch body state).2.2.Follows (outboxSemantics nom)
        sendProtocol g' ∧
      Suivi origine borne depots ((outboxSemantics nom).launch body state).2.1 .dehors
        (gs₁ ++ g' :: gs₂) := by
  obtain ⟨g', hsuivi, hthread⟩ := Semantics.launch_follows (M := outboxSemantics nom)
    (T := sendProtocol) (fun state g => Suivi origine borne depots state g (gs₁ ++ gs₂))
    (fun a state g ha h => h.act ha) (fun q state g h => h.issue q) hbody h
  rcases (outboxSemantics nom).launch_rests body state with hdone | ⟨ticket, q, k, hblocked⟩
  · rw [hdone]
    exact ⟨.dehors, trivial, hsuivi.finir.unfocus rfl⟩
  · refine ⟨g', hthread, hsuivi.unfocus ?_⟩
    rw [hblocked] at hthread
    exact auRepos_of_demande hthread.1

theorem Tenu.start {task : OutboxTask} (h : Tenu nom s) (ht : s.choisir nom (.start task) = some t) :
    Tenu nom t := by
  obtain ⟨gs, hthreads, hsuivi⟩ := h
  obtain ⟨pool, hpool, rfl⟩ := Option.map_eq_some_iff.mp ht
  rw [Pool.step] at hpool
  split at hpool
  · rename_i hpermis
    obtain rfl := Option.some.inj hpool
    have hdebut : Suivi (Function.update s.origine s.pool.state.uuid (s.messageDe task))
        (s.composes + 1) s.depots s.pool.state (task.phase s.pool.state.uuid) gs := by
      cases task with
      | sendPayload texte attachment now => exact hsuivi.composer
      | renvoyer l now => exact hsuivi.reprendre l
      | _ => exact hsuivi.noter _
    rw [← List.append_nil gs] at hdebut
    obtain ⟨g', hthread, hlater⟩ :=
      launch_suivi (program_follows task hsuivi.cles hpermis) hdebut
    refine ⟨gs ++ [g'], List.rel_append hthreads (.cons hthread .nil), ?_⟩
    show Suivi _ _ (s.depots ++ []) _ _ _
    rw [List.append_nil]
    exact hlater
  · cases hpool

theorem Tenu.settle {i : Nat} {x : Outside} (h : Tenu nom s)
    (ht : s.choisir nom (.settle i x) = some t)
    (hsans : ∀ d ∈ s.nouveaux (.settle i x), ∀ d' ∈ s.depots, d'.perdu = true →
      d'.compose = d.compose → d'.rang.recipientDeviceId ≠ d.rang.recipientDeviceId) :
    Tenu nom t := by
  obtain ⟨gs, hthreads, hsuivi⟩ := h
  obtain ⟨pool, hpool, rfl⟩ := Option.map_eq_some_iff.mp ht
  rw [Pool.step] at hpool
  split at hpool
  · rename_i ticket q k hget
    obtain rfl := Option.some.inj hpool
    obtain ⟨gs₁, g, gs₂, rfl, hthread, hset⟩ := exists_partner hthreads hget
    have hnew : s.nouveaux (.settle i x) = q.depots s.origine x s.pool.state := by
      rw [nouveaux, hget]
    rw [hnew] at hsans
    obtain ⟨hask, hk⟩ := hthread
    have hlater := (hsuivi.focus.settle nom hask hsans).unfocus
      (auRepos_reponse (auRepos_of_demande hask) _)
    refine ⟨_, hset _ (g.reponse q (q.answer nom x s.pool.state)) fun state hstate => ?_, ?_⟩
    · exact hk _ state hstate
    · show Suivi _ _ (s.depots ++ s.nouveaux (.settle i x)) _ _ _
      rw [hnew]
      exact hlater
  · cases hpool

theorem Tenu.resume {i : Nat} (h : Tenu nom s) (ht : s.choisir nom (.resume i) = some t) :
    Tenu nom t := by
  obtain ⟨gs, hthreads, hsuivi⟩ := h
  obtain ⟨pool, hpool, rfl⟩ := Option.map_eq_some_iff.mp ht
  rw [Pool.step] at hpool
  split at hpool
  · rename_i body hget
    obtain rfl := Option.some.inj hpool
    obtain ⟨gs₁, g, gs₂, rfl, hthread, hset⟩ := exists_partner hthreads hget
    obtain ⟨g', hnext, hlater⟩ := launch_suivi (hthread _ hsuivi.cles) hsuivi.focus
    refine ⟨gs₁ ++ g' :: gs₂, hset _ g' hnext, ?_⟩
    show Suivi _ _ (s.depots ++ []) _ _ _
    rw [List.append_nil]
    exact hlater
  · cases hpool

theorem Tenu.crash (h : Tenu nom s) (ht : s.choisir nom .crash = some t) : Tenu nom t := by
  obtain ⟨gs, -, hsuivi⟩ := h
  obtain rfl := Option.some.inj ht
  refine ⟨[], .nil, ?_⟩
  show Suivi _ _ (s.depots ++ []) _ _ _
  rw [List.append_nil]
  exact
    { ids := List.nodup_nil
      cles := fun c hc => absurd hc List.not_mem_nil
      hist := hsuivi.hist
      echecs := fun x hx => absurd hx (Multiset.notMem_zero x)
      phase := trivial
      autres := fun g hg => absurd hg List.not_mem_nil
      distincts := Multiset.nodup_zero
      bornes := fun n hn => absurd hn (Multiset.notMem_zero _)
      anciens := hsuivi.anciens
      uniques := hsuivi.uniques }

/-- A choice that posts no second copy keeps the accounts. -/
theorem Tenu.choisir {c : Choice OutboxTask Outside} (h : Tenu nom s)
    (ht : s.choisir nom c = some t)
    (hsans : ∀ d ∈ s.nouveaux c, ∀ d' ∈ s.depots, d'.perdu = true → d'.compose = d.compose →
      d'.rang.recipientDeviceId ≠ d.rang.recipientDeviceId) : Tenu nom t := by
  cases c with
  | start task => exact h.start ht
  | settle i x => exact h.settle ht hsans
  | resume i => exact h.resume ht
  | crash => exact h.crash ht

theorem tenu_initial (me : Auth) (db : Database) : Tenu nom (initial me db : Courrier K) := by
  refine ⟨[], .nil, ?_⟩
  exact
    { ids := List.nodup_nil
      cles := fun c hc => absurd hc List.not_mem_nil
      hist := fun conv l hl => absurd hl List.not_mem_nil
      echecs := fun x hx => absurd hx (Multiset.notMem_zero x)
      phase := trivial
      autres := fun g hg => absurd hg List.not_mem_nil
      distincts := Multiset.nodup_zero
      bornes := fun n hn => absurd hn (Multiset.notMem_zero _)
      anciens := fun d hd => absurd hd List.not_mem_nil
      uniques := List.nodup_nil }

end Courrier

/-! ## Devices -/

variable {P : SenderKeyPrimitives K} {a : Appareil K} {conv : Uuid} {d : Depot}

/-- The row is for the session of the conversation. -/
def ParSession (conv : Uuid) (d : Depot) : Prop :=
  d.rang.conversationId = some conv ∧ Chat.Envelope.estGroupe d.rang.ratchetHeader = false

/-- The key opens the row. -/
def Ouvre (P : SenderKeyPrimitives K) (d : Depot) (key : K) : Prop :=
  ∃ ad plain, P.aeadDecrypt key zeroNonce d.rang.ciphertext ad = some plain

namespace Appareil

theorem sessions_putSession_self (session : ZiaSession K) :
    (a.putSession conv session).sessions conv = some session := Function.update_self _ _ _

theorem sessions_putSession_ne (session : ZiaSession K) {conv' : Uuid} (h : conv' ≠ conv) :
    (a.putSession conv session).sessions conv' = a.sessions conv' := Function.update_of_ne h _ _

variable (P) in
/-- What a device has opened it will not open again: a key that opened a row of a session is
spent, and the engine has accepted the group messages. -/
structure Intact (a : Appareil K) : Prop where
  groupes : ReplayInv P a.groupes
  sessions : ∀ conv session, a.sessions conv = some session → ∃ sk spent,
    NotRatchetRoot P.toPrimitives sk ∧ SpendInv P.toPrimitives sk session spent ∧
      ∀ d ∈ a.lus, ParSession conv d → ∃ key ∈ spent, Ouvre P d key
  ouvertes : ∀ d ∈ a.lus, ∀ conv, ParSession conv d → a.sessions conv ≠ none
  signes : ∀ d ∈ a.lus, Chat.Envelope.estGroupe d.rang.ratchetHeader = true →
    signedPart d.rang.ciphertext ∈ a.groupes.accepted.map (·.2)
  nodup : a.lus.Nodup

theorem intact_initial : Intact P (initial : Appareil K) where
  groupes := replayInv_start
  sessions conv session h := by cases h
  ouvertes d hd := absurd hd List.not_mem_nil
  signes d hd := absurd hd List.not_mem_nil
  nodup := List.nodup_nil

/-- A session is started where there is none. -/
theorem Intact.accepter (hkdf : HmacInjective P.toPrimitives) (h : Intact P a)
    (hnone : a.sessions conv = none) {start : SessionStart K}
    (hstart : start.FromX3dh P.toX3dhPrimitives) :
    Intact P (a.putSession conv (start.session P.toPrimitives)) := by
  refine ⟨h.groupes, fun conv' session hsession => ?_, fun d hd conv' hpar => ?_, h.signes, h.nodup⟩
  · by_cases hconv : conv' = conv
    · obtain rfl := hconv
      rw [sessions_putSession_self] at hsession
      obtain rfl := Option.some.inj hsession
      obtain ⟨dh1, dh2, dh3, dh4, ss, hsk⟩ := hstart
      have hroot := deriveSharedSecret_notRatchetRoot P.toX3dhPrimitives hkdf dh1 dh2 dh3 dh4 ss
      rw [hsk] at hroot
      exact ⟨_, [], hroot, spendInv_start start, fun d hd hpar =>
        absurd hnone (h.ouvertes d hd conv' hpar)⟩
    · rw [sessions_putSession_ne _ hconv] at hsession
      exact h.sessions conv' session hsession
  · by_cases hconv : conv' = conv
    · obtain rfl := hconv
      exact absurd hnone (h.ouvertes d hd conv' hpar)
    · rw [sessions_putSession_ne _ hconv]
      exact h.ouvertes d hd conv' hpar

/-- The session moves on; the row it has opened with one of its keys, if any, is new. -/
theorem Intact.avancer (hkdf : HmacInjective P.toPrimitives) (haead : AeadIdeal P.toPrimitives)
    (h : Intact P a) {session session' : ZiaSession K} (hsession : a.sessions conv = some session)
    {spent : List K} (hmoves : Moves P.toPrimitives session spent session') {lus : List Depot}
    (hlus : lus = a.lus ∨ ∃ d, lus = d :: a.lus ∧ ParSession conv d ∧ ∃ key ∈ spent, Ouvre P d key) :
    Intact P { a.putSession conv session' with lus := lus } := by
  obtain ⟨sk, old, hroot, hspend, hold⟩ := h.sessions conv session hsession
  have hlater := hspend.moves hkdf hroot hmoves
  have hmem : ∀ d ∈ lus, d ∈ a.lus ∨ ParSession conv d ∧ ∃ key ∈ spent, Ouvre P d key := by
    intro d hd
    rcases hlus with rfl | ⟨d', rfl, hpar, hopen⟩
    · exact .inl hd
    · rcases List.mem_cons.mp hd with rfl | htail
      · exact .inr ⟨hpar, hopen⟩
      · exact .inl htail
  have hother : ∀ conv' d, conv' ≠ conv → ParSession conv' d → ¬ ParSession conv d := by
    intro conv' d hne hpar' hpar
    exact hne (Option.some.inj (hpar'.1.symm.trans hpar.1))
  refine ⟨h.groupes, fun conv' session₁ hsession₁ => ?_, fun d hd conv' hpar => ?_,
    fun d hd hgroupe => ?_, ?_⟩
  · by_cases hconv : conv' = conv
    · obtain rfl := hconv
      have hsame : session' = session₁ :=
        Option.some.inj ((sessions_putSession_self session').symm.trans hsession₁)
      rw [← hsame]
      refine ⟨sk, old ++ spent, hroot, hlater, fun d hd hpar => ?_⟩
      rcases hmem d hd with hbefore | ⟨-, key, hkey, hopen⟩
      · obtain ⟨key, hkey, hopen⟩ := hold d hbefore hpar
        exact ⟨key, List.mem_append_left _ hkey, hopen⟩
      · exact ⟨key, List.mem_append_right _ hkey, hopen⟩
    · replace hsession₁ : a.sessions conv' = some session₁ :=
        (sessions_putSession_ne session' hconv).symm.trans hsession₁
      obtain ⟨sk', spent', hroot', hspend', hkeys⟩ := h.sessions conv' session₁ hsession₁
      refine ⟨sk', spent', hroot', hspend', fun d hd hpar => ?_⟩
      rcases hmem d hd with hbefore | ⟨hpar', -⟩
      · exact hkeys d hbefore hpar
      · exact absurd hpar' (hother conv' d hconv hpar)
  · by_cases hconv : conv' = conv
    · obtain rfl := hconv
      exact fun hnone => by cases (sessions_putSession_self session').symm.trans hnone
    · show (a.putSession conv session').sessions conv' ≠ none
      rw [sessions_putSession_ne _ hconv]
      rcases hmem d hd with hbefore | ⟨hpar', -⟩
      · exact h.ouvertes d hbefore conv' hpar
      · exact absurd hpar' (hother conv' d hconv hpar)
  · rcases hmem d hd with hbefore | ⟨hpar, -⟩
    · exact h.signes d hbefore hgroupe
    · rw [hpar.2] at hgroupe
      cases hgroupe
  · rcases hlus with rfl | ⟨d, rfl, hpar, key, hkey, ad, plain, hopen⟩
    · exact h.nodup
    · refine List.nodup_cons.mpr ⟨fun hbefore => ?_, h.nodup⟩
      -- The key that opened it before is spent already.
      obtain ⟨key', hkey', ad', plain', hopen'⟩ := hold d hbefore hpar
      obtain rfl := haead.key_unique hopen hopen'
      have hspent := (List.nodup_append.mp hlater.nodup).2.1
      exact (List.nodup_append.mp hspent).2.2 key hkey' key hkey rfl

theorem Intact.appel (hkdf : HmacInjective P.toPrimitives) (haead : AeadIdeal P.toPrimitives)
    (h : Intact P a) {session session' : ZiaSession K} {call : RatchetCall K}
    (hsession : a.sessions conv = some session)
    (hcall : RatchetCall.step P.toPrimitives call session = some session') :
    Intact P (a.putSession conv session') := by
  obtain ⟨more, -, hmoves, -, -⟩ := call_spends hcall
  exact h.avancer hkdf haead hsession hmoves (.inl rfl)

/-- The keys of the groups move on; a row is opened, if any, that the engine had not accepted. -/
theorem Intact.avancerGroupes (h : Intact P a) {groupes : Receiver K} {lus : List Depot}
    (hreplay : ReplayInv P groupes) (hgrow : ∀ m ∈ a.groupes.accepted, m ∈ groupes.accepted)
    (hlus : lus = a.lus ∨ ∃ d, lus = d :: a.lus ∧
      Chat.Envelope.estGroupe d.rang.ratchetHeader = true ∧
      signedPart d.rang.ciphertext ∈ groupes.accepted.map (·.2) ∧
      signedPart d.rang.ciphertext ∉ a.groupes.accepted.map (·.2)) :
    Intact P { a with groupes := groupes, lus := lus } := by
  have hmem : ∀ d ∈ lus, d ∈ a.lus ∨ Chat.Envelope.estGroupe d.rang.ratchetHeader = true ∧
      signedPart d.rang.ciphertext ∈ groupes.accepted.map (·.2) := by
    intro d hd
    rcases hlus with rfl | ⟨d', rfl, hgroupe, hnew, -⟩
    · exact .inl hd
    · rcases List.mem_cons.mp hd with rfl | htail
      · exact .inr ⟨hgroupe, hnew⟩
      · exact .inl htail
  have hsession : ∀ d conv, d ∈ lus → ParSession conv d → d ∈ a.lus := by
    intro d conv hd hpar
    rcases hmem d hd with hbefore | ⟨hgroupe, -⟩
    · exact hbefore
    · rw [hpar.2] at hgroupe
      cases hgroupe
  refine ⟨hreplay, fun conv session hsome => ?_, fun d hd conv hpar =>
    h.ouvertes d (hsession d conv hd hpar) conv hpar, fun d hd hgroupe => ?_, ?_⟩
  · obtain ⟨sk, spent, hroot, hspend, hkeys⟩ := h.sessions conv session hsome
    exact ⟨sk, spent, hroot, hspend, fun d hd hpar =>
      hkeys d (hsession d conv hd hpar) hpar⟩
  · rcases hmem d hd with hbefore | ⟨-, hnew⟩
    · obtain ⟨m, hm, heq⟩ := List.mem_map.mp (h.signes d hbefore hgroupe)
      exact List.mem_map.mpr ⟨m, hgrow m hm, heq⟩
    · exact hnew
  · rcases hlus with rfl | ⟨d, rfl, hgroupe, -, hfresh⟩
    · exact h.nodup
    · exact List.nodup_cons.mpr ⟨fun hbefore => hfresh (h.signes d hbefore hgroupe), h.nodup⟩

theorem Intact.ouvrirGroupe (hkdf : HmacInjective P.toPrimitives)
    (hacyclic : HmacAcyclic P.toPrimitives) (haead : AeadIdeal P.toPrimitives) (h : Intact P a)
    (alloc : Bool) (groupe expediteur : Identifier)
    (hgroupe : Chat.Envelope.estGroupe d.rang.ratchetHeader = true) :
    Intact P (a.ouvrirGroupe P alloc groupe expediteur d) := by
  have hreplay := h.groupes.decrypt hkdf hacyclic haead alloc groupe expediteur d.rang.ciphertext
  refine h.avancerGroupes hreplay (Receiver.accepted_step _ _) ?_
  cases hopen : ziaSenderKeyDecrypt P alloc a.groupes.keys groupe expediteur
      d.rang.ciphertext with
  | mk result keys =>
    cases result with
    | error rc => exact .inl rfl
    | ok plain =>
      have haccepted : (Receiver.step P (.decrypt alloc groupe expediteur d.rang.ciphertext)
          a.groupes).accepted = (groupe, signedPart d.rang.ciphertext) :: a.groupes.accepted := by
        rw [Receiver.step, hopen]
      have hnodup := hreplay.nodup
      rw [haccepted, List.map_cons] at hnodup
      refine .inr ⟨d, rfl, hgroupe, ?_, (List.nodup_cons.mp hnodup).1⟩
      rw [haccepted]
      exact List.mem_cons_self

theorem Intact.ouvrirSession (hkdf : HmacInjective P.toPrimitives)
    (haead : AeadIdeal P.toPrimitives) (h : Intact P a) {t : Appareil K} {env : CallEnv K}
    {ratchetHeader : Bytes} (hpar : ParSession conv d)
    (ht : a.ouvrirSession P env conv ratchetHeader d = some t) : Intact P t := by
  rw [Appareil.ouvrirSession] at ht
  split at ht
  · obtain rfl := Option.some.inj ht
    exact h
  · rename_i session hsession
    split at ht
    · rename_i plain session' hdecrypt
      obtain rfl := Option.some.inj ht
      obtain ⟨key, hmoves, hopen⟩ := decrypt_ok_moves P.toPrimitives hdecrypt
      exact h.avancer hkdf haead hsession hmoves
        (.inr ⟨d, rfl, hpar, key, List.mem_singleton_self key, _, plain, hopen⟩)
    · rename_i rc session' hdecrypt
      obtain rfl := Option.some.inj ht
      obtain ⟨spent, hmoves⟩ := decrypt_error_moves P.toPrimitives hdecrypt
      exact h.avancer hkdf haead hsession hmoves (.inl rfl)
    · cases ht

/-- A row is opened at most once. -/
theorem Intact.lire (hkdf : HmacInjective P.toPrimitives)
    (hacyclic : HmacAcyclic P.toPrimitives) (haead : AeadIdeal P.toPrimitives) (h : Intact P a)
    {t : Appareil K} {expediteur : Uuid} {env : CallEnv K} {alloc : Bool}
    (ht : a.lire P nom expediteur env alloc d = some t) : Intact P t := by
  rw [Appareil.lire] at ht
  split at ht
  · obtain rfl := Option.some.inj ht
    exact h
  · rename_i conv hconv
    split at ht
    · rename_i hgroupe
      obtain rfl := Option.some.inj ht
      exact h.ouvrirGroupe hkdf hacyclic haead alloc _ _ hgroupe
    · rename_i hgroupe
      split at ht
      · obtain rfl := Option.some.inj ht
        exact h
      · exact h.ouvrirSession hkdf haead ⟨hconv, Bool.eq_false_iff.mpr hgroupe⟩ ht

/-- What a row that is read adds to the thread. -/
theorem lus_lire {t : Appareil K} {expediteur : Uuid} {env : CallEnv K} {alloc : Bool}
    (ht : a.lire P nom expediteur env alloc d = some t) : ∀ d' ∈ t.lus, d' ∈ a.lus ∨ d' = d := by
  have hkept : ∀ d' ∈ a.lus, d' ∈ a.lus ∨ d' = d := fun d' hd' => .inl hd'
  have hadded : ∀ d' ∈ d :: a.lus, d' ∈ a.lus ∨ d' = d := fun d' hd' => by
    rcases List.mem_cons.mp hd' with hself | hbefore
    · exact .inr hself
    · exact .inl hbefore
  rw [Appareil.lire] at ht
  split at ht
  · obtain rfl := Option.some.inj ht
    exact hkept
  · split at ht
    · obtain rfl := Option.some.inj ht
      rw [Appareil.ouvrirGroupe]
      split
      · exact hadded
      · exact hkept
    · split at ht
      · obtain rfl := Option.some.inj ht
        exact hkept
      · rw [Appareil.ouvrirSession] at ht
        split at ht
        · obtain rfl := Option.some.inj ht
          exact hkept
        · split at ht
          · obtain rfl := Option.some.inj ht
            exact hadded
          · obtain rfl := Option.some.inj ht
            exact hkept
          · cases ht

end Appareil

/-! ## Runs -/

namespace Courrier

variable {s t : Courrier K}

variable (nom P) in
/-- The accounts are kept, and the devices have opened rows of their own, each once. -/
structure Garde (s : Courrier K) : Prop where
  tenu : Tenu nom s
  intact : ∀ device, (s.appareils device).Intact P
  siens : ∀ device, ∀ d ∈ (s.appareils device).lus,
    d ∈ s.depots ∧ d.rang.recipientDeviceId = device

theorem garde_initial (me : Auth) (db : Database) : Garde nom P (initial me db) where
  tenu := tenu_initial me db
  intact _ := Appareil.intact_initial
  siens _ _ hd := absurd hd List.not_mem_nil

/-- Something happens on one device. -/
theorem Garde.poser (h : Garde nom P s) {device : Uuid} {a : Appareil K} (ha : a.Intact P)
    (hlus : ∀ d ∈ a.lus, d ∈ (s.appareils device).lus ∨
      d ∈ s.depots ∧ d.rang.recipientDeviceId = device) : Garde nom P (s.poser device a) where
  tenu := h.tenu
  intact device' := by
    by_cases hdevice : device' = device
    · obtain rfl := hdevice
      rw [show (s.poser device' a).appareils device' = a from Function.update_self _ _ _]
      exact ha
    · rw [show (s.poser device a).appareils device' = s.appareils device' from
        Function.update_of_ne hdevice _ _]
      exact h.intact device'
  siens device' d hd := by
    by_cases hdevice : device' = device
    · obtain rfl := hdevice
      rw [show (s.poser device' a).appareils device' = a from Function.update_self _ _ _] at hd
      rcases hlus d hd with hbefore | hnew
      · exact h.siens device' d hbefore
      · exact hnew
    · rw [show (s.poser device a).appareils device' = s.appareils device' from
        Function.update_of_ne hdevice _ _] at hd
      exact h.siens device' d hd

theorem Garde.choisir {c : Choice OutboxTask Outside} (h : Garde nom P s)
    (ht : s.choisir nom c = some t) (hsans : SansRedepot P (.choix c) s) : Garde nom P t := by
  have htenu := h.tenu.choisir ht hsans
  obtain ⟨pool, -, rfl⟩ := Option.map_eq_some_iff.mp ht
  have happareils : (s.inscrire c).appareils = s.appareils := by
    cases c <;> rfl
  refine ⟨htenu, fun device => ?_, fun device d hd => ?_⟩
  · show ((s.inscrire c).appareils device).Intact P
    rw [happareils]
    exact h.intact device
  · replace hd : d ∈ ((s.inscrire c).appareils device).lus := hd
    rw [happareils] at hd
    obtain ⟨hmem, hdevice⟩ := h.siens device d hd
    exact ⟨List.mem_append_left _ hmem, hdevice⟩

theorem Garde.step (hkdf : HmacInjective P.toPrimitives)
    (hacyclic : HmacAcyclic P.toPrimitives) (haead : AeadIdeal P.toPrimitives)
    (h : Garde nom P s) {f : Fait P} (hsans : SansRedepot P f s) (hneuves : ClefsNeuves P f s)
    (ht : step nom P f s = some t) : Garde nom P t := by
  cases f with
  | choix c => exact h.choisir ht hsans
  | lire d env alloc =>
    rw [Courrier.step] at ht
    split at ht
    · rename_i hreleve
      obtain ⟨a, ha, rfl⟩ := Option.map_eq_some_iff.mp ht
      refine h.poser ((h.intact _).lire hkdf hacyclic haead ha) fun d' hd' => ?_
      rcases Appareil.lus_lire ha d' hd' with hbefore | rfl
      · exact .inl hbefore
      · exact .inr ⟨hreleve.1, rfl⟩
    · cases ht
  | accepter device conv start =>
    rw [Courrier.step] at ht
    split at ht
    · cases ht
    · rename_i hnone
      obtain rfl := Option.some.inj ht
      exact h.poser ((h.intact device).accepter hkdf hnone start.2) fun d hd => .inl hd
  | appel device conv call =>
    rw [Courrier.step] at ht
    split at ht
    · cases ht
    · rename_i session hsession
      obtain ⟨session', hcall, rfl⟩ := Option.map_eq_some_iff.mp ht
      exact h.poser ((h.intact device).appel hkdf haead hsession hcall) fun d hd => .inl hd
  | groupe device call =>
    obtain rfl := Option.some.inj ht
    refine h.poser (Appareil.Intact.avancerGroupes (h.intact device) ?_
      (Receiver.accepted_step call _) (.inl rfl)) fun d hd => .inl hd
    exact (h.intact device).groupes.step hkdf hacyclic haead hneuves

/-- The rows of a device are copies of different messages. -/
theorem Garde.fil_nodup (h : Garde nom P s) (device : Uuid) :
    (s.appareils device).fil.Nodup := by
  obtain ⟨gs, -, hsuivi⟩ := h.tenu
  refine (h.intact device).nodup.map_on fun d hd d' hd' heq => ?_
  obtain ⟨hmem, hdevice⟩ := h.siens device d hd
  obtain ⟨hmem', hdevice'⟩ := h.siens device d' hd'
  exact List.inj_on_of_nodup_map hsuivi.uniques hmem hmem'
    (Prod.ext heq (hdevice.trans hdevice'.symm))

/-- However the requests are answered or lost, the messages sent again, the devices fetch and
the apps restart: where no device is posted a copy of a message of which it has one that the
sender believes lost, no thread of a recipient shows a message twice. -/
theorem fil_sans_doublon (hkdf : HmacInjective P.toPrimitives)
    (hacyclic : HmacAcyclic P.toPrimitives) (haead : AeadIdeal P.toPrimitives)
    (me : Auth) (db : Database) (faits : List (Fait P)) (s : Courrier K)
    (hsans : Always (step nom P) (SansRedepot P) faits (initial me db))
    (hneuves : Always (step nom P) (ClefsNeuves P) faits (initial me db))
    (hrun : run (step nom P) faits (initial me db) = some s) (device : Uuid) :
    (s.appareils device).fil.Nodup := by
  have hboth : Always (step nom P) (fun f s => SansRedepot P f s ∧ ClefsNeuves P f s) faits
      (initial me db) := hsans.and hneuves
  have hstep : ∀ f s t, Garde nom P s → (SansRedepot P f s ∧ ClefsNeuves P f s) →
      step nom P f s = some t → Garde nom P t :=
    fun f s t h hf ht => h.step hkdf hacyclic haead hf.1 hf.2 ht
  exact (run_invariant_of_always (Garde nom P) hstep (garde_initial me db) hboth hrun).fil_nodup
    device

end Courrier

/-! ## A timeout, and a message sent again -/

/-- Message `i` for the group, on the chain of the key `[3]`. -/
def sampleGroupMessage (i : Nat) : Bytes :=
  messageBytes symbolicSender [4] i
    (symbolicSeal (messageKeyAt symbolicSender [3] i) zeroNonce [0x61] (cString (sampleNom 5)))

/-- Its row for the device 20, under the upload `copie`. -/
def groupCopy (i rang copie : Nat) (perdu : Bool) : Depot :=
  ⟨2, ⟨rang, some 5, none, some 10, 20, copie, Chat.Envelope.packGroupHeader, sampleGroupMessage i,
    7, none, 2592000007⟩, perdu⟩

/-- The device 20 gets the key of the group. -/
def sampleKey : Fait symbolicSender :=
  .groupe 20 (.process (cString (sampleNom 5)) (cString (sampleNom 10))
    (some (symbolicDistribution [3])))

def composed : List (Choice OutboxTask Outside) :=
  [.start (.autre (.charger sampleGroup)), .start (.autre (.setActive (some 5))),
    .start (.sendPayload [0x61] none 1)]

/-- No session of the two devices encrypts, and the user sends the message again. -/
def retried (i : Nat) : List (Choice OutboxTask Outside) :=
  [.settle 2 .failed, .resume 2, .settle 2 .failed, .resume 2,
    .start (.renvoyer ⟨messageEnvoye sampleNom [0x61] none none 1 0 0 0 [], some 0⟩ 3),
    .settle 3 (.cleGroupe true), .resume 3, .settle 3 (.chiffre [] (sampleGroupMessage i)),
    .resume 3, .settle 3 (.handled 7 true), .resume 3, .settle 3 .done, .resume 3,
    .start (.getMessages ⟨2, 20⟩), .settle 4 (.handled 8 true)]

/-- The upload is stored and its answer lost. -/
def lostUpload : List (Choice OutboxTask Outside) :=
  [.settle 2 (.cleGroupe true), .resume 2, .settle 2 (.chiffre [] (sampleGroupMessage 0)),
    .resume 2, .settle 2 (.handled 7 false), .resume 2]

/-- The message sent again is another one for the engines. -/
def timedOut : List (Fait symbolicSender) :=
  sampleKey :: ((composed ++ lostUpload ++ retried 1).map .choix ++
    [.lire (groupCopy 0 1 1 true) symbolicEnv true,
      .lire (groupCopy 1 5 3 false) symbolicEnv true])

/-- The thread of the device 20 shows the message twice. -/
theorem timedOut_shownTwice : ∃ s,
    run (Courrier.step sampleNom symbolicSender) timedOut (.initial sampleMe sampleServer) =
        some s ∧
      (s.appareils 20).fil = [2, 2] ∧ ¬ (s.appareils 20).fil.Nodup := by
  have hany : (run (Courrier.step sampleNom symbolicSender) timedOut
      (.initial sampleMe sampleServer)).any (fun s => decide ((s.appareils 20).fil = [2, 2])) =
        true := by
    decide +kernel
  obtain ⟨s, hrun, hfil⟩ := (Option.any_eq_true _ _).mp hany
  have htwice := of_decide_eq_true hfil
  refine ⟨s, hrun, htwice, ?_⟩
  rw [htwice]
  decide

/-- The key of the group does not reach the devices. -/
def noKey : List (Choice OutboxTask Outside) := [.settle 2 (.cleGroupe false), .resume 2]

/-- The row of the message sent again is read twice. -/
def failedFirst : List (Fait symbolicSender) :=
  (composed ++ noKey ++ retried 0).map .choix ++
    [.lire (groupCopy 0 1 2 false) symbolicEnv true,
      .lire (groupCopy 0 1 2 false) symbolicEnv true]

/-- The first key of a group brings nothing back. -/
theorem sampleKey_neuve :
    Courrier.ClefsNeuves symbolicSender sampleKey (.initial sampleMe sampleServer) :=
  fun _ j => ⟨fun _ hm => absurd hm List.not_mem_nil, fun _ _ _ hst => by cases hst⟩

theorem failedFirst_neuves (s : Courrier Bytes) :
    Always (Courrier.step sampleNom symbolicSender) (Courrier.ClefsNeuves symbolicSender)
      failedFirst s := by
  refine always_of_invariant (fun _ => True) (C := fun f _ => f ∈ failedFirst)
    (fun _ _ _ _ _ _ => trivial) (fun f s _ hf => ?_) trivial (always_of_mem (fun _ hf => hf) s)
  rcases List.mem_append.mp hf with hchoix | hlire
  · obtain ⟨c, -, rfl⟩ := List.mem_map.mp hchoix
    trivial
  · rcases List.mem_cons.mp hlire with rfl | hlast
    · trivial
    · rw [List.mem_singleton.mp hlast]
      trivial

/-- The engine refuses the row the second time. -/
theorem failedFirst_shownOnce : ∃ s,
    run (Courrier.step sampleNom symbolicSender) (sampleKey :: failedFirst)
        (.initial sampleMe sampleServer) = some s ∧
      (s.appareils 20).fil = [2] ∧ (s.appareils 20).fil.Nodup := by
  have hany : (run (Courrier.step sampleNom symbolicSender) (sampleKey :: failedFirst)
      (.initial sampleMe sampleServer)).any (fun s => decide ((s.appareils 20).fil = [2])) =
        true := by
    decide +kernel
  obtain ⟨s, hrun, hfil⟩ := (Option.any_eq_true _ _).mp hany
  exact ⟨s, hrun, of_decide_eq_true hfil,
    @Courrier.fil_sans_doublon sampleNom Bytes symbolicSender symbolic_hmacInjective
      symbolicSender_hmacAcyclic symbolic_aeadIdeal sampleMe sampleServer
      (sampleKey :: failedFirst) s (by decide +kernel)
      ⟨sampleKey_neuve, fun t _ => failedFirst_neuves t⟩ hrun 20⟩

end ZiaCrypte.Sending

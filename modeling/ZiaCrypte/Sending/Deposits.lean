import ZiaCrypte.Sending.Accounts

/-!
# What the requests of a sending add

A request to one device stores a row for that device or nothing, a grouped request one row at
most for each device. With the rows that are added, the account of their message is the only
one that has something to know of them.
-/
namespace ZiaCrypte.Sending

open ZiaCrypte.Lib ZiaCrypte.Engine
open ZiaCrypte.Server (Uuid Auth Database MessageBlob SendBody GroupSendBody createManyBlobs)
open ZiaCrypte.Inbox (Text ChatMessage)

variable {nom : Uuid → Text} {s s' : Monde}

/-! ## Rows -/

/-- The rows that a request has added to the table. -/
def Monde.ajoutes (s : Monde) (call : Server.Call) (now : Nat) : List MessageBlob :=
  (s.traiter call now).2.messageBlobs.drop s.db.messageBlobs.length

theorem ajoutes_of_same {call : Server.Call} {now : Nat}
    (h : (s.traiter call now).2.messageBlobs = s.db.messageBlobs) : s.ajoutes call now = [] := by
  rw [Monde.ajoutes, h, List.drop_length]

theorem ajoutes_of_append {call : Server.Call} {now : Nat} {rows : List MessageBlob}
    (h : (s.traiter call now).2.messageBlobs = s.db.messageBlobs ++ rows) :
    s.ajoutes call now = rows := by
  rw [Monde.ajoutes, h, List.drop_left]

theorem ajoutes_postMessages (s : Monde) (body : SendBody) (now : Nat) :
    s.ajoutes (.postMessages body) now = [] ∨
      ∃ b, s.ajoutes (.postMessages body) now = [b] ∧
        b.recipientDeviceId = body.recipientDeviceId := by
  suffices h : (s.traiter (.postMessages body) now).2.messageBlobs = s.db.messageBlobs ∨
      ∃ b, (s.traiter (.postMessages body) now).2.messageBlobs = s.db.messageBlobs ++ [b] ∧
        b.recipientDeviceId = body.recipientDeviceId by
    rcases h with hsame | ⟨b, hrow, hb⟩
    · exact .inl (ajoutes_of_same hsame)
    · exact .inr ⟨b, ajoutes_of_append hrow, hb⟩
  unfold Monde.traiter Server.Request.handle
  split
  · exact .inl rfl
  simp only [Server.Call.route, Server.postMessages]
  split
  · exact .inl rfl
  split
  · exact .inl rfl
  split
  · exact .inl rfl
  split
  · exact .inl rfl
  split
  · exact .inl rfl
  · rename_i blobs hcreate
    unfold Server.createBlob at hcreate
    split at hcreate
    · cases hcreate
    · obtain rfl := Option.some.inj hcreate
      exact .inr ⟨_, rfl, rfl⟩

/-- Rows under one client id that do not conflict are for devices of their own. -/
theorem nodup_recipients {copie : Uuid} {rows : List MessageBlob}
    (hcopie : ∀ b ∈ rows, b.clientMessageId = copie)
    (hpair : rows.Pairwise fun b b' => b'.conflicts b = false) :
    (rows.map (·.recipientDeviceId)).Nodup := by
  refine List.pairwise_map.mpr (hpair.imp_of_mem fun {b b'} hb hb' hconflict heq => ?_)
  have hsame : b'.conflicts b = true := by
    simp [MessageBlob.conflicts, heq, hcopie b hb, hcopie b' hb']
  rw [hsame] at hconflict
  cases hconflict

theorem ajoutes_postMessagesGroup (s : Monde) (body : GroupSendBody) (now : Nat) :
    ((s.ajoutes (.postMessagesGroup body) now).map (·.recipientDeviceId)).Nodup ∧
      (body.recipientDeviceIds = [] → s.ajoutes (.postMessagesGroup body) now = []) := by
  suffices h : (s.traiter (.postMessagesGroup body) now).2.messageBlobs = s.db.messageBlobs ∨
      body.recipientDeviceIds ≠ [] ∧ ∃ rows,
        (s.traiter (.postMessagesGroup body) now).2.messageBlobs =
          createManyBlobs s.db.messageBlobs rows ∧
        ∀ b ∈ rows, b.clientMessageId = body.clientMessageId by
    rcases h with hsame | ⟨hids, rows, heq, hcopie⟩
    · rw [ajoutes_of_same hsame]
      exact ⟨List.nodup_nil, fun _ => rfl⟩
    · obtain ⟨kept, hkept, hsub, -, hpair⟩ := Server.createManyBlobs_eq s.db.messageBlobs rows
      rw [hkept] at heq
      rw [ajoutes_of_append heq]
      refine ⟨nodup_recipients (fun b hb => hcopie b (hsub.subset hb)) hpair, fun hnil => ?_⟩
      exact absurd hnil hids
  unfold Monde.traiter Server.Request.handle
  split
  · exact .inl rfl
  simp only [Server.Call.route, Server.postMessagesGroup]
  split
  · exact .inl rfl
  rename_i hids
  split
  · exact .inl rfl
  refine .inr ⟨fun hnil => hids (.inl hnil), _, rfl, fun b hb => ?_⟩
  obtain ⟨⟨device, i⟩, -, rfl⟩ := List.mem_map.mp hb
  rfl

/-! ## Accounts -/

variable {origine : Nat → Nat} {borne : Nat} {depots nouveaux : List Depot} {g g' : Phase}
  {gs : List Phase} {n : Nat}

/-- The other accounts are of other composed messages. -/
theorem Suivi.origine_ne (h : Suivi origine borne depots s g gs) (hg : g.numero = some n)
    {n' : Nat} (hn' : some n' ∈ (gs.map Phase.compte).sum + s.echecs) : origine n' ≠ origine n := by
  intro heq
  have hcomptes := h.distincts
  rw [comptes, add_assoc, Multiset.map_add, Phase.compte, hg, Option.elim_some,
    Multiset.map_singleton, Multiset.singleton_add, Multiset.nodup_cons] at hcomptes
  refine hcomptes.1 (Multiset.mem_map.mpr ⟨some n', hn', ?_⟩)
  rw [Option.map_some, Option.map_some, heq]

theorem mem_comptes_of_mem {g : Phase} (hg : g ∈ gs) (hn : g.numero = some n) :
    some n ∈ (gs.map Phase.compte).sum := by
  induction gs with
  | nil => cases hg
  | cons g₀ gs ih =>
    rw [List.map_cons, List.sum_cons, Multiset.mem_add]
    rcases List.mem_cons.mp hg with rfl | htail
    · rw [Phase.compte, hn]
      exact .inl (Multiset.mem_singleton_self _)
    · exact .inr (ih htail)

theorem Perdus.append {compose : Nat} (h : Perdus depots compose)
    (h' : ∀ d ∈ nouveaux, d.compose ≠ compose) : Perdus (depots ++ nouveaux) compose := by
  intro d hd hcompose
  rcases List.mem_append.mp hd with hold | hnew
  · exact h d hold hcompose
  · exact absurd hcompose (h' d hnew)

/-- What another phase knows of its copies is untouched. -/
theorem Phase.Sait.append {uuid : Nat} (h : g.Sait origine depots uuid) (hg : g.auRepos = true)
    (h' : ∀ n', g.numero = some n' → ∀ d ∈ nouveaux, d.compose ≠ origine n') :
    g.Sait origine (depots ++ nouveaux) uuid := by
  cases g with
  | dehors => trivial
  | reprise l n => cases hg
  | compose n => cases hg
  | envoi n faits recu =>
    refine ⟨h.1, fun hrecu => (h.2.1 hrecu).append (h' n rfl), fun d hd hcompose hdevice => ?_⟩
    rcases List.mem_append.mp hd with hold | hnew
    · exact h.2.2 d hold hcompose hdevice
    · exact absurd hcompose (h' n rfl d hnew)
  | livre n => exact h

/-- Rows are added for the message of the body that posted: none for a device that has one. -/
theorem Suivi.deposer (h : Suivi origine borne depots s g gs) (hg : g.numero = some n)
    (hg' : g'.numero = some n) (hconv : s'.conversations = s.conversations)
    (hhist : s'.hist = s.hist) (huuid : s'.uuid = s.uuid)
    (hcompose : ∀ d ∈ nouveaux, d.compose = origine n)
    (hnodup : (nouveaux.map (·.rang.recipientDeviceId)).Nodup)
    (hsans : ∀ d ∈ nouveaux, ∀ d' ∈ depots, d'.compose = origine n →
      d'.rang.recipientDeviceId ≠ d.rang.recipientDeviceId)
    (hphase : g'.Sait origine (depots ++ nouveaux) s.uuid) :
    Suivi origine borne (depots ++ nouveaux) s' g' gs := by
  have hcompte : g'.compte = g.compte := by rw [Phase.compte, Phase.compte, hg, hg']
  have hechecs : s'.echecs = s.echecs := by rw [Monde.echecs, Monde.echecs, hconv]
  have hcomptes : comptes s' g' gs = comptes s g gs := by
    rw [comptes, comptes, hcompte, hechecs]
  have hother : ∀ n', some n' ∈ (gs.map Phase.compte).sum + s.echecs → ∀ d ∈ nouveaux,
      d.compose ≠ origine n' := by
    intro n' hn' d hd heq
    rw [hcompose d hd] at heq
    exact h.origine_ne hg hn' heq.symm
  have hmine : some n ∈ comptes s g gs := by
    refine Multiset.mem_add.mpr (.inl (Multiset.mem_add.mpr (.inl ?_)))
    rw [Phase.compte, hg]
    exact Multiset.mem_singleton_self _
  constructor
  · rw [hconv]
    exact h.ids
  · unfold Cles
    rw [hconv]
    exact h.cles
  · unfold Monde.readHistory
    rw [hhist]
    exact h.hist
  · intro x hx
    rw [hechecs] at hx
    obtain ⟨n', rfl, hn', hperdus⟩ := h.echecs x hx
    rw [huuid]
    exact ⟨n', rfl, hn', hperdus.append (hother n' (Multiset.mem_add.mpr (.inr hx)))⟩
  · rw [huuid]
    exact hphase
  · intro g₁ hg₁
    obtain ⟨hrepos, hsait⟩ := h.autres g₁ hg₁
    rw [huuid]
    exact ⟨hrepos, hsait.append hrepos fun n' hn' =>
      hother n' (Multiset.mem_add.mpr (.inl (mem_comptes_of_mem hg₁ hn')))⟩
  · rw [hcomptes]
    exact h.distincts
  · rw [hcomptes]
    exact h.bornes
  · intro d hd
    rcases List.mem_append.mp hd with hold | hnew
    · exact h.anciens d hold
    · rw [hcompose d hnew]
      exact h.bornes n hmine
  · rw [List.map_append]
    refine List.nodup_append.mpr ⟨h.uniques, ?_, ?_⟩
    · refine List.Nodup.of_map Prod.snd ?_
      rw [List.map_map]
      exact hnodup
    · rintro a ha b hb rfl
      obtain ⟨d', hd', rfl⟩ := List.mem_map.mp ha
      obtain ⟨d, hd, heq⟩ := List.mem_map.mp hb
      obtain ⟨hsame, hdevice⟩ := Prod.mk.inj heq
      exact hsans d hd d' hd' (hsame.symm.trans (hcompose d hd)) hdevice.symm

/-! ## Requests -/

/-- The rows of one request: all of its message, and lost or not with its answer. -/
structure DepotsDe (origine : Nat → Nat) (n : Nat) (perdu : Bool) (nouveaux : List Depot) :
    Prop where
  compose : ∀ d ∈ nouveaux, d.compose = origine n
  perdu : ∀ d ∈ nouveaux, d.perdu = perdu
  nodup : (nouveaux.map (·.rang.recipientDeviceId)).Nodup

theorem depotsDe_nil (perdu : Bool) : DepotsDe origine n perdu [] :=
  ⟨fun _ h => absurd h List.not_mem_nil, fun _ h => absurd h List.not_mem_nil, List.nodup_nil⟩

theorem depotsDe_map {rows : List MessageBlob} {perdu : Bool}
    (h : (rows.map (·.recipientDeviceId)).Nodup) :
    DepotsDe origine n perdu (rows.map fun b => ⟨origine n, b, perdu⟩) := by
  refine ⟨fun d hd => ?_, fun d hd => ?_, ?_⟩
  · obtain ⟨b, -, rfl⟩ := List.mem_map.mp hd
    rfl
  · obtain ⟨b, -, rfl⟩ := List.mem_map.mp hd
    rfl
  · rw [List.map_map]
    exact h

variable (nom origine n) in
/-- What a request to a device adds, and how it is answered. -/
theorem depots_sendMessage (body : SendBody) (x : Outside) (s : Monde) :
    DepotsDe origine n (!((Request.sendMessage n body).answer nom x s).isOk)
        ((Request.sendMessage n body).depots origine x s) ∧
      ∀ d ∈ (Request.sendMessage n body).depots origine x s,
        d.rang.recipientDeviceId = body.recipientDeviceId := by
  cases x with
  | handled now received =>
    rcases ajoutes_postMessages s body now with hnone | ⟨b, hone, hb⟩
    · have hnil : (Request.sendMessage n body).depots origine (.handled now received) s = [] := by
        show (s.ajoutes (.postMessages body) now).map _ = []
        rw [hnone, List.map_nil]
      rw [hnil]
      exact ⟨depotsDe_nil _, fun d hd => absurd hd List.not_mem_nil⟩
    · have hrow : (Request.sendMessage n body).depots origine (.handled now received) s =
          [b].map fun b => ⟨origine n, b, !(s.acceptee (.postMessages body) now received).isOk⟩ := by
        rw [← hone]
        rfl
      rw [hrow]
      refine ⟨depotsDe_map (List.nodup_singleton _), fun d hd => ?_⟩
      rw [List.mem_singleton.mp hd]
      exact hb
  | _ => exact ⟨depotsDe_nil _, fun d hd => absurd hd List.not_mem_nil⟩

variable (nom origine n) in
theorem depots_sendGroupMessage (body : GroupSendBody) (x : Outside) (s : Monde) :
    DepotsDe origine n (!((Request.sendGroupMessage n body).answer nom x s).isOk)
        ((Request.sendGroupMessage n body).depots origine x s) ∧
      (body.recipientDeviceIds = [] → (Request.sendGroupMessage n body).depots origine x s = []) := by
  cases x with
  | handled now received =>
    obtain ⟨hnodup, hempty⟩ := ajoutes_postMessagesGroup s body now
    refine ⟨depotsDe_map hnodup, fun hids => ?_⟩
    show (s.ajoutes (.postMessagesGroup body) now).map _ = []
    rw [hempty hids, List.map_nil]
  | _ => exact ⟨depotsDe_nil _, fun _ => rfl⟩

/-- A device that is not yet dealt with gets a row only where it has none. -/
theorem DepotsDe.sansDeuxieme {perdu : Bool} (h : DepotsDe origine n perdu nouveaux)
    (hlost : ∀ d ∈ nouveaux, ∀ d' ∈ depots, d'.compose = origine n →
      d'.rang.recipientDeviceId = d.rang.recipientDeviceId → d'.perdu = true)
    (hsans : ∀ d ∈ nouveaux, ∀ d' ∈ depots, d'.perdu = true → d'.compose = d.compose →
      d'.rang.recipientDeviceId ≠ d.rang.recipientDeviceId) :
    ∀ d ∈ nouveaux, ∀ d' ∈ depots, d'.compose = origine n →
      d'.rang.recipientDeviceId ≠ d.rang.recipientDeviceId := by
  intro d hd d' hd' hcompose hdevice
  refine hsans d hd d' hd' (hlost d hd d' hd' hcompose hdevice) ?_ hdevice
  rw [hcompose, h.compose d hd]

theorem Suivi.sendMessage {faits : List Uuid} {recu : Bool}
    (h : Suivi origine borne depots s (.envoi n faits recu) gs) {body : SendBody} {x : Outside}
    (hnew : body.recipientDeviceId ∉ faits)
    (hsans : ∀ d ∈ (Request.sendMessage n body).depots origine x s, ∀ d' ∈ depots,
      d'.perdu = true → d'.compose = d.compose →
        d'.rang.recipientDeviceId ≠ d.rang.recipientDeviceId) :
    Suivi origine borne (depots ++ (Request.sendMessage n body).depots origine x s)
      ((Request.sendMessage n body).settle x s)
      (.envoi n (body.recipientDeviceId :: faits)
        (recu || ((Request.sendMessage n body).answer nom x s).isOk)) gs := by
  obtain ⟨hn, hperdus, hlibres⟩ := h.phase
  obtain ⟨hdepots, hdevice⟩ := depots_sendMessage nom origine n body x s
  have hkept : ((Request.sendMessage n body).settle x s).conversations = s.conversations ∧
      ((Request.sendMessage n body).settle x s).hist = s.hist ∧
      ((Request.sendMessage n body).settle x s).uuid = s.uuid := by
    cases x <;> exact ⟨rfl, rfl, rfl⟩
  refine h.deposer rfl rfl hkept.1 hkept.2.1 hkept.2.2 hdepots.compose hdepots.nodup
    (hdepots.sansDeuxieme (fun d hd d' hd' hcompose heq => ?_) hsans)
    ⟨hn, fun hrecu d hd hcompose => ?_, fun d hd hcompose hfaits => ?_⟩
  · refine hlibres d' hd' hcompose ?_
    rw [heq, hdevice d hd]
    exact hnew
  · obtain ⟨hold, herror⟩ := Bool.or_eq_false_iff.mp hrecu
    rcases List.mem_append.mp hd with hd | hd
    · exact hperdus hold d hd hcompose
    · rw [hdepots.perdu d hd, herror]
      rfl
  · rcases List.mem_append.mp hd with hd | hd
    · exact hlibres d hd hcompose fun hmem => hfaits (List.mem_cons_of_mem _ hmem)
    · rw [hdevice d hd] at hfaits
      exact absurd List.mem_cons_self hfaits

theorem Suivi.sendGroupMessage (h : Suivi origine borne depots s (.envoi n [] false) gs)
    {body : GroupSendBody} {x : Outside}
    (hsans : ∀ d ∈ (Request.sendGroupMessage n body).depots origine x s, ∀ d' ∈ depots,
      d'.perdu = true → d'.compose = d.compose →
        d'.rang.recipientDeviceId ≠ d.rang.recipientDeviceId) :
    Suivi origine borne (depots ++ (Request.sendGroupMessage n body).depots origine x s)
      ((Request.sendGroupMessage n body).settle x s)
      ((Phase.envoi n [] false).reponse (.sendGroupMessage n body)
        ((Request.sendGroupMessage n body).answer nom x s)) gs := by
  obtain ⟨hn, hperdus, -⟩ := h.phase
  obtain ⟨hdepots, hempty⟩ := depots_sendGroupMessage nom origine n body x s
  have hkept : ((Request.sendGroupMessage n body).settle x s).conversations = s.conversations ∧
      ((Request.sendGroupMessage n body).settle x s).hist = s.hist ∧
      ((Request.sendGroupMessage n body).settle x s).uuid = s.uuid := by
    cases x <;> exact ⟨rfl, rfl, rfl⟩
  have hseuls := hdepots.sansDeuxieme
    (fun _ _ d' (hd' : d' ∈ depots) hcompose _ => hperdus rfl d' hd' hcompose) hsans
  unfold Phase.reponse
  dsimp only
  split
  · exact h.deposer rfl rfl hkept.1 hkept.2.1 hkept.2.2 hdepots.compose hdepots.nodup hseuls hn
  · rename_i hnot
    -- Without an answer the rows are believed lost; to no device there are none.
    have hlost : Perdus (depots ++ (Request.sendGroupMessage n body).depots origine x s)
        (origine n) := by
      intro d hd hcompose
      rcases List.mem_append.mp hd with hold | hnew
      · exact hperdus rfl d hold hcompose
      · cases hok : ((Request.sendGroupMessage n body).answer nom x s).isOk with
        | false =>
          rw [hdepots.perdu d hnew, hok]
          rfl
        | true =>
          have hids : body.recipientDeviceIds = [] := by simpa [hok] using hnot
          rw [hempty hids] at hnew
          cases hnew
    exact h.deposer rfl rfl hkept.1 hkept.2.1 hkept.2.2 hdepots.compose hdepots.nodup hseuls
      ⟨hn, fun _ => hlost, fun d hd hcompose _ => hlost d hd hcompose⟩

/-- Every other request leaves the accounts alone. -/
theorem Suivi.settle_autre (h : Suivi origine borne depots s g gs) (hg : g.auRepos = true)
    {q : Request} (hq : q.call = none) (x : Outside) :
    Suivi origine borne depots (q.settle x s) g gs := by
  cases q with
  | sendGroupMessage envoi body => cases hq
  | sendMessage envoi body => cases hq
  | vaultWrite conv lignes =>
    cases x with
    | done =>
      refine h.of_le hg h.ids h.cles (fun conv' l hl => ?_) (Nat.le_refl _) le_rfl
      rcases mem_insert_hist hl with hnew | hold
      · obtain ⟨l₀, -, rfl⟩ := List.mem_map.mp hnew
        rfl
      · exact h.hist conv' l hold
    | _ => exact h
  | updateMany device pending =>
    cases x with
    | handled now received => exact h.of_same hg rfl rfl (Nat.le_refl _)
    | _ => exact h
  | _ => exact h

/-- A body that waits is at rest. -/
theorem auRepos_of_demande {q : Request} (h : g.Demande q) : g.auRepos = true := by
  cases g with
  | reprise l n => exact h.elim
  | compose n => exact h.elim
  | _ => rfl

variable (nom) in
/-- A request is carried out and answered, and stores nothing for a device that has a copy that
is believed lost. -/
theorem Suivi.settle (h : Suivi origine borne depots s g gs) {q : Request} {x : Outside}
    (hask : g.Demande q)
    (hsans : ∀ d ∈ q.depots origine x s, ∀ d' ∈ depots, d'.perdu = true →
      d'.compose = d.compose → d'.rang.recipientDeviceId ≠ d.rang.recipientDeviceId) :
    Suivi origine borne (depots ++ q.depots origine x s) (q.settle x s)
      (g.reponse q (q.answer nom x s)) gs := by
  by_cases hq : q.call = none
  · have hnil : q.depots origine x s = [] := by
      unfold Request.depots
      rw [hq]
    rw [hnil, List.append_nil, reponse_eq hq]
    exact h.settle_autre (auRepos_of_demande hask) hq x
  · cases g with
    | envoi n faits recu =>
      cases q with
      | sendMessage envoi body =>
        obtain ⟨rfl, hnew⟩ := hask
        exact h.sendMessage hnew hsans
      | sendGroupMessage envoi body =>
        obtain ⟨rfl, rfl, rfl⟩ := hask
        exact h.sendGroupMessage hsans
      | _ => exact absurd rfl hq
    | dehors => exact absurd hask hq
    | livre n => exact absurd hask hq
    | reprise l n => exact hask.elim
    | compose n => exact hask.elim

theorem Suivi.issue (h : Suivi origine borne depots s g gs) (q : Request) :
    Suivi origine borne depots (q.issue s) g gs := by
  cases q <;> exact h.mono h.ids h.cles h.hist (Nat.le_refl _) h.phase h.echecs le_rfl

theorem auRepos_reponse {q : Request} (hg : g.auRepos = true) (r : Except Unit (Reply q)) :
    (g.reponse q r).auRepos = true := by
  cases g with
  | envoi n faits recu =>
    cases q with
    | sendGroupMessage envoi body =>
      unfold Phase.reponse
      dsimp only
      split <;> rfl
    | _ => rfl
  | _ => exact hg

end ZiaCrypte.Sending

import ZiaCrypte.Realtime.GatewayIndexes

/-!
# What an observer was told last, and what is so

A snapshot looks at the ready states of the sockets, the presence events at the set of
the devices that are visible. The two part where a device whose sockets are all about to
close connects again, and where one without any connection declares itself visible.
-/
namespace ZiaCrypte.Realtime

open ZiaCrypte.Lib ZiaCrypte.Server

/-- What a message says of a device. A snapshot says it of every device it is about. -/
def Envoi.info (d : Uuid) : Envoi → Option Etat
  | .snapshot online => some (if d ∈ online then .online else .offline)
  | .presence device etat => if device = d then some etat else none
  | _ => none

namespace Gateway

/-- The last thing the socket was told of the device. -/
def derniereInfo (g : Gateway) (w : Socket) (d : Uuid) : Option Etat :=
  g.envois.findSome? fun x => if x.1 = w then x.2.info d else none

def etat (g : Gateway) (d : Uuid) : Etat := if g.estEnLigne d then .online else .offline

/-- Some socket of the device is closing. -/
def EnFermeture (g : Gateway) (d : Uuid) : Prop :=
  ∃ w c, g.connexions w = some c ∧ c.titulaire.deviceId = d ∧ c.readyState = .closing

/-- Every open socket was last told how the devices it watches are, as far as none of
their sockets is closing. -/
def Fidele (g : Gateway) : Prop :=
  ∀ w d, g.isOpen w = true → g.abonnements.Holds w d → ¬ g.EnFermeture d →
    g.derniereInfo w d = some (g.etat d)

/-- What has to be so of a device for the word to be kept. -/
def Annonce (g : Gateway) (d : Uuid) : Etat → Prop
  | .online => d ∈ g.visibles ∧ (g.byDevice.get? d).isSome
  | .offline => g.estEnLigne d = false

/-- What a socket was last told of a device is kept. -/
def Tient (g : Gateway) (w : Socket) (d : Uuid) : Prop :=
  ∃ e, g.derniereInfo w d = some e ∧ g.Annonce d e

def Suivi (g : Gateway) : Prop :=
  ∀ w d, g.isOpen w = true → g.abonnements.Holds w d → g.Tient w d

/-- A closed socket has no holder any more. -/
def Vivants (g : Gateway) : Prop :=
  ∀ w c, g.connexions w = some c → c.readyState = .closed → g.titulaires.get? w = none

theorem vivants_empty : Gateway.empty.Vivants := by
  intro w c hc
  cases hc

theorem suivi_empty : Gateway.empty.Suivi := by
  intro w d _ hw
  exact absurd hw Index.not_holds_empty

variable {g g' : Gateway} {w w' : Socket} {d d' : Uuid} {e : Envoi} {etat : Etat}

/-! ## What was sent last -/

theorem findSome?_sent {α : Type} (f : Envoi → Option α) (es : List (Socket × Envoi))
    (hf : ∀ x ∈ es, x.1 = w → f x.2 = none) (rest : List (Socket × Envoi)) :
    (es ++ rest).findSome? (fun x => if x.1 = w then f x.2 else none) =
      rest.findSome? (fun x => if x.1 = w then f x.2 else none) := by
  rw [List.findSome?_append]
  have hnone : es.findSome? (fun x => if x.1 = w then f x.2 else none) = none := by
    rw [List.findSome?_eq_none_iff]
    intro x hx
    by_cases hw : x.1 = w
    · rw [if_pos hw]
      exact hf x hx hw
    · rw [if_neg hw]
  rw [hnone, Option.none_or]

theorem info_sansPresence (he : e.SansPresence) : e.info d = none := by
  cases e with
  | snapshot online => exact absurd he id
  | presence device etat => exact absurd he id
  | _ => rfl

theorem derniereInfo_relais (h : SentOnly Envoi.SansPresence g g') (w : Socket) (d : Uuid) :
    g'.derniereInfo w d = g.derniereInfo w d := by
  obtain ⟨es, hes, rfl⟩ := h
  exact findSome?_sent (Envoi.info d) es (fun x hx _ => info_sansPresence (hes x hx).2) g.envois

/-- One message to some sockets. -/
theorem findSome?_send {α : Type} (f : Envoi → Option α) (g : Gateway) (sockets : List Socket)
    (e : Envoi) (w : Socket) :
    (g.send sockets e).envois.findSome? (fun x => if x.1 = w then f x.2 else none) =
      if w ∈ sockets ∧ g.isOpen w = true then
        (f e).or (g.envois.findSome? fun x => if x.1 = w then f x.2 else none)
      else g.envois.findSome? fun x => if x.1 = w then f x.2 else none := by
  unfold send
  dsimp only
  by_cases hw : w ∈ sockets ∧ g.isOpen w = true
  · rw [if_pos hw, List.findSome?_append]
    cases hinfo : f e with
    | none =>
      rw [Option.none_or]
      have hnone : ((sockets.filter g.isOpen).map fun w => (w, e)).reverse.findSome?
          (fun x => if x.1 = w then f x.2 else none) = none := by
        rw [List.findSome?_eq_none_iff]
        intro x hx
        obtain ⟨v, -, rfl⟩ := List.mem_map.mp (List.mem_reverse.mp hx)
        by_cases hv : v = w <;> simp [hv, hinfo]
      rw [hnone, Option.none_or]
    | some a =>
      have hsome : ((sockets.filter g.isOpen).map fun w => (w, e)).reverse.findSome?
          (fun x => if x.1 = w then f x.2 else none) = some a := by
        cases hfound : ((sockets.filter g.isOpen).map fun w => (w, e)).reverse.findSome?
            (fun x => if x.1 = w then f x.2 else none) with
        | none =>
          rw [List.findSome?_eq_none_iff] at hfound
          have hmem : (w, e) ∈ ((sockets.filter g.isOpen).map fun w => (w, e)).reverse :=
            List.mem_reverse.mpr (List.mem_map.mpr ⟨w, List.mem_filter.mpr hw, rfl⟩)
          have habsurd := hfound (w, e) hmem
          simp [hinfo] at habsurd
        | some a' =>
          obtain ⟨x, hx, hxe⟩ := List.exists_of_findSome?_eq_some hfound
          obtain ⟨v, -, rfl⟩ := List.mem_map.mp (List.mem_reverse.mp hx)
          by_cases hv : v = w
          · rw [if_pos hv, hinfo] at hxe
            exact hxe.symm
          · rw [if_neg hv] at hxe
            cases hxe
      rw [hsome]
  · rw [if_neg hw]
    refine findSome?_sent f _ (fun x hx hxw => ?_) g.envois
    obtain ⟨v, hv, rfl⟩ := List.mem_map.mp (List.mem_reverse.mp hx)
    obtain rfl : v = w := hxw
    exact absurd (List.mem_filter.mp hv) hw

theorem derniereInfo_send (g : Gateway) (sockets : List Socket) (e : Envoi) (w : Socket)
    (d : Uuid) : (g.send sockets e).derniereInfo w d =
      if w ∈ sockets ∧ g.isOpen w = true then (e.info d).or (g.derniereInfo w d)
      else g.derniereInfo w d :=
  findSome?_send (Envoi.info d) g sockets e w

/-- An event about a device reaches the open sockets that watch it. -/
theorem derniereInfo_diffuserPresence (g : Gateway) (d : Uuid) (etat : Etat) (w : Socket)
    (d' : Uuid) : (g.diffuserPresence d etat).derniereInfo w d' =
      if d' = d ∧ g.observateurs.Holds d w ∧ g.isOpen w = true then some etat
      else g.derniereInfo w d' := by
  rw [diffuserPresence_eq_send, derniereInfo_send,
    if_congr (and_congr_left' Index.holds_iff_getD.symm) rfl rfl]
  by_cases hd : d' = d
  · subst hd
    by_cases hw : g.observateurs.Holds d' w ∧ g.isOpen w = true
    · rw [if_pos hw, if_pos ⟨rfl, hw⟩]
      simp [Envoi.info]
    · rw [if_neg hw, if_neg fun hand => hw hand.2]
  · have hother : (Envoi.presence d etat).info d' = none := if_neg (Ne.symm hd)
    rw [hother, Option.none_or, ite_self, if_neg fun hand => hd hand.1]

/-! ## Who is online -/

theorem estEnLigne_iff : g.estEnLigne d = true ↔
    d ∈ g.visibles ∧ ∃ w, g.byDevice.Holds d w ∧ g.isOpen w = true := by
  unfold estEnLigne
  rw [Bool.and_eq_true, decide_eq_true_eq]
  refine and_congr_right fun _ => ?_
  cases hget : g.byDevice.get? d with
  | none =>
    constructor
    · exact fun h => nomatch h
    · intro ⟨w, hw, _⟩
      exact absurd hw (Index.not_holds_of_get?_none hget)
  | some sockets =>
    dsimp only
    rw [List.any_eq_true]
    constructor
    · intro ⟨w, hw, hopen⟩
      exact ⟨w, (Index.holds_of_get? hget).mpr hw, hopen⟩
    · intro ⟨w, hw, hopen⟩
      exact ⟨w, (Index.holds_of_get? hget).mp hw, hopen⟩

/-- Fewer devices visible, fewer sockets open: fewer devices online. -/
theorem estEnLigne_anti (hvisible : d ∈ g'.visibles → d ∈ g.visibles)
    (hsockets : ∀ w, g'.byDevice.Holds d w → g'.isOpen w = true →
      g.byDevice.Holds d w ∧ g.isOpen w = true) (h : g.estEnLigne d = false) :
    g'.estEnLigne d = false := by
  rw [← Bool.not_eq_true] at h ⊢
  rw [estEnLigne_iff] at h ⊢
  intro ⟨hd, w, hw, hopen⟩
  obtain ⟨hw', hopen'⟩ := hsockets w hw hopen
  exact h ⟨hvisible hd, w, hw', hopen'⟩

theorem estEnLigne_congr (hvisibles : g'.visibles = g.visibles)
    (hbyDevice : g'.byDevice = g.byDevice) (hconnexions : g'.connexions = g.connexions) :
    g'.estEnLigne = g.estEnLigne := by
  have hopen : g'.isOpen = g.isOpen := by
    unfold isOpen
    rw [hconnexions]
  funext d
  unfold estEnLigne
  rw [hvisibles, hbyDevice, hopen]

/-- Under the invariants of the indexes what is kept is what is so. -/
theorem Suivi.fidele (h : g.Suivi) (hg : g.Indexes) (hv : g.Vivants) : g.Fidele := by
  intro w d hopen hw hfermeture
  obtain ⟨e, he, hannonce⟩ := h w d hopen hw
  rw [he]
  congr 1
  cases e with
  | offline =>
    unfold Gateway.etat
    rw [if_neg]
    rw [Bool.not_eq_true]
    exact hannonce
  | online =>
    obtain ⟨hvisible, hsome⟩ := hannonce
    obtain ⟨v, hv'⟩ := hg.byDevice_noEmpty.isSome_iff.mp hsome
    obtain ⟨t, ht, htd⟩ := hg.titulaire d v hv'
    have hpoignee := hg.poignee v t ht
    cases hcon : g.connexions v with
    | none =>
      rw [hcon] at hpoignee
      cases hpoignee
    | some c =>
      rw [hcon] at hpoignee
      have hct : c.titulaire = t := Option.some.inj hpoignee
      have hopened : c.readyState = .opened := by
        cases hstate : c.readyState with
        | opened => rfl
        | closing => exact absurd ⟨v, c, hcon, by rw [hct, htd], hstate⟩ hfermeture
        | closed =>
          have hnone := hv v c hcon hstate
          rw [ht] at hnone
          cases hnone
      have hvopen : g.isOpen v = true := by
        unfold isOpen
        rw [hcon]
        simp [hopened]
      unfold Gateway.etat
      rw [if_pos]
      exact estEnLigne_iff.mpr ⟨hvisible, v, hv', hvopen⟩

/-! ## What the moves keep -/

/-- A move that tells no open socket anything of a device it watches. -/
theorem Suivi.keeps (h : g.Suivi)
    (hsub : ∀ w d, g'.isOpen w = true → g'.abonnements.Holds w d →
      g.isOpen w = true ∧ g.abonnements.Holds w d)
    (hinfo : ∀ w d, g'.derniereInfo w d = g.derniereInfo w d)
    (hannonce : ∀ w d e, g'.isOpen w = true → g'.abonnements.Holds w d →
      g.derniereInfo w d = some e → g.Annonce d e → g'.Annonce d e) : g'.Suivi := by
  intro w d hopen hw
  obtain ⟨hopen', hw'⟩ := hsub w d hopen hw
  obtain ⟨e, he, hd⟩ := h w d hopen' hw'
  exact ⟨e, (hinfo w d).trans he, hannonce w d e hopen hw he hd⟩

theorem derniereInfo_congr (h : g'.envois = g.envois) (w : Socket) (d : Uuid) :
    g'.derniereInfo w d = g.derniereInfo w d := by
  unfold derniereInfo
  rw [h]

/-- Who is visible changes for one device, and those who watch it are told. -/
theorem suivi_annonce (hsub : g.Souscriptions) {visibles : List Uuid}
    (hothers : ∀ d', d' ≠ d → (d' ∈ visibles ↔ d' ∈ g.visibles))
    (hself : ∀ w, g.isOpen w = true → g.abonnements.Holds w d →
      ({ g with visibles := visibles } : Gateway).Annonce d etat)
    (htient : ∀ w d', d' ≠ d → g.isOpen w = true → g.abonnements.Holds w d' → g.Tient w d') :
    (({ g with visibles := visibles }).diffuserPresence d etat).Suivi := by
  have hsame : SentOnly (fun _ => True) { g with visibles := visibles }
      (({ g with visibles := visibles }).diffuserPresence d etat) :=
    sentOnly_diffuserPresence { g with visibles := visibles } d trivial
  obtain ⟨es, -, heq⟩ := hsame
  intro w d' hopen hw
  have hopen' : g.isOpen w = true := by
    rw [heq] at hopen
    exact hopen
  have hw' : g.abonnements.Holds w d' := by
    rw [heq] at hw
    exact hw
  have hannonce : ∀ e, ({ g with visibles := visibles } : Gateway).Annonce d' e →
      (({ g with visibles := visibles }).diffuserPresence d etat).Annonce d' e := by
    intro e he
    rw [heq]
    cases e with
    | online => exact he
    | offline => exact he
  unfold Tient
  rw [derniereInfo_diffuserPresence]
  by_cases hd : d' = d
  · subst hd
    exact ⟨etat, if_pos ⟨rfl, (hsub.inverse w d').mp hw', hopen'⟩,
      hannonce etat (hself w hopen' hw')⟩
  · obtain ⟨e, he, hold⟩ := htient w d' hd hopen' hw'
    refine ⟨e, (if_neg fun hand => hd hand.1).trans he, hannonce e ?_⟩
    cases e with
    | online => exact ⟨(hothers d' hd).mpr hold.1, hold.2⟩
    | offline =>
      exact estEnLigne_anti (fun hvisible => (hothers d' hd).mp hvisible)
        (fun w hw hopen => ⟨hw, hopen⟩) hold

/-- A device without a connection is no longer visible, and those who watch it know. -/
theorem suivi_masquer (hsub : g.Souscriptions)
    (htient : ∀ w d', g.isOpen w = true → g.abonnements.Holds w d' →
      (d' = d → d ∉ g.visibles) → g.Tient w d') : (g.masquer d).Suivi := by
  unfold masquer
  split
  · refine suivi_annonce hsub (fun d' hd => ?_) (fun w _ _ => ?_) fun w d' hd hopen hw => ?_
    · rw [List.mem_filter]
      simp [hd]
    · rw [Annonce, ← Bool.not_eq_true, estEnLigne_iff, List.mem_filter]
      simp
    · exact htient w d' hopen hw fun heq => absurd heq hd
  · rename_i hd
    intro w d' hopen hw
    exact htient w d' hopen hw fun _ => hd

theorem Suivi.relais (h : g.Suivi) (hs : SentOnly Envoi.SansPresence g g') : g'.Suivi := by
  have hinfo := derniereInfo_relais hs
  obtain ⟨es, -, rfl⟩ := hs
  refine h.keeps (fun w d hopen hw => ⟨hopen, hw⟩) hinfo fun w d e _ _ _ hd => ?_
  cases e with
  | online => exact hd
  | offline => exact hd

theorem Suivi.closedOnly (h : g.Suivi) (hs : ClosedOnly g g') : g'.Suivi := by
  refine h.keeps (fun w d hopen hw => ⟨hs.isOpen w hopen, ?_⟩) (derniereInfo_congr hs.envois)
    fun w d e _ _ _ hd => ?_
  · rw [hs.abonnements] at hw
    exact hw
  · cases e with
    | online =>
      unfold Annonce
      rw [hs.visibles, hs.byDevice]
      exact hd
    | offline =>
      refine estEnLigne_anti (fun hvisible => ?_) (fun w hw hopen => ?_) hd
      · rw [hs.visibles] at hvisible
        exact hvisible
      · rw [hs.byDevice] at hw
        exact ⟨hw, hs.isOpen w hopen⟩

theorem Suivi.restreint (h : g.Suivi) (hs : Restreint g g') : g'.Suivi := by
  refine h.keeps (fun w d hopen hw => ⟨?_, hs.abonnements w d hw⟩) (derniereInfo_congr hs.envois)
    fun w d e _ _ _ hd => ?_
  · unfold isOpen at hopen ⊢
    rw [hs.connexions] at hopen
    exact hopen
  · cases e with
    | online =>
      unfold Annonce
      rw [hs.visibles, hs.byDevice]
      exact hd
    | offline =>
      unfold Annonce
      rw [estEnLigne_congr hs.visibles hs.byDevice hs.connexions]
      exact hd

/-- The device is visible with no open socket: nobody watching it may think it offline. -/
theorem Suivi.connexion (h : g.Suivi) (hg : g.Indexes) (hfresh : g.connexions w = none)
    (claims : Option Titulaire)
    (hclaims : ∀ t, claims = some t → t.deviceId ∈ g.visibles → ∀ v, g.isOpen v = true →
      g.abonnements.Holds v t.deviceId → g.derniereInfo v t.deviceId ≠ some .offline) :
    (g.connexion w claims).Suivi := by
  cases claims with
  | none => exact h
  | some t =>
    have hready := (connexion_some g w t).mono (Q := Envoi.SansPresence) (by rintro e rfl; trivial)
    refine Suivi.relais ?_ hready
    have hopen : ∀ x, x ≠ w → ({ g with
        byDevice := g.byDevice.add t.deviceId w
        titulaires := g.titulaires.insert w t
        connexions := Function.update g.connexions w (some ⟨t, .opened⟩) } : Gateway).isOpen x =
          g.isOpen x := by
      intro x hx
      unfold isOpen
      dsimp only
      rw [Function.update_of_ne hx]
    refine h.keeps (fun v d hv hd => ?_) (fun v d => rfl) fun v d e hv hd he hold => ?_
    · have hvw : v ≠ w := by
        rintro rfl
        exact hg.fresh_abonnements hfresh hd
      rw [hopen v hvw] at hv
      exact ⟨hv, hd⟩
    · have hvw : v ≠ w := by
        rintro rfl
        exact hg.fresh_abonnements hfresh hd
      rw [hopen v hvw] at hv
      cases e with
      | online => exact ⟨hold.1, Index.isSome_get?_add.mpr (Or.inr hold.2)⟩
      | offline =>
        rw [Annonce, ← Bool.not_eq_true, estEnLigne_iff] at hold ⊢
        intro ⟨hvisible, x, hx, hxopen⟩
        rcases Index.holds_add.mp hx with hbefore | ⟨rfl, -⟩
        · have hxw : x ≠ w := by
            rintro rfl
            exact hg.fresh_byDevice hfresh hbefore
          rw [hopen x hxw] at hxopen
          exact hold ⟨hvisible, x, hbefore, hxopen⟩
        · exact hclaims t rfl hvisible v hv hd he

/-- A subscription ends with the snapshot, and what it looks at is as it was. -/
theorem abonnerPresence_eq_send (hcontains : g.titulaires.containsKey w = true)
    (autorises : List Uuid) : ∃ g2 : Gateway, g2.envois = g.envois ∧ g2.isOpen = g.isOpen ∧
      g2.estEnLigne = g.estEnLigne ∧
      g.abonnerPresence w autorises = g2.send [w] (.snapshot (autorises.filter g2.estEnLigne)) := by
  have hs := desabonner_restreint g w
  unfold Gateway.abonnerPresence
  rw [if_neg (by simp [hcontains])]
  refine ⟨_, ?_, ?_, ?_, rfl⟩
  · split
    · exact hs.envois
    · exact hs.envois
  · unfold isOpen
    split
    · rw [hs.connexions]
    · rw [hs.connexions]
  · split
    · exact estEnLigne_congr hs.visibles hs.byDevice hs.connexions
    · exact estEnLigne_congr hs.visibles hs.byDevice hs.connexions

/-- The snapshot answers for every device of the subscription. -/
theorem derniereInfo_abonnerPresence (hcontains : g.titulaires.containsKey w = true)
    (autorises : List Uuid) (v : Socket) (d : Uuid) :
    (g.abonnerPresence w autorises).derniereInfo v d =
      if v = w ∧ g.isOpen v = true then
        some (if d ∈ autorises.filter g.estEnLigne then .online else .offline)
      else g.derniereInfo v d := by
  obtain ⟨g2, henvois, hopen, hline, heq⟩ := abonnerPresence_eq_send hcontains autorises
  rw [heq, derniereInfo_send, hopen, hline, derniereInfo_congr henvois]
  by_cases hv : v = w ∧ g.isOpen v = true
  · rw [if_pos hv, if_pos ⟨List.mem_singleton.mpr hv.1, hv.2⟩]
    rfl
  · rw [if_neg hv, if_neg fun hand => hv ⟨List.mem_singleton.mp hand.1, hand.2⟩]

theorem Suivi.abonnerPresence (h : g.Suivi) (hg : g.Indexes) (w : Socket) (autorises : List Uuid) :
    (g.abonnerPresence w autorises).Suivi := by
  by_cases hcontains : g.titulaires.containsKey w = true
  · have hr := reabonne_abonnerPresence hg.souscriptions hcontains autorises
    have hannonce : ∀ d e, g.Annonce d e → (g.abonnerPresence w autorises).Annonce d e := by
      intro d e hd
      cases e with
      | online =>
        unfold Annonce
        rw [hr.visibles, hr.byDevice]
        exact hd
      | offline =>
        unfold Annonce
        rw [estEnLigne_congr hr.visibles hr.byDevice hr.connexions]
        exact hd
    intro v d hopen hv
    have hopen' : g.isOpen v = true := by
      unfold isOpen at hopen ⊢
      rw [hr.connexions] at hopen
      exact hopen
    unfold Tient
    rw [derniereInfo_abonnerPresence hcontains]
    rw [hr.abonnements] at hv
    by_cases hvw : v = w
    · rw [if_pos hvw] at hv
      rw [if_pos ⟨hvw, hopen'⟩]
      by_cases honline : g.estEnLigne d = true
      · obtain ⟨hvisible, x, hx, -⟩ := estEnLigne_iff.mp honline
        rw [if_pos (List.mem_filter.mpr ⟨hv, honline⟩)]
        exact ⟨.online, rfl, hannonce d .online
          ⟨hvisible, hg.byDevice_noEmpty.isSome_iff.mpr ⟨x, hx⟩⟩⟩
      · rw [if_neg fun hmem => honline (List.mem_filter.mp hmem).2]
        exact ⟨.offline, rfl, hannonce d .offline (by rw [Annonce]; simpa using honline)⟩
    · rw [if_neg hvw] at hv
      rw [if_neg fun hand => hvw hand.1]
      obtain ⟨e, he, hd⟩ := h v d hopen' hv
      exact ⟨e, he, hannonce d e hd⟩
  · rw [abonnerPresence_of_not hcontains]
    exact h

/-- A connection that goes takes its device with it when it is the last one. -/
theorem Suivi.detach (h : g.Suivi) (hg : g.Indexes) (d : Uuid) (w : Socket) :
    (g.detach d w).Suivi := by
  have hsub : ({ g with titulaires := g.titulaires.erase w } : Gateway).Souscriptions :=
    ⟨hg.souscriptions.inverse, hg.souscriptions.abonnements_noEmpty,
      hg.souscriptions.observateurs_noEmpty⟩
  have hr := reabonne_desabonner hsub w
  have hs := desabonner_restreint { g with titulaires := g.titulaires.erase w } w
  have hout : (({ g with titulaires := g.titulaires.erase w }).desabonner w).Suivi :=
    Suivi.restreint (g := { g with titulaires := g.titulaires.erase w })
      (h.keeps (fun _ _ hopen hw => ⟨hopen, hw⟩) (fun _ _ => rfl) fun _ _ e _ _ _ hd => by
        cases e with
        | online => exact hd
        | offline => exact hd) hs
  unfold Gateway.detach
  dsimp only
  generalize ({ g with titulaires := g.titulaires.erase w }).desabonner w = g0 at hr hout ⊢
  cases hget : g0.byDevice.get? d with
  | none => exact hout
  | some sockets =>
    dsimp only
    split
    · refine hout.keeps (fun _ _ hopen hw => ⟨hopen, hw⟩) (fun _ _ => rfl)
        fun v d' e _ _ _ hd => ?_
      cases e with
      | online =>
        refine ⟨hd.1, ?_⟩
        dsimp only
        rw [Index.get?_set]
        split
        · rfl
        · exact hd.2
      | offline =>
        refine estEnLigne_anti (g := g0) id (fun x hx hopen => ⟨?_, hopen⟩) hd
        dsimp only at hx
        rw [Index.holds_set] at hx
        by_cases hdd : d' = d
        · rw [if_pos hdd] at hx
          rw [hdd]
          exact (Index.holds_of_get? hget).mpr (List.mem_filter.mp hx).1
        · rw [if_neg hdd] at hx
          exact hx
    · refine suivi_masquer ⟨hr.souscriptions.inverse, hr.souscriptions.abonnements_noEmpty,
        hr.souscriptions.observateurs_noEmpty⟩ fun v d' hopen hv hlast => ?_
      obtain ⟨e, he, hd⟩ := hout v d' hopen hv
      refine ⟨e, he, ?_⟩
      cases e with
      | online =>
        have hdd : d' ≠ d := fun heq => hlast heq (heq ▸ hd.1)
        refine ⟨hd.1, ?_⟩
        dsimp only
        rw [Index.get?_delete, if_neg hdd]
        exact hd.2
      | offline =>
        exact estEnLigne_anti (g := g0) id
          (fun x hx hopen => ⟨(Index.holds_delete.mp hx).1, hopen⟩) hd

theorem Suivi.deconnecterAppareil (h : g.Suivi) (hg : g.Indexes) (d : Uuid) :
    (g.deconnecterAppareil d).Suivi := by
  unfold Gateway.deconnecterAppareil
  cases hget : g.byDevice.get? d with
  | none => exact h
  | some sockets =>
    dsimp only
    have hclosed := foldl_closeSocket_closedOnly sockets g
    have hout := h.closedOnly hclosed
    have hsub := (hg.closedOnly hclosed).souscriptions
    refine suivi_masquer ⟨hsub.inverse, hsub.abonnements_noEmpty, hsub.observateurs_noEmpty⟩
      fun v d' hopen hv hlast => ?_
    obtain ⟨e, he, hd⟩ := hout v d' hopen hv
    refine ⟨e, he, ?_⟩
    cases e with
    | online =>
      have hdd : d' ≠ d := fun heq => hlast heq (heq ▸ hd.1)
      refine ⟨hd.1, ?_⟩
      dsimp only
      rw [Index.get?_delete, if_neg hdd]
      exact hd.2
    | offline =>
      exact estEnLigne_anti (g := sockets.foldl closeSocket g) id
        (fun x hx hopen => ⟨(Index.holds_delete.mp hx).1, hopen⟩) hd

/-- A declaration reaches every open socket that watches the device. -/
theorem Suivi.declarerVisibilite (h : g.Suivi) (hg : g.Indexes) (d : Uuid) (visible : Bool)
    (hvisible : visible = true → (g.byDevice.get? d).isSome ∨
      ∀ w, g.isOpen w = true → ¬ g.abonnements.Holds w d) :
    (g.declarerVisibilite d visible).Suivi := by
  unfold Gateway.declarerVisibilite
  split
  · exact h
  · split
    · rename_i htrue
      refine suivi_annonce hg.souscriptions (fun d' hd => ?_) (fun w hopen hw => ?_)
        fun w d' _ hopen hw => h w d' hopen hw
      · simp [hd]
      · refine ⟨List.mem_append_right _ (List.mem_singleton.mpr rfl), ?_⟩
        rcases hvisible htrue with hsome | hnobody
        · exact hsome
        · exact absurd hw (hnobody w hopen)
    · refine suivi_annonce hg.souscriptions (fun d' hd => ?_) (fun w hopen hw => ?_)
        fun w d' _ hopen hw => h w d' hopen hw
      · rw [List.mem_filter]
        simp [hd]
      · rw [Annonce, ← Bool.not_eq_true, estEnLigne_iff, List.mem_filter]
        simp

/-! ## Closed sockets -/

theorem closeSocket_closed {c : Connexion} (hc : (g.closeSocket w).connexions w' = some c)
    (hclosed : c.readyState = .closed) : g.connexions w' = some c := by
  by_cases hw : w' = w
  · subst hw
    unfold closeSocket at hc
    split at hc
    · unfold setReadyState at hc
      rw [setConnexion_connexions, if_pos rfl, Option.map_eq_some_iff] at hc
      obtain ⟨c', -, rfl⟩ := hc
      cases hclosed
    · exact hc
  · rw [closeSocket_connexions_of_ne hw] at hc
    exact hc

theorem foldl_closeSocket_closed (sockets : List Socket) {c : Connexion}
    (hc : (sockets.foldl closeSocket g).connexions w = some c) (hclosed : c.readyState = .closed) :
    g.connexions w = some c := by
  induction sockets generalizing g with
  | nil => exact hc
  | cons v sockets ih => exact closeSocket_closed (ih hc) hclosed

theorem Vivants.sameMaps (h : g.Vivants) (hs : SameMaps g g') : g'.Vivants := by
  unfold Vivants
  rw [hs.connexions, hs.titulaires]
  exact h

theorem Vivants.move {i : Input} (h : g.Vivants) (hg : g.Indexes) (hm : Move g i g') :
    g'.Vivants := by
  cases hm with
  | relais hs => exact h.sameMaps hs.sameMaps
  | connexion w claims hfresh =>
    cases claims with
    | none => exact h
    | some t =>
      refine Vivants.sameMaps ?_ (connexion_some g w t).sameMaps
      intro v c hc hclosed
      dsimp only at hc ⊢
      rw [LinkedMap.get?_insert]
      by_cases hv : v = w
      · rw [hv, Function.update_self] at hc
        obtain rfl := Option.some.inj hc
        cases hclosed
      · rw [Function.update_of_ne hv] at hc
        rw [if_neg hv]
        exact h v c hc hclosed
  | closing w =>
    intro v c hc hclosed
    rw [(closeSocket_closedOnly g w).titulaires]
    exact h v c (closeSocket_closed hc hclosed) hclosed
  | detach w c hc mid hmid hw hothers =>
    refine Vivants.sameMaps ?_ (detach_sameMaps mid _ w)
    have hs := desabonner_restreint { mid with titulaires := mid.titulaires.erase w } w
    intro v c' hc' hclosed
    dsimp only at hc' ⊢
    rw [hs.connexions] at hc'
    rw [hs.titulaires, LinkedMap.get?_erase, hmid.titulaires]
    by_cases hv : v = w
    · rw [if_pos hv]
    · rw [if_neg hv]
      exact h v c' ((hothers v hv).symm.trans hc') hclosed
  | presenceMode w c hc hopen visible => exact h.sameMaps (declarerVisibilite_sameMaps g _ visible)
  | abonner n w autorises =>
    by_cases hcontains : g.titulaires.containsKey w = true
    · have hr := reabonne_abonnerPresence hg.souscriptions hcontains autorises
      unfold Vivants
      rw [hr.connexions, hr.titulaires]
      exact h
    · rw [abonnerPresence_of_not hcontains]
      exact h
  | revoquer userA userB a b =>
    have hs := revoquerPresence_restreint g userA userB a b
    unfold Vivants
    rw [hs.connexions, hs.titulaires]
    exact h
  | deconnecter d =>
    cases hget : g.byDevice.get? d with
    | none =>
      unfold deconnecterAppareil
      rw [hget]
      exact h
    | some sockets =>
      refine Vivants.sameMaps ?_ (deconnecterAppareil_sameMaps hget)
      intro v c hc hclosed
      dsimp only
      rw [(foldl_closeSocket_closedOnly sockets g).titulaires]
      exact h v c (foldl_closeSocket_closed sockets hc hclosed) hclosed

/-! ## Every run -/

/-- The open sockets that watch a device. -/
def temoins (g : Gateway) (d : Uuid) : List Socket :=
  ((g.observateurs.get? d).getD []).filter g.isOpen

theorem mem_temoins (h : g.Souscriptions) :
    w ∈ g.temoins d ↔ g.isOpen w = true ∧ g.abonnements.Holds w d := by
  unfold temoins
  rw [List.mem_filter, ← Index.holds_iff_getD, ← h.inverse w d]
  exact and_comm

/-- A device that declares itself visible has a connection, or no open socket watches it;
and no open socket was last told that a visible device is offline when a connection of
the device is accepted. -/
def Annoncable : Input → Gateway → Prop
  | .message w m, g => m = .presenceMode true → ∀ c ∈ g.connexions w, c.readyState ≠ .closed →
      (g.byDevice.get? c.titulaire.deviceId).isSome ∨ g.temoins c.titulaire.deviceId = []
  | .connexion _ claims, g => ∀ t ∈ claims, t.deviceId ∈ g.visibles →
      ∀ v ∈ g.temoins t.deviceId, g.derniereInfo v t.deviceId ≠ some .offline
  | _, _ => True

instance decidableAnnoncable (i : Input) (g : Gateway) : Decidable (Annoncable i g) :=
  match i with
  | .message w m => inferInstanceAs (Decidable (m = .presenceMode true →
      ∀ c ∈ g.connexions w, c.readyState ≠ .closed →
        (g.byDevice.get? c.titulaire.deviceId).isSome ∨ g.temoins c.titulaire.deviceId = []))
  | .connexion _ claims => inferInstanceAs (Decidable (∀ t ∈ claims, t.deviceId ∈ g.visibles →
      ∀ v ∈ g.temoins t.deviceId, g.derniereInfo v t.deviceId ≠ some .offline))
  | .closing _ | .close _ | .error _ | .autorise _ _ | .verifie _ _ | .revoquerPresence _ _ _ _
  | .deconnecterAppareil _ | .notifyPending _ => isTrue trivial

theorem Suivi.move {i : Input} (h : g.Suivi) (hg : g.Indexes) (hC : Annoncable i g)
    (hm : Move g i g') : g'.Suivi := by
  cases hm with
  | relais hs => exact h.relais hs
  | connexion w claims hfresh =>
    refine h.connexion hg hfresh claims fun t ht hvisible v hopen hv => ?_
    exact hC t ht hvisible v ((mem_temoins hg.souscriptions).mpr ⟨hopen, hv⟩)
  | closing w => exact h.closedOnly (closeSocket_closedOnly g w)
  | detach w c hc mid hmid hw hothers => exact (h.closedOnly hmid).detach (hg.closedOnly hmid) _ w
  | presenceMode w c hc hopen visible =>
    refine h.declarerVisibilite hg _ visible fun hvisible => ?_
    rcases hC (by rw [hvisible]) c hc hopen with hsome | hnobody
    · exact Or.inl hsome
    · refine Or.inr fun v hopen hv => ?_
      have hmem := (mem_temoins hg.souscriptions).mpr ⟨hopen, hv⟩
      rw [hnobody] at hmem
      cases hmem
  | abonner n w autorises => exact h.abonnerPresence hg w autorises
  | revoquer userA userB a b => exact h.restreint (revoquerPresence_restreint g userA userB a b)
  | deconnecter d => exact h.deconnecterAppareil hg d

end Gateway

open Gateway

/-- In every run that keeps the condition the observers are shown how a device is, at
every moment when none of its sockets is closing. -/
theorem presence_fidele (inputs : List Input)
    (hC : Always Runtime.step (fun i s => Annoncable i s.gateway) inputs .start) :
    Always Runtime.step (Reaches Runtime.step fun s => s.gateway.Fidele) inputs .start := by
  refine always_of_invariant
    (fun s => s.gateway.Indexes ∧ s.gateway.Vivants ∧ s.gateway.Suivi) ?_ ?_ ?_ hC
  · intro i s t ⟨hg, hv, hs⟩ hi ht
    have hm := Runtime.step_move ht
    exact ⟨hg.move hm, hv.move hg hm, hs.move hg hi hm⟩
  · intro i s ⟨hg, hv, hs⟩ hi t ht
    have hm := Runtime.step_move ht
    exact (hs.move hg hi hm).fidele (hg.move hm) (hv.move hg hm)
  · exact ⟨indexes_empty, vivants_empty, suivi_empty⟩

/-- A device is seen to come and go. -/
def allerRetour : List Input :=
  [.connexion 1 (some ⟨10, 100⟩), .connexion 2 (some ⟨20, 200⟩),
    .message 1 (.presenceSubscribe (some [some 20])), .autorise 0 [20],
    .message 2 (.presenceMode true), .closing 2, .close 2]

theorem allerRetour_fidele :
    Always Runtime.step (Reaches Runtime.step fun s => s.gateway.Fidele) allerRetour .start ∧
      (run Runtime.step allerRetour .start).map (fun s => s.gateway.derniereInfo 1 20) =
        some (some .offline) :=
  ⟨presence_fidele allerRetour (by decide), by decide⟩

/-! ## A device that connects again while its last socket is closing -/

/-- The subscription falls between the beginning and the end of the close, the new
connection before that end. -/
def reconnexion : List Input :=
  [.connexion 1 (some ⟨10, 100⟩), .connexion 2 (some ⟨20, 200⟩),
    .message 2 (.presenceMode true), .closing 2,
    .message 1 (.presenceSubscribe (some [some 20])), .autorise 0 [20],
    .connexion 3 (some ⟨20, 200⟩), .close 2]

/-- From then on the device is online, and shown offline. -/
theorem reconnexion_infidele :
    ∃ s, run Runtime.step reconnexion .start = some s ∧ s.gateway.estEnLigne 20 = true ∧
      s.gateway.derniereInfo 1 20 = some .offline ∧ ¬ s.gateway.EnFermeture 20 ∧
      ¬ s.gateway.Fidele := by
  have hclosing : ∀ s, run Runtime.step reconnexion .start = some s → ¬ s.gateway.EnFermeture 20 := by
    rintro s hs ⟨w, c, hc, hd, hclosing⟩
    obtain rfl := Option.some.inj hs
    rcases w with _ | _ | _ | _ | w
    · cases hc
    · obtain rfl := Option.some.inj hc
      cases hd
    · obtain rfl := Option.some.inj hc
      cases hclosing
    · obtain rfl := Option.some.inj hc
      cases hclosing
    · cases hc
  refine ⟨_, rfl, by decide, by decide, hclosing _ rfl, fun hfidele => ?_⟩
  have hseen := hfidele 1 20 (by decide) (by decide) (hclosing _ rfl)
  exact absurd hseen (by decide)

end ZiaCrypte.Realtime

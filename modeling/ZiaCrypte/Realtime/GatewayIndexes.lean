import ZiaCrypte.Realtime.GatewaySpec
import ZiaCrypte.Lib.Run

/-!
# The indexes of the gateway agree with each other

Whatever the order of the handlers, the subscriptions and their inverse, the sockets
and their holders stay in step. The devices that are visible do not: a socket that was
taken out of `byDevice` still delivers messages until it is closed.
-/
namespace ZiaCrypte.Realtime

open ZiaCrypte.Lib ZiaCrypte.Server

namespace Gateway

/-- The five indexes fit together. -/
structure Coherent (g : Gateway) : Prop where
  inverse : g.abonnements.Inverse g.observateurs
  abonnements_noEmpty : g.abonnements.NoEmpty
  observateurs_noEmpty : g.observateurs.NoEmpty
  abonnes : ∀ w, (g.abonnements.get? w).isSome → (g.titulaires.get? w).isSome
  titulaire : ∀ d w, g.byDevice.Holds d w → ∃ t ∈ g.titulaires.get? w, t.deviceId = d
  connecte : ∀ w t, g.titulaires.get? w = some t → g.isOpen w = true →
    g.byDevice.Holds t.deviceId w
  visibles : ∀ d ∈ g.visibles, (g.byDevice.get? d).isSome

/-- What the handlers keep without exception. -/
structure Indexes (g : Gateway) : Prop where
  souscriptions : g.Souscriptions
  byDevice_noEmpty : g.byDevice.NoEmpty
  abonnes : ∀ w d, g.abonnements.Holds w d → (g.titulaires.get? w).isSome
  titulaire : ∀ d w, g.byDevice.Holds d w → ∃ t ∈ g.titulaires.get? w, t.deviceId = d
  connecte : ∀ w t, g.titulaires.get? w = some t → g.isOpen w = true →
    g.byDevice.Holds t.deviceId w
  poignee : ∀ w t, g.titulaires.get? w = some t → (g.connexions w).map (·.titulaire) = some t

/-- A device that is visible has a connection. -/
def VisiblesConnectes (g : Gateway) : Prop := ∀ d ∈ g.visibles, (g.byDevice.get? d).isSome

theorem Indexes.coherent_iff {g : Gateway} (h : g.Indexes) :
    g.Coherent ↔ g.VisiblesConnectes := by
  constructor
  · exact fun hc => hc.visibles
  · intro hv
    refine ⟨h.souscriptions.inverse, h.souscriptions.abonnements_noEmpty,
      h.souscriptions.observateurs_noEmpty, ?_, h.titulaire, h.connecte, hv⟩
    intro w hw
    obtain ⟨d, hd⟩ := h.souscriptions.abonnements_noEmpty.isSome_iff.mp hw
    exact h.abonnes w d hd

variable {g g' : Gateway} {w : Socket} {d : Uuid} {P : Envoi → Prop}

theorem indexes_empty : Gateway.empty.Indexes where
  souscriptions := ⟨fun k v => by simp [Gateway.empty], Index.noEmpty_empty, Index.noEmpty_empty⟩
  byDevice_noEmpty := Index.noEmpty_empty
  abonnes _ _ h := absurd h Index.not_holds_empty
  titulaire _ _ h := absurd h Index.not_holds_empty
  connecte _ _ h := by cases h
  poignee _ _ h := by cases h

theorem Indexes.sameMaps (h : g.Indexes) (hs : SameMaps g g') : g'.Indexes where
  souscriptions := by
    obtain ⟨hinv, habo, hobs⟩ := h.souscriptions
    exact ⟨by rw [hs.abonnements, hs.observateurs]; exact hinv, by rw [hs.abonnements]; exact habo,
      by rw [hs.observateurs]; exact hobs⟩
  byDevice_noEmpty := by
    rw [hs.byDevice]
    exact h.byDevice_noEmpty
  abonnes := by
    rw [hs.abonnements, hs.titulaires]
    exact h.abonnes
  titulaire := by
    rw [hs.byDevice, hs.titulaires]
    exact h.titulaire
  connecte := by
    unfold isOpen
    rw [hs.byDevice, hs.titulaires, hs.connexions]
    exact h.connecte
  poignee := by
    rw [hs.titulaires, hs.connexions]
    exact h.poignee

theorem Indexes.sentOnly (h : g.Indexes) (hs : SentOnly P g g') : g'.Indexes :=
  h.sameMaps hs.sameMaps

theorem Indexes.closedOnly (h : g.Indexes) (hs : ClosedOnly g g') : g'.Indexes where
  souscriptions := by
    obtain ⟨hinv, habo, hobs⟩ := h.souscriptions
    exact ⟨by rw [hs.abonnements, hs.observateurs]; exact hinv, by rw [hs.abonnements]; exact habo,
      by rw [hs.observateurs]; exact hobs⟩
  byDevice_noEmpty := by
    rw [hs.byDevice]
    exact h.byDevice_noEmpty
  abonnes := by
    rw [hs.abonnements, hs.titulaires]
    exact h.abonnes
  titulaire := by
    rw [hs.byDevice, hs.titulaires]
    exact h.titulaire
  connecte := by
    intro w t ht hopen
    rw [hs.byDevice]
    rw [hs.titulaires] at ht
    exact h.connecte w t ht (hs.isOpen w hopen)
  poignee := by
    intro w t ht
    rw [hs.titulaires] at ht
    rw [hs.titulaire]
    exact h.poignee w t ht

/-- A subscription of a socket that has a holder. -/
theorem Indexes.reabonne (h : g.Indexes) {cibles : List Uuid} (hr : Reabonne g g' w cibles)
    (hw : ∀ d ∈ cibles, (g.titulaires.get? w).isSome) : g'.Indexes where
  souscriptions := hr.souscriptions
  byDevice_noEmpty := by
    rw [hr.byDevice]
    exact h.byDevice_noEmpty
  abonnes := by
    intro w' d hd
    rw [hr.titulaires]
    rw [hr.abonnements] at hd
    by_cases hww : w' = w
    · rw [if_pos hww] at hd
      rw [hww]
      exact hw d hd
    · rw [if_neg hww] at hd
      exact h.abonnes w' d hd
  titulaire := by
    rw [hr.byDevice, hr.titulaires]
    exact h.titulaire
  connecte := by
    unfold isOpen
    rw [hr.byDevice, hr.titulaires, hr.connexions]
    exact h.connecte
  poignee := by
    rw [hr.titulaires, hr.connexions]
    exact h.poignee

theorem Indexes.abonnerPresence (h : g.Indexes) (w : Socket) (autorises : List Uuid) :
    (g.abonnerPresence w autorises).Indexes := by
  by_cases hw : g.titulaires.containsKey w = true
  · exact h.reabonne (reabonne_abonnerPresence h.souscriptions hw autorises) fun _ _ => hw
  · rw [abonnerPresence_of_not hw]
    exact h

theorem Indexes.revoquerSocket (h : g.Indexes) (userA userB : Uuid) (a b : List Uuid)
    (entree : Socket × Titulaire) : (g.revoquerSocket userA userB a b entree).Indexes := by
  obtain ⟨w, titulaire⟩ := entree
  cases hinterdits : (if titulaire.userId = userA then some b
      else if titulaire.userId = userB then some a else none) with
  | none =>
    rw [revoquerSocket_eq_self (.inl hinterdits)]
    exact h
  | some interdits =>
    cases hget : g.abonnements.get? w with
    | none =>
      rw [revoquerSocket_eq_self (.inr hget)]
      exact h
    | some cibles =>
      refine h.reabonne (reabonne_revoquerSocket h.souscriptions hinterdits hget) fun d hd => ?_
      exact h.abonnes w d ((Index.holds_of_get? hget).mpr (List.mem_filter.mp hd).1)

theorem Indexes.foldl_revoquerSocket (h : g.Indexes) (userA userB : Uuid) (a b : List Uuid)
    (entrees : List (Socket × Titulaire)) :
    (entrees.foldl (Gateway.revoquerSocket userA userB a b) g).Indexes := by
  induction entrees generalizing g with
  | nil => exact h
  | cons entree entrees ih => exact ih (h.revoquerSocket userA userB a b entree)

theorem Indexes.revoquerPresence (h : g.Indexes) (userA userB : Uuid) (a b : List Uuid) :
    (g.revoquerPresence userA userB a b).Indexes :=
  h.foldl_revoquerSocket userA userB a b g.titulaires.entries

/-- A turn of the loop takes from the socket it is about what it must not watch. -/
theorem revoquerSocket_coupe (h : g.Indexes) {userA userB : Uuid} {a b : List Uuid}
    {titulaire : Titulaire}
    (hd : (g.revoquerSocket userA userB a b (w, titulaire)).abonnements.Holds w d) :
    (titulaire.userId = userA → d ∉ b) ∧ (titulaire.userId ≠ userA → titulaire.userId = userB → d ∉ a) := by
  cases hinterdits : (if titulaire.userId = userA then some b
      else if titulaire.userId = userB then some a else none) with
  | none =>
    split at hinterdits
    · cases hinterdits
    · split at hinterdits
      · cases hinterdits
      · rename_i hA hB
        exact ⟨fun hA' => absurd hA' hA, fun _ hB' => absurd hB' hB⟩
  | some interdits =>
    have hout : d ∉ interdits := by
      cases hget : g.abonnements.get? w with
      | none =>
        rw [revoquerSocket_eq_self (.inr hget)] at hd
        exact absurd hd (Index.not_holds_of_get?_none hget)
      | some cibles =>
        have hr := reabonne_revoquerSocket h.souscriptions hinterdits hget
        rw [hr.abonnements, if_pos rfl] at hd
        simpa using (List.mem_filter.mp hd).2
    constructor
    · intro hA
      rw [if_pos hA] at hinterdits
      rw [Option.some.inj hinterdits]
      exact hout
    · intro hA hB
      rw [if_neg hA, if_pos hB] at hinterdits
      rw [Option.some.inj hinterdits]
      exact hout

/-- No subscription is left between two accounts that are cut. -/
theorem revoquerPresence_coupe (h : g.Indexes) {userA userB : Uuid} {a b : List Uuid}
    {titulaire : Titulaire} (ht : g.titulaires.get? w = some titulaire)
    (hd : (g.revoquerPresence userA userB a b).abonnements.Holds w d) :
    (titulaire.userId = userA → d ∉ b) ∧ (titulaire.userId ≠ userA → titulaire.userId = userB → d ∉ a) := by
  obtain ⟨avant, apres, hentrees⟩ := List.append_of_mem (LinkedMap.mem_entries_of_get? ht)
  unfold Gateway.revoquerPresence at hd
  rw [hentrees, List.foldl_append, List.foldl_cons] at hd
  have havant := h.foldl_revoquerSocket userA userB a b avant
  exact revoquerSocket_coupe havant
    ((foldl_revoquerSocket_restreint _ userA userB a b apres).abonnements w d hd)

/-- The socket goes out of the index of the device it was accepted for. -/
theorem Indexes.detach (h : g.Indexes) (hw : (g.connexions w).map (·.titulaire.deviceId) = some d) :
    (g.detach d w).Indexes := by
  have hsub : ({ g with titulaires := g.titulaires.erase w } : Gateway).Souscriptions :=
    ⟨h.souscriptions.inverse, h.souscriptions.abonnements_noEmpty,
      h.souscriptions.observateurs_noEmpty⟩
  have hr := reabonne_desabonner hsub w
  have hdevice : ∀ t, g.titulaires.get? w = some t → t.deviceId = d := by
    intro t ht
    have hc := h.poignee w t ht
    cases hcon : g.connexions w with
    | none =>
      rw [hcon] at hw
      cases hw
    | some c =>
      rw [hcon] at hc hw
      rw [← Option.some.inj hc]
      exact Option.some.inj hw
  refine Indexes.sameMaps ?_ (detach_sameMaps g d w)
  refine ⟨⟨hr.souscriptions.inverse, hr.souscriptions.abonnements_noEmpty,
    hr.souscriptions.observateurs_noEmpty⟩, Index.noEmpty_remove h.byDevice_noEmpty,
    fun w' d' hd => ?_, fun d' w' hd => ?_, fun w' t ht hopen => ?_, fun w' t ht => ?_⟩
  · rw [hr.titulaires, LinkedMap.get?_erase]
    rw [hr.abonnements] at hd
    by_cases hww : w' = w
    · simp [hww] at hd
    · rw [if_neg hww] at hd ⊢
      exact h.abonnes w' d' hd
  · rw [Index.holds_remove] at hd
    obtain ⟨t, ht, htd⟩ := h.titulaire d' w' hd.1
    refine ⟨t, ?_, htd⟩
    rw [hr.titulaires, LinkedMap.get?_erase]
    by_cases hww : w' = w
    · subst hww
      exact absurd ⟨htd.symm.trans (hdevice t ht), rfl⟩ hd.2
    · rw [if_neg hww]
      exact ht
  · rw [hr.titulaires, LinkedMap.get?_erase] at ht
    by_cases hww : w' = w
    · simp [hww] at ht
    · rw [if_neg hww] at ht
      unfold isOpen at hopen
      rw [hr.connexions] at hopen
      rw [Index.holds_remove]
      exact ⟨h.connecte w' t ht hopen, fun hand => hww hand.2⟩
  · rw [hr.titulaires, LinkedMap.get?_erase] at ht
    by_cases hww : w' = w
    · simp [hww] at ht
    · rw [if_neg hww] at ht
      rw [hr.connexions]
      exact h.poignee w' t ht

theorem Indexes.deconnecterAppareil (h : g.Indexes) (d : Uuid) :
    (g.deconnecterAppareil d).Indexes := by
  cases hget : g.byDevice.get? d with
  | none =>
    have hself : g.deconnecterAppareil d = g := by
      unfold Gateway.deconnecterAppareil
      rw [hget]
    rw [hself]
    exact h
  | some sockets =>
    have hclosed := foldl_closeSocket_closedOnly sockets g
    have hc := h.closedOnly hclosed
    refine Indexes.sameMaps ?_ (deconnecterAppareil_sameMaps hget)
    refine ⟨⟨hc.souscriptions.inverse, hc.souscriptions.abonnements_noEmpty,
      hc.souscriptions.observateurs_noEmpty⟩, Index.noEmpty_delete h.byDevice_noEmpty, hc.abonnes,
      fun d' w hd => ?_, fun w t ht hopen => ?_, hc.poignee⟩
    · rw [Index.holds_delete, ← hclosed.byDevice] at hd
      exact hc.titulaire d' w hd.1
    · have hopen' := isOpen_foldl_closeSocket sockets |>.mp hopen
      have hheld := hc.connecte w t ht hopen
      rw [hclosed.byDevice] at hheld
      rw [Index.holds_delete]
      refine ⟨hheld, ?_⟩
      rintro rfl
      exact hopen'.2 ((Index.holds_of_get? hget).mp hheld)

/-- A socket without a handshake is in no index. -/
theorem Indexes.fresh (h : g.Indexes) (hfresh : g.connexions w = none) :
    g.titulaires.get? w = none := by
  cases ht : g.titulaires.get? w with
  | none => rfl
  | some t =>
    have hc := h.poignee w t ht
    rw [hfresh] at hc
    cases hc

theorem Indexes.fresh_abonnements (h : g.Indexes) (hfresh : g.connexions w = none) :
    ¬ g.abonnements.Holds w d := by
  intro hd
  have hsome := h.abonnes w d hd
  rw [h.fresh hfresh] at hsome
  cases hsome

theorem Indexes.fresh_byDevice (h : g.Indexes) (hfresh : g.connexions w = none) :
    ¬ g.byDevice.Holds d w := by
  intro hd
  obtain ⟨t, ht, -⟩ := h.titulaire d w hd
  rw [h.fresh hfresh] at ht
  cases ht

theorem Indexes.connexion (h : g.Indexes) (hfresh : g.connexions w = none)
    (claims : Option Titulaire) : (g.connexion w claims).Indexes := by
  cases claims with
  | none => exact h
  | some titulaire =>
    have hnone := h.fresh hfresh
    refine Indexes.sentOnly ?_ (connexion_some g w titulaire)
    refine ⟨⟨h.souscriptions.inverse, h.souscriptions.abonnements_noEmpty,
      h.souscriptions.observateurs_noEmpty⟩, Index.noEmpty_add h.byDevice_noEmpty,
      fun w' d hd => ?_, fun d w' hd => ?_, fun w' t ht hopen => ?_, fun w' t ht => ?_⟩
    · rw [LinkedMap.get?_insert]
      split
      · rfl
      · exact h.abonnes w' d hd
    · rw [LinkedMap.get?_insert]
      rcases Index.holds_add.mp hd with hold | ⟨rfl, rfl⟩
      · obtain ⟨t, ht, htd⟩ := h.titulaire d w' hold
        refine ⟨t, ?_, htd⟩
        rw [if_neg]
        · exact ht
        · rintro rfl
          rw [hnone] at ht
          cases ht
      · exact ⟨titulaire, by rw [if_pos rfl]; rfl, rfl⟩
    · rw [LinkedMap.get?_insert] at ht
      rw [Index.holds_add]
      by_cases hww : w' = w
      · rw [if_pos hww] at ht
        exact Or.inr ⟨by rw [Option.some.inj ht], hww⟩
      · rw [if_neg hww] at ht
        unfold isOpen at hopen
        dsimp only at hopen
        rw [Function.update_of_ne hww] at hopen
        exact Or.inl (h.connecte w' t ht hopen)
    · rw [LinkedMap.get?_insert] at ht
      by_cases hww : w' = w
      · rw [if_pos hww] at ht
        dsimp only
        rw [hww, Function.update_self, ← ht]
        rfl
      · rw [if_neg hww] at ht
        dsimp only
        rw [Function.update_of_ne hww]
        exact h.poignee w' t ht

/-! ## What is visible -/

theorem VisiblesConnectes.sentOnly (h : g.VisiblesConnectes) (hs : SentOnly P g g') :
    g'.VisiblesConnectes := by
  obtain ⟨es, -, rfl⟩ := hs
  exact h

theorem VisiblesConnectes.closedOnly (h : g.VisiblesConnectes) (hs : ClosedOnly g g') :
    g'.VisiblesConnectes := by
  intro d hd
  rw [hs.visibles] at hd
  rw [hs.byDevice]
  exact h d hd

theorem VisiblesConnectes.reabonne (h : g.VisiblesConnectes) {cibles : List Uuid}
    (hr : Reabonne g g' w cibles) : g'.VisiblesConnectes := by
  intro d hd
  rw [hr.visibles] at hd
  rw [hr.byDevice]
  exact h d hd

theorem VisiblesConnectes.abonnerPresence (h : g.VisiblesConnectes) (hg : g.Indexes)
    (w : Socket) (autorises : List Uuid) : (g.abonnerPresence w autorises).VisiblesConnectes := by
  by_cases hw : g.titulaires.containsKey w = true
  · exact h.reabonne (reabonne_abonnerPresence hg.souscriptions hw autorises)
  · rw [abonnerPresence_of_not hw]
    exact h

theorem VisiblesConnectes.revoquerPresence (h : g.VisiblesConnectes) (userA userB : Uuid)
    (a b : List Uuid) : (g.revoquerPresence userA userB a b).VisiblesConnectes := by
  have hrestreint := revoquerPresence_restreint g userA userB a b
  intro d hd
  rw [hrestreint.visibles] at hd
  rw [hrestreint.byDevice]
  exact h d hd

theorem VisiblesConnectes.detach (h : g.VisiblesConnectes) (d : Uuid) (w : Socket) :
    (g.detach d w).VisiblesConnectes := by
  intro d' hd
  obtain ⟨hvisible, hlast⟩ := (mem_detach g d w).mp hd
  have hsome := h d' hvisible
  rw [(detach_sameMaps g d w).byDevice]
  dsimp only
  by_cases hdd : d' = d
  · subst hdd
    rw [Option.isSome_iff_ne_none]
    exact fun hnone => hlast ⟨rfl, hsome, hnone⟩
  · rw [Index.get?_remove_of_ne hdd]
    exact hsome

theorem VisiblesConnectes.deconnecterAppareil (h : g.VisiblesConnectes) (d : Uuid) :
    (g.deconnecterAppareil d).VisiblesConnectes := by
  intro d' hd
  obtain ⟨hvisible, hother⟩ := (mem_deconnecterAppareil g d).mp hd
  have hsome := h d' hvisible
  cases hget : g.byDevice.get? d with
  | none =>
    unfold Gateway.deconnecterAppareil
    rw [hget]
    exact hsome
  | some sockets =>
    rw [hget] at hother
    rw [(deconnecterAppareil_sameMaps hget).byDevice]
    dsimp only
    rw [Index.get?_delete, if_neg fun hdd => hother ⟨hdd, rfl⟩]
    exact hsome

theorem VisiblesConnectes.connexion (h : g.VisiblesConnectes) (w : Socket)
    (claims : Option Titulaire) : (g.connexion w claims).VisiblesConnectes := by
  cases claims with
  | none => exact h
  | some titulaire =>
    refine VisiblesConnectes.sentOnly ?_ (connexion_some g w titulaire)
    intro d hd
    exact Index.isSome_get?_add.mpr (Or.inr (h d hd))

/-- A device has to be connected when it declares itself visible. -/
theorem VisiblesConnectes.declarerVisibilite_iff (h : g.VisiblesConnectes) (d : Uuid)
    (visible : Bool) : (g.declarerVisibilite d visible).VisiblesConnectes ↔
      (visible = true → (g.byDevice.get? d).isSome) := by
  have hbyDevice := (declarerVisibilite_sameMaps g d visible).byDevice
  constructor
  · intro hafter hvisible
    rw [← hbyDevice]
    exact hafter d ((mem_declarerVisibilite g d visible).mpr (by rw [if_pos rfl]; exact hvisible))
  · intro hd d' hd'
    rw [hbyDevice]
    rw [mem_declarerVisibilite] at hd'
    by_cases hdd : d' = d
    · rw [if_pos hdd] at hd'
      rw [hdd]
      exact hd hd'
    · rw [if_neg hdd] at hd'
      exact h d' hd'

variable {i : Input}

theorem Indexes.move (h : g.Indexes) (hm : Move g i g') : g'.Indexes := by
  cases hm with
  | relais hs => exact h.sentOnly hs
  | connexion w claims hfresh => exact h.connexion hfresh claims
  | closing w => exact h.closedOnly (closeSocket_closedOnly g w)
  | detach w c hc mid hmid hw hothers =>
    refine (h.closedOnly hmid).detach ?_
    have htitulaire := congrArg (Option.map (·.deviceId)) (hmid.titulaire w)
    rw [hc, Option.map_map] at htitulaire
    exact htitulaire
  | presenceMode w c hc hopen visible => exact h.sameMaps (declarerVisibilite_sameMaps g _ visible)
  | abonner n w autorises => exact h.abonnerPresence w autorises
  | revoquer userA userB a b => exact h.revoquerPresence userA userB a b
  | deconnecter d => exact h.deconnecterAppareil d

/-- A device that declares itself visible has a connection in the index. -/
def DeclareConnecte : Input → Gateway → Prop
  | .message w m, g => m = .presenceMode true → ∀ c ∈ g.connexions w,
      c.readyState ≠ .closed → (g.byDevice.get? c.titulaire.deviceId).isSome
  | _, _ => True

/-- Only a declaration makes a device visible that has no connection. -/
theorem VisiblesConnectes.move (h : g.VisiblesConnectes) (hg : g.Indexes)
    (hC : DeclareConnecte i g) (hm : Move g i g') : g'.VisiblesConnectes := by
  cases hm with
  | relais hs => exact h.sentOnly hs
  | connexion w claims hfresh => exact h.connexion w claims
  | closing w => exact h.closedOnly (closeSocket_closedOnly g w)
  | detach w c hc mid hmid hw hothers => exact (h.closedOnly hmid).detach _ w
  | presenceMode w c hc hopen visible =>
    exact (h.declarerVisibilite_iff _ visible).mpr fun hvisible => hC (by rw [hvisible]) c hc hopen
  | abonner n w autorises => exact h.abonnerPresence hg w autorises
  | revoquer userA userB a b => exact h.revoquerPresence userA userB a b
  | deconnecter d => exact h.deconnecterAppareil d

end Gateway

/-! ## Every order of the handlers -/

open Gateway

namespace Runtime

variable {s t : Runtime} {i : Input}

theorem indexes_step (h : s.gateway.Indexes) (ht : step i s = some t) : t.gateway.Indexes :=
  h.move (step_move ht)

/-- A step that leaves the visible devices connected keeps the condition. -/
theorem declareConnecte_of_reaches (hv : s.gateway.VisiblesConnectes)
    (hreach : Reaches step (fun t => t.gateway.VisiblesConnectes) i s) :
    DeclareConnecte i s.gateway := by
  cases i with
  | message w m =>
    rintro rfl c hc hopen
    have hstep : step (.message w (.presenceMode true)) s =
        some (s.traiterMessage w c.titulaire.deviceId (.presenceMode true)) := by
      rw [step, hc]
      exact if_neg hopen
    exact (hv.declarerVisibilite_iff _ true).mp (hreach _ hstep) rfl
  | _ => trivial

end Runtime

/-- The five indexes fit together in every state of a run exactly when no device
declares itself visible after its last connection was taken out. -/
theorem indexes_coherent_iff (inputs : List Input) :
    Always Runtime.step (fun i s => DeclareConnecte i s.gateway) inputs .start ↔
      Always Runtime.step (Reaches Runtime.step fun s => s.gateway.Coherent) inputs .start := by
  refine always_iff_of_invariant (fun s => s.gateway.Indexes ∧ s.gateway.VisiblesConnectes) ?_ ?_
    ⟨indexes_empty, fun d hd => nomatch hd⟩
  · intro i s t hs hC ht
    exact ⟨Runtime.indexes_step hs.1 ht, hs.2.move hs.1 hC (Runtime.step_move ht)⟩
  · intro i s hs
    constructor
    · intro hC t ht
      exact (Runtime.indexes_step hs.1 ht).coherent_iff.mpr
        (hs.2.move hs.1 hC (Runtime.step_move ht))
    · intro hreach
      exact Runtime.declareConnecte_of_reaches hs.2 fun t ht => (hreach t ht).visibles

/-! ## A device that was cut off -/

/-- A device is disconnected, and its socket delivers one more message before it is
closed. -/
def declarationTardive : List Input :=
  [.connexion 1 (some ⟨10, 100⟩), .deconnecterAppareil 10, .message 1 (.presenceMode true)]

/-- Afterwards the device is visible without any connection. -/
theorem declarationTardive_incoherent :
    ∃ s, run Runtime.step declarationTardive .start = some s ∧ 10 ∈ s.gateway.visibles ∧
      s.gateway.byDevice.get? 10 = none ∧ ¬ s.gateway.Coherent := by
  refine ⟨_, rfl, by decide, by decide, ?_⟩
  intro hcoherent
  exact absurd (hcoherent.visibles 10 (by decide)) (by decide)

end ZiaCrypte.Realtime

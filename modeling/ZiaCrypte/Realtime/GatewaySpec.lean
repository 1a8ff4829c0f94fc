import ZiaCrypte.Realtime.Gateway
import Mathlib.Tactic.Tauto

/-!
# What each handler of the gateway does to its indexes
-/
namespace ZiaCrypte.Realtime

open ZiaCrypte.Lib ZiaCrypte.Server

namespace Gateway

variable {g g' g'' : Gateway} {w w' : Socket} {d d' : Uuid}

/-! ## Handlers that only send -/

/-- Nothing is different but what was sent, which is of the kind `P` and went to open
sockets. -/
def SentOnly (P : Envoi → Prop) (g g' : Gateway) : Prop :=
  ∃ es, (∀ x ∈ es, g.isOpen x.1 = true ∧ P x.2) ∧ g' = { g with envois := es ++ g.envois }

variable {P Q : Envoi → Prop}

theorem SentOnly.refl (g : Gateway) : SentOnly P g g := ⟨[], by simp, rfl⟩

theorem SentOnly.mono (h : SentOnly P g g') (hPQ : ∀ e, P e → Q e) : SentOnly Q g g' := by
  obtain ⟨es, hes, rfl⟩ := h
  exact ⟨es, fun x hx => ⟨(hes x hx).1, hPQ x.2 (hes x hx).2⟩, rfl⟩

theorem SentOnly.trans (h : SentOnly P g g') (h' : SentOnly P g' g'') : SentOnly P g g'' := by
  obtain ⟨es, hes, rfl⟩ := h
  obtain ⟨es', hes', rfl⟩ := h'
  refine ⟨es' ++ es, fun x hx => ?_, ?_⟩
  · rcases List.mem_append.mp hx with hx | hx
    · exact hes' x hx
    · exact hes x hx
  · rw [List.append_assoc]

theorem sentOnly_foldl {α : Type} {f : Gateway → α → Gateway} (hf : ∀ g a, SentOnly P g (f g a))
    (l : List α) (g : Gateway) : SentOnly P g (l.foldl f g) := by
  induction l generalizing g with
  | nil => exact SentOnly.refl g
  | cons a l ih => exact (hf g a).trans (ih (f g a))

theorem sentOnly_send (g : Gateway) (sockets : List Socket) {e : Envoi} (he : P e) :
    SentOnly P g (g.send sockets e) := by
  refine ⟨_, fun x hx => ?_, rfl⟩
  rw [List.mem_reverse, List.mem_map] at hx
  obtain ⟨w, hw, rfl⟩ := hx
  exact ⟨(List.mem_filter.mp hw).2, he⟩

theorem envoyerA_eq_send (g : Gateway) (d : Uuid) (e : Envoi) :
    (g.envoyerA d e).2 = g.send ((g.byDevice.get? d).getD []) e := by
  unfold envoyerA
  cases g.byDevice.get? d <;> rfl

theorem diffuserPresence_eq_send (g : Gateway) (d : Uuid) (etat : Etat) :
    g.diffuserPresence d etat = g.send ((g.observateurs.get? d).getD []) (.presence d etat) := by
  unfold diffuserPresence
  cases g.observateurs.get? d <;> rfl

theorem sentOnly_envoyerA (g : Gateway) (d : Uuid) {e : Envoi} (he : P e) :
    SentOnly P g (g.envoyerA d e).2 := by
  rw [envoyerA_eq_send]
  exact sentOnly_send g _ he

theorem sentOnly_diffuserPresence (g : Gateway) (d : Uuid) {etat : Etat} (he : P (.presence d etat)) :
    SentOnly P g (g.diffuserPresence d etat) := by
  rw [diffuserPresence_eq_send]
  exact sentOnly_send g _ he

theorem sentOnly_relayerEphemere (g : Gateway) (expediteur : Uuid) (stop : Bool)
    (cibles : Devices) (conversationId : Option String)
    (he : ∀ id, P (.typing stop id expediteur)) :
    SentOnly P g (g.relayerEphemere expediteur stop cibles conversationId) := by
  unfold relayerEphemere
  split
  · exact sentOnly_foldl (fun g cible => sentOnly_envoyerA g cible (he _)) _ g
  · exact SentOnly.refl g

/-! ## Handlers that leave the four maps as they are -/

/-- What is visible and what was sent may be different. -/
structure SameMaps (g g' : Gateway) : Prop where
  byDevice : g'.byDevice = g.byDevice
  titulaires : g'.titulaires = g.titulaires
  abonnements : g'.abonnements = g.abonnements
  observateurs : g'.observateurs = g.observateurs
  connexions : g'.connexions = g.connexions

theorem SameMaps.refl (g : Gateway) : SameMaps g g := ⟨rfl, rfl, rfl, rfl, rfl⟩

theorem SameMaps.trans (h : SameMaps g g') (h' : SameMaps g' g'') : SameMaps g g'' where
  byDevice := h'.byDevice.trans h.byDevice
  titulaires := h'.titulaires.trans h.titulaires
  abonnements := h'.abonnements.trans h.abonnements
  observateurs := h'.observateurs.trans h.observateurs
  connexions := h'.connexions.trans h.connexions

theorem SentOnly.sameMaps (h : SentOnly P g g') : SameMaps g g' := by
  obtain ⟨es, -, rfl⟩ := h
  exact ⟨rfl, rfl, rfl, rfl, rfl⟩

theorem SentOnly.visibles (h : SentOnly P g g') : g'.visibles = g.visibles := by
  obtain ⟨es, -, rfl⟩ := h
  rfl

@[simp] theorem diffuserPresence_visibles (g : Gateway) (d : Uuid) (etat : Etat) :
    (g.diffuserPresence d etat).visibles = g.visibles :=
  (sentOnly_diffuserPresence (P := fun _ => True) g d trivial).visibles

/-- A change of what is visible, announced to those who watch. -/
theorem annonce_sameMaps (g : Gateway) (visibles : List Uuid) (d : Uuid) (etat : Etat) :
    SameMaps g (({ g with visibles := visibles }).diffuserPresence d etat) := by
  have hmaps : SameMaps g { g with visibles := visibles } := ⟨rfl, rfl, rfl, rfl, rfl⟩
  exact hmaps.trans (sentOnly_diffuserPresence (P := fun _ => True) _ d trivial).sameMaps

theorem declarerVisibilite_sameMaps (g : Gateway) (d : Uuid) (visible : Bool) :
    SameMaps g (g.declarerVisibilite d visible) := by
  unfold declarerVisibilite
  split
  · exact SameMaps.refl g
  · split
    · exact annonce_sameMaps g _ d _
    · exact annonce_sameMaps g _ d _

theorem masquer_sameMaps (g : Gateway) (d : Uuid) : SameMaps g (g.masquer d) := by
  unfold masquer
  split
  · exact annonce_sameMaps g _ d _
  · exact SameMaps.refl g

theorem mem_declarerVisibilite (g : Gateway) (d : Uuid) (visible : Bool) :
    d' ∈ (g.declarerVisibilite d visible).visibles ↔
      if d' = d then visible = true else d' ∈ g.visibles := by
  unfold declarerVisibilite
  split
  · rename_i hsame
    by_cases hd : d' = d
    · subst hd
      simp [hsame]
    · rw [if_neg hd]
  · split
    · rename_i hvisible
      rw [diffuserPresence_visibles, List.mem_append, List.mem_singleton]
      by_cases hd : d' = d <;> simp [hd, hvisible]
    · rename_i hvisible
      rw [diffuserPresence_visibles, List.mem_filter]
      by_cases hd : d' = d <;> simp [hd, hvisible]

theorem mem_masquer (g : Gateway) (d : Uuid) :
    d' ∈ (g.masquer d).visibles ↔ d' ∈ g.visibles ∧ d' ≠ d := by
  unfold masquer
  split
  · rw [diffuserPresence_visibles, List.mem_filter]
    simp
  · rename_i hd
    constructor
    · intro h
      refine ⟨h, ?_⟩
      rintro rfl
      exact hd h
    · exact And.left

/-! ## Ready states -/

@[simp] theorem setConnexion_connexions (c : Option Connexion) :
    (g.setConnexion w c).connexions w' = if w' = w then c else g.connexions w' :=
  Function.update_apply g.connexions w c w'

theorem setReadyState_connexions_of_ne (hw : w' ≠ w) (state : ReadyState) :
    (g.setReadyState w state).connexions w' = g.connexions w' := by
  unfold setReadyState
  rw [setConnexion_connexions, if_neg hw]

theorem closeSocket_connexions_of_ne (hw : w' ≠ w) :
    (g.closeSocket w).connexions w' = g.connexions w' := by
  unfold closeSocket
  split
  · exact setReadyState_connexions_of_ne hw _
  · rfl

theorem setReadyState_titulaire (state : ReadyState) :
    ((g.setReadyState w state).connexions w').map (·.titulaire) =
      (g.connexions w').map (·.titulaire) := by
  unfold setReadyState
  rw [setConnexion_connexions]
  by_cases hw : w' = w
  · subst hw
    cases g.connexions w' <;> simp
  · rw [if_neg hw]

theorem isOpen_setReadyState {state : ReadyState} (hstate : state ≠ .opened) :
    (g.setReadyState w state).isOpen w' = true ↔ g.isOpen w' = true ∧ w' ≠ w := by
  unfold isOpen setReadyState
  rw [setConnexion_connexions]
  by_cases hw : w' = w
  · subst hw
    cases g.connexions w' <;> simp [hstate]
  · rw [if_neg hw]
    simp [hw]

theorem isOpen_closeSocket :
    (g.closeSocket w).isOpen w' = true ↔ g.isOpen w' = true ∧ w' ≠ w := by
  unfold closeSocket
  split
  · exact isOpen_setReadyState (by decide)
  · rename_i hopen
    constructor
    · intro h
      refine ⟨h, ?_⟩
      rintro rfl
      exact hopen h
    · exact And.left

/-- Sockets may have come to close; nothing else is different. -/
structure ClosedOnly (g g' : Gateway) : Prop where
  byDevice : g'.byDevice = g.byDevice
  titulaires : g'.titulaires = g.titulaires
  abonnements : g'.abonnements = g.abonnements
  observateurs : g'.observateurs = g.observateurs
  visibles : g'.visibles = g.visibles
  envois : g'.envois = g.envois
  titulaire : ∀ w, (g'.connexions w).map (·.titulaire) = (g.connexions w).map (·.titulaire)
  isOpen : ∀ w, g'.isOpen w = true → g.isOpen w = true

theorem ClosedOnly.refl (g : Gateway) : ClosedOnly g g :=
  ⟨rfl, rfl, rfl, rfl, rfl, rfl, fun _ => rfl, fun _ => id⟩

theorem ClosedOnly.trans (h : ClosedOnly g g') (h' : ClosedOnly g' g'') : ClosedOnly g g'' where
  byDevice := h'.byDevice.trans h.byDevice
  titulaires := h'.titulaires.trans h.titulaires
  abonnements := h'.abonnements.trans h.abonnements
  observateurs := h'.observateurs.trans h.observateurs
  visibles := h'.visibles.trans h.visibles
  envois := h'.envois.trans h.envois
  titulaire w := (h'.titulaire w).trans (h.titulaire w)
  isOpen w hw := h.isOpen w (h'.isOpen w hw)

theorem setReadyState_closedOnly (g : Gateway) (w : Socket) {state : ReadyState}
    (hstate : state ≠ .opened) : ClosedOnly g (g.setReadyState w state) :=
  ⟨rfl, rfl, rfl, rfl, rfl, rfl, fun _ => setReadyState_titulaire state,
    fun _ hw => ((isOpen_setReadyState hstate).mp hw).1⟩

theorem closeSocket_closedOnly (g : Gateway) (w : Socket) : ClosedOnly g (g.closeSocket w) := by
  unfold closeSocket
  split
  · exact setReadyState_closedOnly g w (by decide)
  · exact ClosedOnly.refl g

theorem foldl_closeSocket_closedOnly (sockets : List Socket) (g : Gateway) :
    ClosedOnly g (sockets.foldl closeSocket g) := by
  induction sockets generalizing g with
  | nil => exact ClosedOnly.refl g
  | cons w sockets ih => exact (closeSocket_closedOnly g w).trans (ih (g.closeSocket w))

theorem isOpen_foldl_closeSocket (sockets : List Socket) :
    (sockets.foldl closeSocket g).isOpen w = true ↔ g.isOpen w = true ∧ w ∉ sockets := by
  induction sockets generalizing g with
  | nil => simp
  | cons w' sockets ih =>
    rw [List.foldl_cons, ih, isOpen_closeSocket, List.mem_cons]
    tauto

/-! ## Subscriptions -/

/-- Who watches a device is who is subscribed to it. -/
structure Souscriptions (g : Gateway) : Prop where
  inverse : g.abonnements.Inverse g.observateurs
  abonnements_noEmpty : g.abonnements.NoEmpty
  observateurs_noEmpty : g.observateurs.NoEmpty

/-- One socket is subscribed to these devices now; the others are where they were. -/
structure Reabonne (g g' : Gateway) (w : Socket) (cibles : List Uuid) : Prop where
  abonnements : ∀ w' d, g'.abonnements.Holds w' d ↔
    if w' = w then d ∈ cibles else g.abonnements.Holds w' d
  souscriptions : g'.Souscriptions
  byDevice : g'.byDevice = g.byDevice
  titulaires : g'.titulaires = g.titulaires
  visibles : g'.visibles = g.visibles
  connexions : g'.connexions = g.connexions

theorem SentOnly.reabonne {cibles : List Uuid} (hr : Reabonne g g' w cibles)
    (h : SentOnly P g' g'') : Reabonne g g'' w cibles := by
  obtain ⟨es, -, rfl⟩ := h
  exact ⟨hr.abonnements, ⟨hr.souscriptions.inverse, hr.souscriptions.abonnements_noEmpty,
    hr.souscriptions.observateurs_noEmpty⟩, hr.byDevice, hr.titulaires, hr.visibles, hr.connexions⟩

/-- A socket that was subscribed to nothing stays so. -/
theorem reabonne_self (h : g.Souscriptions) (hnone : g.abonnements.get? w = none) :
    Reabonne g g w [] := by
  refine ⟨fun w' d => ?_, h, rfl, rfl, rfl, rfl⟩
  by_cases hw : w' = w
  · subst hw
    simp [Index.not_holds_of_get?_none hnone]
  · rw [if_neg hw]

theorem reabonne_desabonner (h : g.Souscriptions) (w : Socket) :
    Reabonne g (g.desabonner w) w [] := by
  unfold desabonner
  cases hget : g.abonnements.get? w with
  | none => exact reabonne_self h hget
  | some cibles =>
    have hcibles : ∀ d, d ∈ cibles ↔ g.observateurs.Holds d w := fun d =>
      (Index.holds_of_get? hget).symm.trans (h.inverse w d)
    refine ⟨fun w' d => ?_, ⟨fun w' d => ?_, Index.noEmpty_delete h.abonnements_noEmpty,
      Index.noEmpty_removeAll h.observateurs_noEmpty⟩, rfl, rfl, rfl, rfl⟩
    · rw [Index.holds_delete]
      by_cases hw : w' = w <;> simp [hw]
    · rw [Index.holds_delete, Index.holds_removeAll, h.inverse]
      constructor
      · intro ⟨hd, hw⟩
        exact ⟨hd, fun hand => hw hand.2⟩
      · intro ⟨hd, hw⟩
        refine ⟨hd, ?_⟩
        rintro rfl
        exact hw ⟨(hcibles d).mpr hd, rfl⟩

/-- The connection was closed while the authorisation was checked. -/
theorem abonnerPresence_of_not (hw : ¬ g.titulaires.containsKey w = true) (autorises : List Uuid) :
    g.abonnerPresence w autorises = g := by
  unfold abonnerPresence
  rw [if_pos (by simpa using hw)]

/-- The subscription is put in place, whatever there was before. -/
theorem reabonne_abonnerPresence (h : g.Souscriptions)
    (hw : g.titulaires.containsKey w = true) (autorises : List Uuid) :
    Reabonne g (g.abonnerPresence w autorises) w autorises := by
  have hnone := reabonne_desabonner h w
  unfold abonnerPresence
  rw [if_neg (by simp [hw])]
  dsimp only
  refine SentOnly.reabonne (P := fun _ => True) ?_ (sentOnly_send _ _ trivial)
  split
  · rename_i hempty
    rw [hempty]
    exact hnone
  · rename_i hsome
    have hobs : ∀ d, ¬ (g.desabonner w).observateurs.Holds d w := by
      intro d hd
      have habo := (hnone.abonnements w d).mp ((hnone.souscriptions.inverse w d).mpr hd)
      simp at habo
    refine ⟨fun w' d => ?_, ⟨fun w' d => ?_,
      Index.noEmpty_set hnone.souscriptions.abonnements_noEmpty hsome,
      Index.noEmpty_addAll hnone.souscriptions.observateurs_noEmpty⟩,
      hnone.byDevice, hnone.titulaires, hnone.visibles, hnone.connexions⟩
    · rw [Index.holds_set, hnone.abonnements]
      by_cases hww : w' = w <;> simp [hww]
    · rw [Index.holds_set, Index.holds_addAll, hnone.souscriptions.inverse]
      by_cases hww : w' = w
      · subst hww
        simp [hobs d]
      · simp [hww]

/-- What a turn of the loop leaves to the socket it is about. -/
theorem reabonne_revoquerSocket (h : g.Souscriptions) {userA userB : Uuid} {a b : List Uuid}
    {titulaire : Titulaire} {interdits cibles : List Uuid}
    (hinterdits : (if titulaire.userId = userA then some b
      else if titulaire.userId = userB then some a else none) = some interdits)
    (hget : g.abonnements.get? w = some cibles) :
    Reabonne g (g.revoquerSocket userA userB a b (w, titulaire)) w
      (cibles.filter (· ∉ interdits)) := by
  have heq : g.revoquerSocket userA userB a b (w, titulaire) = { g with
      observateurs := g.observateurs.removeAll (interdits.filter (· ∈ cibles)) w
      abonnements := if cibles.filter (· ∉ interdits) = [] then g.abonnements.delete w
        else g.abonnements.set w (cibles.filter (· ∉ interdits)) } := by
    simp only [revoquerSocket, hinterdits, hget]
  rw [heq]
  have hcibles : ∀ d, d ∈ cibles ↔ g.observateurs.Holds d w := fun d =>
    (Index.holds_of_get? hget).symm.trans (h.inverse w d)
  have habonnements : ∀ w' d, (if cibles.filter (· ∉ interdits) = [] then g.abonnements.delete w
      else g.abonnements.set w (cibles.filter (· ∉ interdits))).Holds w' d ↔
      if w' = w then d ∈ cibles.filter (· ∉ interdits) else g.abonnements.Holds w' d := by
    intro w' d
    split
    · rename_i hempty
      rw [Index.holds_delete, hempty]
      by_cases hw : w' = w <;> simp [hw]
    · rw [Index.holds_set]
  refine ⟨habonnements, ⟨fun w' d => ?_, ?_, Index.noEmpty_removeAll h.observateurs_noEmpty⟩,
    rfl, rfl, rfl, rfl⟩
  · rw [habonnements, Index.holds_removeAll]
    by_cases hw : w' = w
    · subst hw
      have hd := hcibles d
      simp only [if_true, List.mem_filter, decide_eq_true_eq, and_true]
      tauto
    · simp [hw, h.inverse w' d]
  · dsimp only
    split
    · exact Index.noEmpty_delete h.abonnements_noEmpty
    · rename_i hsome
      exact Index.noEmpty_set h.abonnements_noEmpty hsome

/-- A turn about a socket of neither account, or one without a subscription. -/
theorem revoquerSocket_eq_self {userA userB : Uuid} {a b : List Uuid} {titulaire : Titulaire}
    (hskip : (if titulaire.userId = userA then some b
        else if titulaire.userId = userB then some a else none) = none ∨
      g.abonnements.get? w = none) :
    g.revoquerSocket userA userB a b (w, titulaire) = g := by
  unfold revoquerSocket
  rcases hskip with hother | hnone
  · simp only [hother]
  · dsimp only
    split
    · rfl
    · simp only [hnone]

/-- Subscriptions may be gone; nothing else but their inverse is different. -/
structure Restreint (g g' : Gateway) : Prop where
  abonnements : ∀ w d, g'.abonnements.Holds w d → g.abonnements.Holds w d
  byDevice : g'.byDevice = g.byDevice
  titulaires : g'.titulaires = g.titulaires
  visibles : g'.visibles = g.visibles
  connexions : g'.connexions = g.connexions
  envois : g'.envois = g.envois

theorem Restreint.refl (g : Gateway) : Restreint g g := ⟨fun _ _ => id, rfl, rfl, rfl, rfl, rfl⟩

theorem Restreint.trans (h : Restreint g g') (h' : Restreint g' g'') : Restreint g g'' where
  abonnements w d hd := h.abonnements w d (h'.abonnements w d hd)
  byDevice := h'.byDevice.trans h.byDevice
  titulaires := h'.titulaires.trans h.titulaires
  visibles := h'.visibles.trans h.visibles
  connexions := h'.connexions.trans h.connexions
  envois := h'.envois.trans h.envois

theorem revoquerSocket_restreint (g : Gateway) (userA userB : Uuid) (a b : List Uuid)
    (entree : Socket × Titulaire) : Restreint g (g.revoquerSocket userA userB a b entree) := by
  unfold revoquerSocket
  dsimp only
  split
  · exact Restreint.refl g
  · split
    · exact Restreint.refl g
    · rename_i interdits _ _ cibles hget
      refine ⟨fun w d hd => ?_, rfl, rfl, rfl, rfl, rfl⟩
      dsimp only at hd
      split at hd
      · exact (Index.holds_delete.mp hd).1
      · rw [Index.holds_set] at hd
        by_cases hw : w = entree.1
        · rw [if_pos hw] at hd
          rw [hw]
          exact (Index.holds_of_get? hget).mpr (List.mem_filter.mp hd).1
        · rw [if_neg hw] at hd
          exact hd

theorem foldl_revoquerSocket_restreint (g : Gateway) (userA userB : Uuid) (a b : List Uuid)
    (entrees : List (Socket × Titulaire)) :
    Restreint g (entrees.foldl (revoquerSocket userA userB a b) g) := by
  induction entrees generalizing g with
  | nil => exact Restreint.refl g
  | cons entree entrees ih => exact (revoquerSocket_restreint g userA userB a b entree).trans (ih _)

theorem revoquerPresence_restreint (g : Gateway) (userA userB : Uuid) (a b : List Uuid) :
    Restreint g (g.revoquerPresence userA userB a b) :=
  foldl_revoquerSocket_restreint g userA userB a b g.titulaires.entries

theorem desabonner_restreint (g : Gateway) (w : Socket) : Restreint g (g.desabonner w) := by
  unfold desabonner
  split
  · exact Restreint.refl g
  · exact ⟨fun _ _ hd => (Index.holds_delete.mp hd).1, rfl, rfl, rfl, rfl, rfl⟩

/-! ## A connection that goes -/

/-- The socket is taken out of the four maps. -/
theorem detach_sameMaps (g : Gateway) (d : Uuid) (w : Socket) :
    SameMaps { ({ g with titulaires := g.titulaires.erase w }).desabonner w with
      byDevice := g.byDevice.remove d w } (g.detach d w) := by
  have hsame := (desabonner_restreint { g with titulaires := g.titulaires.erase w } w).byDevice
  unfold detach Index.remove
  dsimp only
  rw [hsame]
  cases hget : g.byDevice.get? d with
  | none => exact ⟨hsame, rfl, rfl, rfl, rfl⟩
  | some sockets =>
    dsimp only
    by_cases hreste : sockets.filter (· ≠ w) = []
    · rw [if_neg (not_not.mpr hreste), if_pos hreste]
      exact masquer_sameMaps _ d
    · rw [if_pos hreste, if_neg hreste]
      exact SameMaps.refl _

/-- A device stays visible until its last connection is taken out. -/
theorem mem_detach (g : Gateway) (d : Uuid) (w : Socket) :
    d' ∈ (g.detach d w).visibles ↔ d' ∈ g.visibles ∧
      ¬ (d' = d ∧ (g.byDevice.get? d).isSome ∧ (g.byDevice.remove d w).get? d = none) := by
  have hrestreint := desabonner_restreint { g with titulaires := g.titulaires.erase w } w
  have hsame := hrestreint.byDevice
  have hvisibles := hrestreint.visibles
  unfold detach Index.remove
  dsimp only
  rw [hsame]
  cases hget : g.byDevice.get? d with
  | none => simp [hvisibles]
  | some sockets =>
    dsimp only
    by_cases hreste : sockets.filter (· ≠ w) = []
    · rw [if_neg (not_not.mpr hreste), if_pos hreste, mem_masquer]
      simp [hvisibles]
    · rw [if_pos hreste, if_neg hreste]
      simp [hvisibles]

theorem deconnecterAppareil_sameMaps {sockets : List Socket}
    (hget : g.byDevice.get? d = some sockets) :
    SameMaps { sockets.foldl closeSocket g with byDevice := g.byDevice.delete d }
      (g.deconnecterAppareil d) := by
  unfold deconnecterAppareil
  rw [hget]
  dsimp only
  rw [(foldl_closeSocket_closedOnly sockets g).byDevice]
  exact masquer_sameMaps _ d

theorem mem_deconnecterAppareil (g : Gateway) (d : Uuid) :
    d' ∈ (g.deconnecterAppareil d).visibles ↔
      d' ∈ g.visibles ∧ ¬ (d' = d ∧ (g.byDevice.get? d).isSome) := by
  unfold deconnecterAppareil
  cases hget : g.byDevice.get? d with
  | none => simp
  | some sockets =>
    dsimp only
    rw [mem_masquer, (foldl_closeSocket_closedOnly sockets g).visibles]
    simp

/-- The handshake of a new socket. -/
theorem connexion_some (g : Gateway) (w : Socket) (titulaire : Titulaire) :
    SentOnly (· = .ready) { g with
      byDevice := g.byDevice.add titulaire.deviceId w
      titulaires := g.titulaires.insert w titulaire
      connexions := Function.update g.connexions w (some ⟨titulaire, .opened⟩) }
      (g.connexion w (some titulaire)) := sentOnly_send _ _ rfl

/-! ## Steps that open no socket and subscribe none -/

/-- Who a socket was accepted for. -/
def titulaire? (g : Gateway) (w : Socket) : Option Titulaire := (g.connexions w).map (·.titulaire)

theorem connexion_titulaire (g : Gateway) (w w' : Socket) (t : Titulaire) :
    (g.connexion w (some t)).titulaire? w' = if w' = w then some t else g.titulaire? w' := by
  unfold titulaire?
  rw [(connexion_some g w t).sameMaps.connexions]
  dsimp only
  rw [Function.update_apply]
  split <;> rfl

structure Reste (g g' : Gateway) : Prop where
  isOpen : ∀ w, g'.isOpen w = true → g.isOpen w = true
  titulaire : ∀ w, g'.titulaire? w = g.titulaire? w
  abonnements : ∀ w d, g'.abonnements.Holds w d → g.abonnements.Holds w d
  titulaires : ∀ w, g'.isOpen w = true → g'.titulaires.get? w = g.titulaires.get? w

theorem Reste.refl (g : Gateway) : Reste g g :=
  ⟨fun _ => id, fun _ => rfl, fun _ _ => id, fun _ _ => rfl⟩

theorem Reste.trans (h : Reste g g') (h' : Reste g' g'') : Reste g g'' where
  isOpen w hw := h.isOpen w (h'.isOpen w hw)
  titulaire w := (h'.titulaire w).trans (h.titulaire w)
  abonnements w d hd := h.abonnements w d (h'.abonnements w d hd)
  titulaires w hw := (h'.titulaires w hw).trans (h.titulaires w (h'.isOpen w hw))

theorem SameMaps.reste (h : SameMaps g g') : Reste g g' := by
  refine ⟨fun w hw => ?_, fun w => ?_, fun w d hd => ?_, fun w _ => ?_⟩
  · unfold isOpen at hw ⊢
    rw [h.connexions] at hw
    exact hw
  · unfold titulaire?
    rw [h.connexions]
  · rw [h.abonnements] at hd
    exact hd
  · rw [h.titulaires]

theorem ClosedOnly.reste (h : ClosedOnly g g') : Reste g g' := by
  refine ⟨h.isOpen, h.titulaire, fun w d hd => ?_, fun w _ => ?_⟩
  · rw [h.abonnements] at hd
    exact hd
  · rw [h.titulaires]

theorem Restreint.reste (h : Restreint g g') : Reste g g' := by
  refine ⟨fun w hw => ?_, fun w => ?_, h.abonnements, fun w _ => ?_⟩
  · unfold isOpen at hw ⊢
    rw [h.connexions] at hw
    exact hw
  · unfold titulaire?
    rw [h.connexions]
  · rw [h.titulaires]

theorem detach_reste (hw : g.isOpen w = false) (d : Uuid) : Reste g (g.detach d w) := by
  have hs := desabonner_restreint { g with titulaires := g.titulaires.erase w } w
  have hfirst : Reste g { g with titulaires := g.titulaires.erase w } := by
    refine ⟨fun _ => id, fun _ => rfl, fun _ _ => id, fun w' hw' => ?_⟩
    dsimp only
    rw [LinkedMap.get?_erase, if_neg]
    rintro rfl
    have hopen : g.isOpen w' = true := hw'
    rw [hw] at hopen
    cases hopen
  have hsecond : Reste g { ({ g with titulaires := g.titulaires.erase w }).desabonner w with
      byDevice := g.byDevice.remove d w } := by
    have htrans := hfirst.trans hs.reste
    exact ⟨htrans.isOpen, htrans.titulaire, htrans.abonnements, htrans.titulaires⟩
  exact hsecond.trans (detach_sameMaps g d w).reste

theorem deconnecterAppareil_reste (g : Gateway) (d : Uuid) : Reste g (g.deconnecterAppareil d) := by
  cases hget : g.byDevice.get? d with
  | none =>
    unfold deconnecterAppareil
    rw [hget]
    exact Reste.refl g
  | some sockets =>
    have hclosed := (foldl_closeSocket_closedOnly sockets g).reste
    have hmid : Reste g { sockets.foldl closeSocket g with byDevice := g.byDevice.delete d } :=
      ⟨hclosed.isOpen, hclosed.titulaire, hclosed.abonnements, hclosed.titulaires⟩
    exact hmid.trans (deconnecterAppareil_sameMaps hget).reste

theorem abonnerPresence_connexions (g : Gateway) (w : Socket) (autorises : List Uuid) :
    (g.abonnerPresence w autorises).connexions = g.connexions := by
  have hs := (desabonner_restreint g w).connexions
  unfold abonnerPresence
  split
  · rfl
  · dsimp only [send]
    split
    · exact hs
    · exact hs

end Gateway

/-! ## What a step can do to the gateway -/

open Gateway

/-- Neither a snapshot nor a presence event. -/
def Envoi.SansPresence : Envoi → Prop
  | .snapshot _ => False
  | .presence _ _ => False
  | _ => True

/-- What a step does to the gateway, with what is known of the state it starts from. -/
inductive Move (g : Gateway) : Input → Gateway → Prop where
  | relais {i : Input} {g' : Gateway} (h : SentOnly Envoi.SansPresence g g') : Move g i g'
  | connexion (w : Socket) (claims : Option Titulaire) (hfresh : g.connexions w = none) :
      Move g (.connexion w claims) (g.connexion w claims)
  | closing {i : Input} (w : Socket) : Move g i (g.closeSocket w)
  | detach {i : Input} (w : Socket) (c : Connexion) (hc : g.connexions w = some c) (mid : Gateway)
      (hmid : ClosedOnly g mid) (hw : mid.isOpen w = false)
      (hothers : ∀ w', w' ≠ w → mid.connexions w' = g.connexions w') :
      Move g i (mid.detach c.titulaire.deviceId w)
  | presenceMode (w : Socket) (c : Connexion) (hc : g.connexions w = some c)
      (hopen : c.readyState ≠ .closed) (visible : Bool) :
      Move g (.message w (.presenceMode visible))
        (g.declarerVisibilite c.titulaire.deviceId visible)
  | abonner (n : Nat) (w : Socket) (autorises : List Uuid) :
      Move g (.autorise n autorises) (g.abonnerPresence w autorises)
  | revoquer {i : Input} (userA userB : Uuid) (a b : List Uuid) :
      Move g i (g.revoquerPresence userA userB a b)
  | deconnecter {i : Input} (d : Uuid) : Move g i (g.deconnecterAppareil d)

namespace Gateway

variable {g g' : Gateway}

/-- Handshakes and subscriptions apart, every step is of the kind. -/
theorem reste_move {i : Input} (h : Move g i g') :
    (∃ w claims, i = .connexion w claims ∧ g.connexions w = none ∧ g' = g.connexion w claims) ∨
      (∃ n w autorises, i = .autorise n autorises ∧ g' = g.abonnerPresence w autorises) ∨
        Reste g g' := by
  cases h with
  | relais hs => exact .inr (.inr hs.sameMaps.reste)
  | connexion w claims hfresh => exact .inl ⟨w, claims, rfl, hfresh, rfl⟩
  | closing w => exact .inr (.inr (closeSocket_closedOnly g w).reste)
  | detach w c hc mid hmid hw hothers => exact .inr (.inr (hmid.reste.trans (detach_reste hw _)))
  | presenceMode w c hc hopen visible =>
    exact .inr (.inr (declarerVisibilite_sameMaps g _ visible).reste)
  | abonner n w autorises => exact .inr (.inl ⟨n, w, autorises, rfl, rfl⟩)
  | revoquer userA userB a b => exact .inr (.inr (revoquerPresence_restreint g userA userB a b).reste)
  | deconnecter d => exact .inr (.inr (deconnecterAppareil_reste g d))

/-- A handshake apart, a socket stays with its holder. -/
theorem titulaire_move {i : Input} (h : Move g i g') (hconnexion : ∀ w claims, i ≠ .connexion w claims)
    (w : Socket) : g'.titulaire? w = g.titulaire? w := by
  rcases reste_move h with ⟨v, claims, hi, -⟩ | ⟨n, v, autorises, -, rfl⟩ | hreste
  · exact absurd hi (hconnexion v claims)
  · unfold titulaire?
    rw [abonnerPresence_connexions]
  · exact hreste.titulaire w

end Gateway

namespace Runtime

variable {s t : Runtime} {w : Socket} {d : Uuid}

theorem relayerAppel_sentOnly (s : Runtime) (w : Socket) (kind callId : Option String)
    (payload : Option Payload) (cibles : Devices) :
    SentOnly Envoi.SansPresence s.gateway (s.relayerAppel w kind callId payload cibles).gateway := by
  unfold relayerAppel
  split
  · dsimp only
    split
    · exact SentOnly.refl _
    · split
      · exact SentOnly.refl _
      · exact sentOnly_foldl (fun g cible => sentOnly_envoyerA g cible trivial) _ _
  · exact SentOnly.refl _

/-- A message changes what is visible, or it is relayed. -/
theorem traiterMessage_move {c : Connexion} (hc : s.gateway.connexions w = some c)
    (hopen : c.readyState ≠ .closed) (m : Message) :
    Move s.gateway (.message w m) (s.traiterMessage w c.titulaire.deviceId m).gateway := by
  cases m with
  | ping => exact .relais (sentOnly_send _ _ trivial)
  | typing stop cibles conversationId =>
    exact .relais (sentOnly_relayerEphemere _ _ _ _ _ fun _ => trivial)
  | presenceMode visible => exact .presenceMode w c hc hopen visible
  | presenceSubscribe devices =>
    unfold traiterMessage
    dsimp only
    split
    · exact .relais (SentOnly.refl _)
    · exact .relais (SentOnly.refl _)
  | callSignal kind callId payload cibles => exact .relais (relayerAppel_sentOnly s w _ _ _ _)
  | autre => exact .relais (SentOnly.refl _)

theorem step_message {m : Message} (h : step (.message w m) s = some t) :
    ∃ c, s.gateway.connexions w = some c ∧ c.readyState ≠ .closed ∧
      t = s.traiterMessage w c.titulaire.deviceId m := by
  obtain ⟨c, hc, h⟩ := Option.bind_eq_some_iff.mp h
  split at h
  · cases h
  · rename_i hopen
    exact ⟨c, hc, hopen, (Option.some.inj h).symm⟩

theorem step_move {i : Input} (h : step i s = some t) : Move s.gateway i t.gateway := by
  cases i with
  | connexion w claims =>
    simp only [step] at h
    split at h
    · cases h
    · rename_i hfresh
      obtain rfl := Option.some.inj h
      exact .connexion w claims (by simpa using hfresh)
  | closing w =>
    simp only [step] at h
    split at h
    · obtain rfl := Option.some.inj h
      exact .closing w
    · cases h
  | close w =>
    obtain ⟨c, hc, h⟩ := Option.bind_eq_some_iff.mp h
    split at h
    · cases h
    · obtain rfl := Option.some.inj h
      refine .detach w c hc _ (setReadyState_closedOnly _ w (by decide)) ?_
        fun w' hw => setReadyState_connexions_of_ne hw _
      rw [← Bool.not_eq_true, isOpen_setReadyState (by decide)]
      exact fun hand => hand.2 rfl
  | error w =>
    obtain ⟨c, hc, h⟩ := Option.bind_eq_some_iff.mp h
    split at h
    · cases h
    · obtain rfl := Option.some.inj h
      refine .detach w c hc _ (closeSocket_closedOnly _ w) ?_
        fun w' hw => closeSocket_connexions_of_ne hw
      rw [← Bool.not_eq_true, isOpen_closeSocket]
      exact fun hand => hand.2 rfl
  | message w m =>
    obtain ⟨c, hc, hopen, rfl⟩ := step_message h
    exact traiterMessage_move hc hopen m
  | autorise i autorises =>
    obtain ⟨a, ha, h⟩ := Option.bind_eq_some_iff.mp h
    split at h
    · obtain rfl := Option.some.inj h
      exact .abonner i a.socket autorises
    · cases h
  | verifie i bloque =>
    obtain ⟨v, hv, h⟩ := Option.bind_eq_some_iff.mp h
    obtain ⟨cible, hcible, h⟩ := Option.bind_eq_some_iff.mp h
    obtain rfl := Option.some.inj h
    cases bloque with
    | true => exact .relais (SentOnly.refl _)
    | false => exact .relais (sentOnly_envoyerA _ _ trivial)
  | revoquerPresence userA userB a b =>
    obtain rfl := Option.some.inj h
    exact .revoquer userA userB a b
  | deconnecterAppareil d =>
    obtain rfl := Option.some.inj h
    exact .deconnecter d
  | notifyPending d =>
    obtain rfl := Option.some.inj h
    exact .relais (sentOnly_envoyerA _ _ trivial)

end Runtime

end ZiaCrypte.Realtime

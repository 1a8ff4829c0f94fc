import ZiaCrypte.Realtime.PresenceSeen

/-!
# `DELETE /devices/:deviceId` and the sockets of the device

The request reads the device, deactivates it in a transaction, and disconnects its
sockets; between these come the events of the gateway. A handshake looks at the token
only, and a socket that is closing still delivers messages.
-/
namespace ZiaCrypte.Realtime

open ZiaCrypte.Lib ZiaCrypte.Server

/-- The device a relayed message is from. -/
def Envoi.expediteur? : Envoi → Option Uuid
  | .typing _ _ expediteur => some expediteur
  | .callSignal expediteur _ _ _ => some expediteur
  | _ => none

/-- A message pending, how a device is, or a step of a call. -/
def Envoi.estEvenement : Envoi → Bool
  | .messagePending => true
  | .snapshot _ => true
  | .presence _ _ => true
  | .callSignal _ _ _ _ => true
  | _ => false

/-- A request that has read the device, and one whose transaction is done. -/
inductive RevocationStage where
  | trouve
  | desactive
  deriving DecidableEq

structure RevocationRequest where
  deviceId : Uuid
  stage : RevocationStage
  deriving DecidableEq

/-- The gateway, the devices, the requests under way and the devices that were revoked. -/
structure Revocations where
  runtime : Runtime
  devices : List Device
  requests : List RevocationRequest
  revoques : List Uuid

inductive RevocationInput where
  | realtime (i : Input)
  /-- `findUnique`, of a request of the account. -/
  | find (userId deviceId : Uuid)
  | transaction (request : Nat)
  | disconnect (request : Nat)

namespace Revocations

/-- Devices that are inactive were revoked before the server was started. -/
def start (devices : List Device) : Revocations where
  runtime := .start
  devices := devices
  requests := []
  revoques := (devices.filter fun d => !d.isActive).map (·.id)

def gateway (s : Revocations) : Gateway := s.runtime.gateway

/-- A device of another account is answered 404, one that is inactive 204, at once. -/
def find (userId deviceId : Uuid) (s : Revocations) : Revocations :=
  match s.devices.find? (·.id == deviceId) with
  | none => s
  | some device =>
      if device.userId ≠ userId ∨ !device.isActive then s
      else { s with requests := s.requests ++ [⟨device.id, .trouve⟩] }

def step : RevocationInput → Revocations → Option Revocations
  | .realtime i, s => (Runtime.step i s.runtime).map fun r => { s with runtime := r }
  | .find userId deviceId, s => some (s.find userId deviceId)
  | .transaction i, s => do
      let r ← s.requests[i]?
      if r.stage = .trouve then
        some { s with
          devices := s.devices.map fun d =>
            if d.id = r.deviceId then { d with isActive := false } else d
          requests := s.requests.set i { r with stage := .desactive } }
      else none
  | .disconnect i, s => do
      let r ← s.requests[i]?
      if r.stage = .desactive then
        some { s with
          runtime := { s.runtime with gateway := s.runtime.gateway.deconnecterAppareil r.deviceId }
          requests := s.requests.eraseIdx i
          revoques := r.deviceId :: s.revoques }
      else none

end Revocations

namespace Gateway

/-- The device a socket was accepted for. -/
def appareil? (g : Gateway) (w : Socket) : Option Uuid :=
  (g.titulaire? w).map (·.deviceId)

def joignable (g : Gateway) (d : Uuid) : Bool := ((g.byDevice.get? d).getD []).any g.isOpen

/-- What went out since. -/
def nouveaux (g g' : Gateway) : List (Socket × Envoi) :=
  g'.envois.take (g'.envois.length - g.envois.length)

/-- No event goes to a socket of these devices, and nothing is relayed from them. -/
def Muet (revoques : List Uuid) (g g' : Gateway) : Prop :=
  ∀ x ∈ nouveaux g g', ∀ d ∈ revoques,
    (g'.appareil? x.1 = some d → x.2.estEvenement = false) ∧ x.2.expediteur? ≠ some d

instance (revoques : List Uuid) (g g' : Gateway) : Decidable (Muet revoques g g') :=
  inferInstanceAs (Decidable (∀ x ∈ nouveaux g g', ∀ d ∈ revoques,
    (g'.appareil? x.1 = some d → x.2.estEvenement = false) ∧ x.2.expediteur? ≠ some d))

/-- The sockets of these devices are subscribed to nothing. -/
def SansAbonnement (revoques : List Uuid) (g : Gateway) : Prop :=
  ∀ w, ∀ d ∈ revoques, g.appareil? w = some d → ∀ cible, ¬ g.abonnements.Holds w cible

/-- The sockets of these devices are not open, and subscribed to nothing. -/
structure Coupes (revoques : List Uuid) (g : Gateway) : Prop where
  fermes : ∀ w, ∀ d ∈ revoques, g.appareil? w = some d → g.isOpen w = false
  sansAbonnement : g.SansAbonnement revoques

/-- An open socket has a holder. -/
def Ouverts (g : Gateway) : Prop := ∀ w, g.isOpen w = true → (g.titulaires.get? w).isSome

end Gateway

/-! ## What must not come after a revocation -/

/-- The device a handshake is accepted for. -/
def Input.accueilli? : Input → Option Uuid
  | .connexion _ (some titulaire) => some titulaire.deviceId
  | _ => none

namespace Runtime

/-- The device something is relayed from, to an open socket at least. -/
def relaie? (s : Runtime) : Input → Option Uuid
  | .message socket (.typing _ cibles (some _)) =>
      if (cibles.firsts 50).any s.gateway.joignable then s.gateway.appareil? socket else none
  | .message socket (.callSignal (some kind) (some _) (some payload) cibles) =>
      if kind ∈ KINDS_APPEL ∧ kind ≠ "invite" ∧ payload.length ≤ MAX_PAYLOAD_APPEL ∧
          (cibles.firsts 10).any s.gateway.joignable = true then
        (s.gateway.titulaires.get? socket).map (·.deviceId)
      else none
  | .verifie i false => do
      let v ← s.invitations[i]?
      let cible ← v.cibles.head?
      if s.gateway.joignable cible then some v.titulaire.deviceId else none
  | _ => none

/-- The device a subscription is put in place for, unless it is to nothing. -/
def abonne? (s : Runtime) : Input → Option Uuid
  | .autorise i autorises => do
      let a ← s.abonnements[i]?
      if autorises = [] then none else (s.gateway.titulaires.get? a.socket).map (·.deviceId)
  | _ => none

end Runtime

/-- What must not come after the revocation of a device: a handshake for it, a message of
one of its sockets that reaches an open one, a subscription that was under way; and what
must not be there when it is disconnected: a subscription of one of its sockets. -/
def SansSuite : RevocationInput → Revocations → Prop
  | .realtime i, s => ∀ d ∈ s.revoques,
      i.accueilli? ≠ some d ∧ s.runtime.relaie? i ≠ some d ∧ s.runtime.abonne? i ≠ some d
  | .disconnect i, s => ∀ r ∈ s.requests[i]?, ∀ x ∈ s.gateway.titulaires.entries,
      x.2.deviceId = r.deviceId → s.gateway.abonnements.get? x.1 = none
  | _, _ => True

instance decidableSansSuite (i : RevocationInput) (s : Revocations) : Decidable (SansSuite i s) :=
  match i with
  | .realtime i => inferInstanceAs (Decidable (∀ d ∈ s.revoques,
      i.accueilli? ≠ some d ∧ s.runtime.relaie? i ≠ some d ∧ s.runtime.abonne? i ≠ some d))
  | .disconnect i => inferInstanceAs (Decidable (∀ r ∈ s.requests[i]?,
      ∀ x ∈ s.gateway.titulaires.entries, x.2.deviceId = r.deviceId →
        s.gateway.abonnements.get? x.1 = none))
  | .find _ _ | .transaction _ => isTrue trivial

namespace Gateway

variable {g g' g'' : Gateway} {w : Socket} {d : Uuid} {revoques : List Uuid}

theorem Reste.appareil (h : Reste g g') (w : Socket) : g'.appareil? w = g.appareil? w := by
  unfold appareil?
  rw [h.titulaire]

theorem Indexes.appareil (h : g.Indexes) {t : Titulaire} (ht : g.titulaires.get? w = some t) :
    g.appareil? w = some t.deviceId :=
  congrArg (Option.map Titulaire.deviceId) (h.poignee w t ht)

theorem Coupes.reste (h : g.Coupes revoques) (hr : Reste g g') : g'.Coupes revoques where
  fermes w d hd hw := by
    rw [hr.appareil] at hw
    rw [← Bool.not_eq_true]
    intro hopen
    have hclosed := h.fermes w d hd hw
    rw [hr.isOpen w hopen] at hclosed
    cases hclosed
  sansAbonnement w d hd hw cible hcible := by
    rw [hr.appareil] at hw
    exact h.sansAbonnement w d hd hw cible (hr.abonnements w cible hcible)

theorem Ouverts.reste (h : g.Ouverts) (hr : Reste g g') : g'.Ouverts := by
  intro w hw
  rw [hr.titulaires w hw]
  exact h w (hr.isOpen w hw)

/-! ## Handshakes and subscriptions -/

theorem connexion_appareil (g : Gateway) (w w' : Socket) (t : Titulaire) :
    (g.connexion w (some t)).appareil? w' = if w' = w then some t.deviceId else g.appareil? w' := by
  unfold appareil?
  rw [connexion_titulaire]
  split <;> rfl

theorem connexion_isOpen (g : Gateway) (w w' : Socket) (t : Titulaire) :
    (g.connexion w (some t)).isOpen w' = if w' = w then true else g.isOpen w' := by
  unfold isOpen
  rw [(connexion_some g w t).sameMaps.connexions]
  dsimp only
  rw [Function.update_apply]
  split <;> rfl

/-- The device of a handshake is none of those that were revoked. -/
theorem Coupes.connexion (h : g.Coupes revoques) (w : Socket) {claims : Option Titulaire}
    (hclaims : ∀ t, claims = some t → t.deviceId ∉ revoques) :
    (g.connexion w claims).Coupes revoques := by
  cases claims with
  | none => exact h
  | some t =>
    have hold : ∀ w' d, d ∈ revoques → (g.connexion w (some t)).appareil? w' = some d →
        w' ≠ w ∧ g.appareil? w' = some d := by
      intro w' d hd hw'
      rw [connexion_appareil] at hw'
      by_cases hww : w' = w
      · rw [if_pos hww] at hw'
        rw [← Option.some.inj hw'] at hd
        exact absurd hd (hclaims t rfl)
      · rw [if_neg hww] at hw'
        exact ⟨hww, hw'⟩
    constructor
    · intro w' d hd hw'
      obtain ⟨hww, happareil⟩ := hold w' d hd hw'
      rw [connexion_isOpen, if_neg hww]
      exact h.fermes w' d hd happareil
    · intro w' d hd hw' cible hcible
      obtain ⟨-, happareil⟩ := hold w' d hd hw'
      rw [(connexion_some g w t).sameMaps.abonnements] at hcible
      exact h.sansAbonnement w' d hd happareil cible hcible

theorem Ouverts.connexion (h : g.Ouverts) (w : Socket) (claims : Option Titulaire) :
    (g.connexion w claims).Ouverts := by
  cases claims with
  | none => exact h
  | some t =>
    intro w' hw'
    rw [(connexion_some g w t).sameMaps.titulaires]
    dsimp only
    rw [LinkedMap.get?_insert]
    rw [connexion_isOpen] at hw'
    by_cases hww : w' = w
    · rw [if_pos hww]
      rfl
    · rw [if_neg hww] at hw' ⊢
      exact h w' hw'

/-- The subscription is of a device that was not revoked, or to nothing. -/
theorem Coupes.abonnerPresence (h : g.Coupes revoques) (hg : g.Indexes) (w : Socket)
    {autorises : List Uuid} (hautorises : autorises ≠ [] →
      ∀ t, g.titulaires.get? w = some t → t.deviceId ∉ revoques) :
    (g.abonnerPresence w autorises).Coupes revoques := by
  by_cases hcontains : g.titulaires.containsKey w = true
  · have hr := reabonne_abonnerPresence hg.souscriptions hcontains autorises
    constructor
    · intro w' d hd hw'
      unfold isOpen
      unfold appareil? titulaire? at hw'
      rw [hr.connexions] at hw' ⊢
      exact h.fermes w' d hd hw'
    · intro w' d hd hw' cible hcible
      unfold appareil? titulaire? at hw'
      rw [hr.connexions] at hw'
      rw [hr.abonnements] at hcible
      by_cases hww : w' = w
      · rw [if_pos hww] at hcible
        obtain ⟨t, ht⟩ := Option.isSome_iff_exists.mp hcontains
        rw [hww] at hw'
        have htd : t.deviceId = d := Option.some.inj ((hg.appareil ht).symm.trans hw')
        rw [← htd] at hd
        exact hautorises (List.ne_nil_of_mem hcible) t ht hd
      · rw [if_neg hww] at hcible
        exact h.sansAbonnement w' d hd hw' cible hcible
  · rw [abonnerPresence_of_not hcontains]
    exact h

theorem Ouverts.abonnerPresence (h : g.Ouverts) (hg : g.Indexes) (w : Socket)
    (autorises : List Uuid) : (g.abonnerPresence w autorises).Ouverts := by
  by_cases hcontains : g.titulaires.containsKey w = true
  · have hr := reabonne_abonnerPresence hg.souscriptions hcontains autorises
    intro w' hw'
    unfold isOpen at hw'
    rw [hr.connexions] at hw'
    rw [hr.titulaires]
    exact h w' hw'
  · rw [abonnerPresence_of_not hcontains]
    exact h

theorem deconnecterAppareil_not_holds (g : Gateway) (d : Uuid) (w : Socket) :
    ¬ (g.deconnecterAppareil d).byDevice.Holds d w := by
  cases hget : g.byDevice.get? d with
  | none =>
    unfold deconnecterAppareil
    rw [hget]
    exact Index.not_holds_of_get?_none hget
  | some sockets =>
    rw [(deconnecterAppareil_sameMaps hget).byDevice]
    intro hheld
    exact (Index.holds_delete.mp hheld).2 rfl

/-- After the disconnection of a device its sockets are closed, or about to be. -/
theorem Coupes.deconnecterAppareil (h : g.Coupes revoques) (hg : g.Indexes) (ho : g.Ouverts)
    (hd : ∀ w, g.appareil? w = some d → ∀ cible, ¬ g.abonnements.Holds w cible) :
    (g.deconnecterAppareil d).Coupes (d :: revoques) := by
  have hr := deconnecterAppareil_reste g d
  have hold := h.reste hr
  have hg' := hg.deconnecterAppareil d
  have ho' := ho.reste hr
  constructor
  · intro w d' hd' hw
    rcases List.mem_cons.mp hd' with rfl | hd'
    · rw [← Bool.not_eq_true]
      intro hopen
      obtain ⟨t, ht⟩ := Option.isSome_iff_exists.mp (ho' w hopen)
      have htd : t.deviceId = d' := Option.some.inj ((hg'.appareil ht).symm.trans hw)
      have hheld := hg'.connecte w t ht hopen
      rw [htd] at hheld
      exact deconnecterAppareil_not_holds g d' w hheld
    · exact hold.fermes w d' hd' hw
  · intro w d' hd' hw cible hcible
    rcases List.mem_cons.mp hd' with rfl | hd'
    · rw [hr.appareil] at hw
      exact hd w hw cible (hr.abonnements w cible hcible)
    · exact hold.sansAbonnement w d' hd' hw cible hcible

/-! ## What a step sends -/

/-- What went out went to open sockets, and nothing was relayed but from this device. -/
def Emis (expediteur : Option Uuid) (g g' : Gateway) : Prop :=
  ∃ es, g'.envois = es ++ g.envois ∧
    ∀ x ∈ es, g.isOpen x.1 = true ∧ ∀ d, x.2.expediteur? = some d → expediteur = some d

variable {expediteur : Option Uuid} {P : Envoi → Prop}

theorem nouveaux_eq {es : List (Socket × Envoi)} (h : g'.envois = es ++ g.envois) :
    nouveaux g g' = es := by
  unfold nouveaux
  rw [h, List.length_append, Nat.add_sub_cancel, List.take_left]

theorem Emis.of_envois (h : g'.envois = g.envois) : Emis expediteur g g' := ⟨[], h, by simp⟩

theorem Emis.after (hopen : ∀ w, g'.isOpen w = true → g.isOpen w = true)
    (henvois : g'.envois = g.envois) (h : Emis expediteur g' g'') : Emis expediteur g g'' := by
  obtain ⟨es, hes, hP⟩ := h
  exact ⟨es, hes.trans (congrArg (es ++ ·) henvois), fun x hx => ⟨hopen x.1 (hP x hx).1, (hP x hx).2⟩⟩

theorem SentOnly.emis (h : SentOnly P g g')
    (hP : ∀ e, P e → ∀ d, e.expediteur? = some d → expediteur = some d) : Emis expediteur g g' := by
  obtain ⟨es, hes, rfl⟩ := h
  exact ⟨es, rfl, fun x hx => ⟨(hes x hx).1, hP x.2 (hes x hx).2⟩⟩

theorem send_emis (g : Gateway) (sockets : List Socket) {e : Envoi} (he : e.expediteur? = expediteur) :
    Emis expediteur g (g.send sockets e) := by
  refine (sentOnly_send (P := (· = e)) g sockets rfl).emis ?_
  rintro e' rfl d hd
  exact he.symm.trans hd

theorem diffuserPresence_emis (g : Gateway) (d : Uuid) (etat : Etat) :
    Emis none g (g.diffuserPresence d etat) := by
  rw [diffuserPresence_eq_send]
  exact send_emis g _ rfl

theorem masquer_emis (g : Gateway) (d : Uuid) : Emis none g (g.masquer d) := by
  unfold masquer
  split
  · exact Emis.after (fun _ => id) rfl (diffuserPresence_emis _ d .offline)
  · exact Emis.of_envois rfl

theorem declarerVisibilite_emis (g : Gateway) (d : Uuid) (visible : Bool) :
    Emis none g (g.declarerVisibilite d visible) := by
  unfold declarerVisibilite
  split
  · exact Emis.of_envois rfl
  · split
    · exact Emis.after (fun _ => id) rfl (diffuserPresence_emis _ d .online)
    · exact Emis.after (fun _ => id) rfl (diffuserPresence_emis _ d .offline)

theorem detach_emis (g : Gateway) (d : Uuid) (w : Socket) : Emis none g (g.detach d w) := by
  have hs := desabonner_restreint { g with titulaires := g.titulaires.erase w } w
  unfold detach
  dsimp only
  split
  · exact Emis.of_envois hs.envois
  · split
    · exact Emis.of_envois hs.envois
    · exact Emis.after (fun w hw => hs.reste.isOpen w hw) hs.envois (masquer_emis _ d)

theorem deconnecterAppareil_emis (g : Gateway) (d : Uuid) :
    Emis none g (g.deconnecterAppareil d) := by
  unfold deconnecterAppareil
  split
  · exact Emis.of_envois rfl
  · rename_i sockets _
    have hclosed := foldl_closeSocket_closedOnly sockets g
    exact Emis.after (fun w hw => hclosed.isOpen w hw) hclosed.envois (masquer_emis _ d)

theorem abonnerPresence_emis (g : Gateway) (w : Socket) (autorises : List Uuid) :
    Emis none g (g.abonnerPresence w autorises) := by
  by_cases hcontains : g.titulaires.containsKey w = true
  · obtain ⟨g2, henvois, hopen, -, heq⟩ := abonnerPresence_eq_send hcontains autorises
    rw [heq]
    exact Emis.after (fun v hv => by rw [← hopen]; exact hv) henvois (send_emis g2 [w] rfl)
  · rw [abonnerPresence_of_not hcontains]
    exact Emis.of_envois rfl

theorem envoyerA_of_not_joignable (h : g.joignable d = false) (e : Envoi) :
    (g.envoyerA d e).2 = g := by
  have hnobody : ((g.byDevice.get? d).getD []).filter g.isOpen = [] := by
    rw [List.filter_eq_nil_iff]
    exact List.any_eq_false.mp h
  rw [envoyerA_eq_send]
  unfold send
  rw [hnobody]
  rfl

theorem foldl_envoyerA_of_not_joignable {cibles : List Uuid}
    (h : ∀ cible ∈ cibles, g.joignable cible = false) (e : Envoi) :
    cibles.foldl (fun g cible => (g.envoyerA cible e).2) g = g := by
  induction cibles with
  | nil => rfl
  | cons cible cibles ih =>
    rw [List.foldl_cons, envoyerA_of_not_joignable (h cible List.mem_cons_self)]
    exact ih fun cible' hcible => h cible' (List.mem_cons_of_mem _ hcible)

/-- Nothing is relayed when no device is reached. -/
theorem foldl_envoyerA_emis (g : Gateway) (cibles : List Uuid) (e : Envoi) :
    Emis (if cibles.any g.joignable = true then e.expediteur? else none) g
      (cibles.foldl (fun g cible => (g.envoyerA cible e).2) g) := by
  by_cases hany : cibles.any g.joignable = true
  · rw [if_pos hany]
    refine (sentOnly_foldl (P := (· = e)) (fun g cible => sentOnly_envoyerA g cible rfl) cibles g).emis ?_
    rintro e' rfl d hd
    exact hd
  · rw [Bool.not_eq_true, List.any_eq_false] at hany
    rw [foldl_envoyerA_of_not_joignable fun cible hcible => by simpa using hany cible hcible]
    exact Emis.of_envois rfl

theorem relayerEphemere_emis (g : Gateway) (d : Uuid) (stop : Bool) (cibles : Devices)
    (conversationId : String) :
    Emis (if (cibles.firsts 50).any g.joignable = true then some d else none) g
      (g.relayerEphemere d stop cibles (some conversationId)) := by
  cases cibles with
  | none => exact Emis.of_envois rfl
  | some cibles => exact foldl_envoyerA_emis g _ (.typing stop conversationId d)

end Gateway

open Gateway

namespace Runtime

variable {s t : Runtime} {i : Input} {w : Socket}

theorem relayerAppel_emis (s : Runtime) (w : Socket) (kind callId : Option String)
    (payload : Option Payload) (cibles : Devices) :
    Emis (s.relaie? (.message w (.callSignal kind callId payload cibles))) s.gateway
      (s.relayerAppel w kind callId payload cibles).gateway := by
  unfold relayerAppel
  split
  · rename_i titulaire kind callId payload ht
    dsimp only
    split
    · exact Emis.of_envois rfl
    · rename_i hvalid
      split
      · exact Emis.of_envois rfl
      · rename_i hinvite
        have hemis := foldl_envoyerA_emis s.gateway (cibles.firsts 10)
          (.callSignal titulaire.deviceId callId kind payload)
        simp only [relaie?, ht]
        have hguard : (kind ∈ KINDS_APPEL ∧ kind ≠ "invite" ∧ payload.length ≤ MAX_PAYLOAD_APPEL ∧
            (cibles.firsts 10).any s.gateway.joignable = true) ↔
            (cibles.firsts 10).any s.gateway.joignable = true := by
          simp only [not_or, not_not, Nat.not_lt] at hvalid
          exact ⟨fun h => h.2.2.2, fun h => ⟨hvalid.1, hinvite, hvalid.2.1, h⟩⟩
        rw [if_congr hguard rfl rfl]
        exact hemis
  · exact Emis.of_envois rfl

theorem traiterMessage_emis {c : Connexion} (hc : s.gateway.connexions w = some c) (m : Message) :
    Emis (s.relaie? (.message w m)) s.gateway
      (s.traiterMessage w c.titulaire.deviceId m).gateway := by
  have happareil : s.gateway.appareil? w = some c.titulaire.deviceId := by
    unfold appareil? titulaire?
    rw [hc]
    rfl
  cases m with
  | ping => exact send_emis _ _ rfl
  | typing stop cibles conversationId =>
    cases conversationId with
    | none =>
      cases cibles <;> exact Emis.of_envois rfl
    | some conversationId =>
      simp only [relaie?, happareil]
      exact relayerEphemere_emis _ _ stop cibles conversationId
  | presenceMode visible => exact declarerVisibilite_emis _ _ visible
  | presenceSubscribe devices =>
    unfold traiterMessage
    dsimp only
    split
    · exact Emis.of_envois rfl
    · exact Emis.of_envois rfl
  | callSignal kind callId payload cibles => exact relayerAppel_emis s w kind callId payload cibles
  | autre => exact Emis.of_envois rfl

/-- A handshake apart, a step sends to sockets that were open. -/
theorem step_emis (h : step i s = some t) (hconnexion : ∀ w claims, i ≠ .connexion w claims) :
    Emis (s.relaie? i) s.gateway t.gateway := by
  cases i with
  | connexion w claims => exact absurd rfl (hconnexion w claims)
  | closing w =>
    simp only [step] at h
    split at h
    · obtain rfl := Option.some.inj h
      exact Emis.of_envois (closeSocket_closedOnly s.gateway w).envois
    · cases h
  | close w =>
    obtain ⟨c, hc, h⟩ := Option.bind_eq_some_iff.mp h
    split at h
    · cases h
    · obtain rfl := Option.some.inj h
      have hclosed : ClosedOnly s.gateway (s.gateway.setReadyState w .closed) :=
        setReadyState_closedOnly s.gateway w (by decide)
      exact Emis.after hclosed.isOpen hclosed.envois (detach_emis _ _ w)
  | error w =>
    obtain ⟨c, hc, h⟩ := Option.bind_eq_some_iff.mp h
    split at h
    · cases h
    · obtain rfl := Option.some.inj h
      have hclosed := closeSocket_closedOnly s.gateway w
      exact Emis.after hclosed.isOpen hclosed.envois (detach_emis _ _ w)
  | message w m =>
    obtain ⟨c, hc, -, rfl⟩ := step_message h
    exact traiterMessage_emis hc m
  | autorise i autorises =>
    obtain ⟨a, ha, h⟩ := Option.bind_eq_some_iff.mp h
    split at h
    · obtain rfl := Option.some.inj h
      exact abonnerPresence_emis _ a.socket autorises
    · cases h
  | verifie i bloque =>
    obtain ⟨v, hv, h⟩ := Option.bind_eq_some_iff.mp h
    obtain ⟨cible, hcible, h⟩ := Option.bind_eq_some_iff.mp h
    obtain rfl := Option.some.inj h
    cases bloque with
    | true => exact Emis.of_envois rfl
    | false =>
      have hemis := foldl_envoyerA_emis s.gateway [cible] v.charge
      simp only [relaie?, hv, Option.bind_eq_bind, Option.bind_some, hcible]
      simp only [List.any_cons, List.any_nil, Bool.or_false] at hemis
      exact hemis
  | revoquerPresence userA userB a b =>
    obtain rfl := Option.some.inj h
    exact Emis.of_envois (revoquerPresence_restreint s.gateway userA userB a b).envois
  | deconnecterAppareil d =>
    obtain rfl := Option.some.inj h
    exact deconnecterAppareil_emis _ d
  | notifyPending d =>
    obtain rfl := Option.some.inj h
    unfold notifyPending
    dsimp only
    rw [envoyerA_eq_send]
    exact send_emis _ _ rfl

end Runtime

/-! ## Every order of requests and events -/

namespace Revocations

variable {s t : Revocations}

/-- What holds between two inputs: the sockets of the devices that were revoked are cut. -/
structure Tenu (s : Revocations) : Prop where
  indexes : s.gateway.Indexes
  ouverts : s.gateway.Ouverts
  coupes : s.gateway.Coupes s.revoques

theorem tenu_start (devices : List Device) : (start devices).Tenu where
  indexes := indexes_empty
  ouverts := by
    intro w hw
    cases hw
  coupes := ⟨fun w d _ hw => (by cases hw), fun w d _ hw => by cases hw⟩

theorem step_realtime {i : Input} (h : step (.realtime i) s = some t) :
    ∃ r, Runtime.step i s.runtime = some r ∧ t = { s with runtime := r } := by
  obtain ⟨r, hr, rfl⟩ := Option.map_eq_some_iff.mp h
  exact ⟨r, hr, rfl⟩

theorem step_disconnect {i : Nat} (h : step (.disconnect i) s = some t) :
    ∃ r, s.requests[i]? = some r ∧ t.gateway = s.gateway.deconnecterAppareil r.deviceId ∧
      t.revoques = r.deviceId :: s.revoques := by
  obtain ⟨r, hr, h⟩ := Option.bind_eq_some_iff.mp h
  split at h
  · obtain rfl := Option.some.inj h
    exact ⟨r, hr, rfl, rfl⟩
  · cases h

/-- The other statements of a request do not touch the gateway. -/
theorem step_database {i : RevocationInput} (h : step i s = some t)
    (hrealtime : ∀ r, i ≠ .realtime r) (hdisconnect : ∀ n, i ≠ .disconnect n) :
    t.gateway = s.gateway ∧ t.revoques = s.revoques := by
  cases i with
  | realtime r => exact absurd rfl (hrealtime r)
  | find userId deviceId =>
    obtain rfl := Option.some.inj h
    unfold find
    split
    · exact ⟨rfl, rfl⟩
    · split
      · exact ⟨rfl, rfl⟩
      · exact ⟨rfl, rfl⟩
  | transaction n =>
    obtain ⟨r, hr, h⟩ := Option.bind_eq_some_iff.mp h
    split at h
    · obtain rfl := Option.some.inj h
      exact ⟨rfl, rfl⟩
    · cases h
  | disconnect n => exact absurd rfl (hdisconnect n)

theorem Tenu.realtime (h : s.Tenu) {i : Input} (hC : SansSuite (.realtime i) s)
    (ht : step (.realtime i) s = some t) : t.Tenu := by
  obtain ⟨r, hr, rfl⟩ := step_realtime ht
  have hm := Runtime.step_move hr
  have hg := h.indexes.move hm
  rcases reste_move hm with ⟨w, claims, rfl, -, hconnexion⟩ | ⟨n, w, autorises, rfl, -⟩ | hreste
  · refine ⟨hg, ?_, ?_⟩
    · dsimp only [gateway]
      rw [hconnexion]
      exact h.ouverts.connexion w claims
    · dsimp only [gateway]
      rw [hconnexion]
      refine h.coupes.connexion w fun t ht hrevoque => ?_
      rw [ht] at hC
      exact (hC t.deviceId hrevoque).1 rfl
  · obtain ⟨a, ha, hr⟩ := Option.bind_eq_some_iff.mp hr
    split at hr
    · obtain rfl := Option.some.inj hr
      refine ⟨hg, h.ouverts.abonnerPresence h.indexes a.socket autorises,
        h.coupes.abonnerPresence h.indexes a.socket fun hsome t ht hrevoque => ?_⟩
      refine (hC t.deviceId hrevoque).2.2 ?_
      have htitulaire : s.runtime.gateway.titulaires.get? a.socket = some t := ht
      simp only [Runtime.abonne?, ha, Option.bind_eq_bind, Option.bind_some, if_neg hsome,
        htitulaire, Option.map_some]
    · cases hr
  · exact ⟨hg, h.ouverts.reste hreste, h.coupes.reste hreste⟩

theorem Tenu.disconnect (h : s.Tenu) {n : Nat} (hC : SansSuite (.disconnect n) s)
    (ht : step (.disconnect n) s = some t) : t.Tenu := by
  obtain ⟨r, hr, hgateway, hrevoques⟩ := step_disconnect ht
  refine ⟨?_, ?_, ?_⟩
  · rw [hgateway]
    exact h.indexes.deconnecterAppareil r.deviceId
  · rw [hgateway]
    exact h.ouverts.reste (deconnecterAppareil_reste _ r.deviceId)
  · rw [hgateway, hrevoques]
    refine h.coupes.deconnecterAppareil h.indexes h.ouverts fun w hw cible hcible => ?_
    obtain ⟨titulaire, htitulaire⟩ := Option.isSome_iff_exists.mp (h.indexes.abonnes w cible hcible)
    have hdevice : titulaire.deviceId = r.deviceId :=
      Option.some.inj ((h.indexes.appareil htitulaire).symm.trans hw)
    have hnone := hC r hr (w, titulaire) (LinkedMap.mem_entries_of_get? htitulaire) hdevice
    exact Index.not_holds_of_get?_none hnone hcible

theorem tenu_step (h : s.Tenu) {i : RevocationInput} (hC : SansSuite i s)
    (ht : step i s = some t) : t.Tenu := by
  cases i with
  | realtime i => exact h.realtime hC ht
  | disconnect n => exact h.disconnect hC ht
  | find userId deviceId =>
    obtain ⟨hgateway, hrevoques⟩ := step_database ht (by simp) (by simp)
    exact ⟨hgateway ▸ h.indexes, hgateway ▸ h.ouverts, hgateway ▸ hrevoques ▸ h.coupes⟩
  | transaction n =>
    obtain ⟨hgateway, hrevoques⟩ := step_database ht (by simp) (by simp)
    exact ⟨hgateway ▸ h.indexes, hgateway ▸ h.ouverts, hgateway ▸ hrevoques ▸ h.coupes⟩

/-- What goes to open sockets goes to none of the devices that were revoked. -/
theorem muet_of_emis {revoques : List Uuid} {g g' : Gateway} {expediteur : Option Uuid}
    (h : g.Coupes revoques) (happareil : ∀ w, g'.appareil? w = g.appareil? w)
    (hemis : Emis expediteur g g') (hexpediteur : ∀ d ∈ revoques, expediteur ≠ some d) :
    Muet revoques g g' := by
  obtain ⟨es, hes, hP⟩ := hemis
  intro x hx d hd
  rw [nouveaux_eq hes] at hx
  obtain ⟨hopen, hsender⟩ := hP x hx
  constructor
  · intro hdevice
    rw [happareil] at hdevice
    rw [h.fermes x.1 d hd hdevice] at hopen
    cases hopen
  · exact fun hsent => hexpediteur d hd (hsender d hsent)

theorem muet_refl (revoques : List Uuid) (g : Gateway) : Muet revoques g g := by
  intro x hx
  have hnone : nouveaux g g = [] := nouveaux_eq rfl
  rw [hnone] at hx
  cases hx

/-- A handshake is answered that the socket is ready. -/
theorem muet_connexion (revoques : List Uuid) (g : Gateway) (w : Socket)
    (claims : Option Titulaire) : Muet revoques g (g.connexion w claims) := by
  cases claims with
  | none => exact muet_refl revoques g
  | some titulaire =>
    obtain ⟨es, hes, heq⟩ := connexion_some g w titulaire
    intro x hx d _
    have henvois : (g.connexion w (some titulaire)).envois = es ++ g.envois := by rw [heq]
    rw [nouveaux_eq henvois] at hx
    rw [(hes x hx).2]
    exact ⟨fun _ => rfl, by simp [Envoi.expediteur?]⟩

theorem Tenu.muet (h : s.Tenu) {i : RevocationInput} (hC : SansSuite i s)
    (ht : step i s = some t) : Muet s.revoques s.gateway t.gateway := by
  cases i with
  | realtime i =>
    obtain ⟨r, hr, rfl⟩ := step_realtime ht
    by_cases hconnexion : ∃ w claims, i = .connexion w claims
    · obtain ⟨w, claims, rfl⟩ := hconnexion
      simp only [Runtime.step] at hr
      split at hr
      · cases hr
      · obtain rfl := Option.some.inj hr
        exact muet_connexion s.revoques s.gateway w claims
    · have hothers : ∀ w claims, i ≠ .connexion w claims := fun w claims hi =>
        hconnexion ⟨w, claims, hi⟩
      exact muet_of_emis h.coupes (fun w => congrArg _ (titulaire_move (Runtime.step_move hr) hothers w))
        (Runtime.step_emis hr hothers) fun d hd => (hC d hd).2.1
  | disconnect n =>
    obtain ⟨r, -, hgateway, -⟩ := step_disconnect ht
    rw [hgateway]
    exact muet_of_emis h.coupes (deconnecterAppareil_reste _ r.deviceId).appareil
      (deconnecterAppareil_emis _ r.deviceId) fun _ _ => by simp
  | find userId deviceId =>
    obtain ⟨hgateway, -⟩ := step_database ht (by simp) (by simp)
    rw [hgateway]
    exact muet_refl s.revoques s.gateway
  | transaction n =>
    obtain ⟨hgateway, -⟩ := step_database ht (by simp) (by simp)
    rw [hgateway]
    exact muet_refl s.revoques s.gateway

/-- What the step does leaves the sockets of the devices that were revoked without events,
without a voice and without subscriptions. -/
def Coupee (i : RevocationInput) (s : Revocations) : Prop :=
  Reaches step (fun t => Muet s.revoques s.gateway t.gateway ∧
    t.gateway.SansAbonnement t.revoques) i s

/-- In every run that keeps the condition a device that was revoked is cut off, whatever
its sockets. -/
theorem revocation_coupe (devices : List Device) (inputs : List RevocationInput)
    (hC : Always step SansSuite inputs (start devices)) :
    Always step Coupee inputs (start devices) := by
  refine always_of_invariant Tenu ?_ ?_ (tenu_start devices) hC
  · intro i s t hs hi ht
    exact tenu_step hs hi ht
  · intro i s hs hi t ht
    exact ⟨hs.muet hi ht, (tenu_step hs hi ht).coupes.sansAbonnement⟩

/-- A device is connected and subscribed to nothing when it is revoked. -/
def revocationSimple : List RevocationInput :=
  [.realtime (.connexion 1 (some ⟨10, 100⟩)), .realtime (.connexion 2 (some ⟨20, 200⟩)),
    .find 100 10, .transaction 0, .disconnect 0, .realtime (.message 1 .ping),
    .realtime (.notifyPending 10), .realtime (.close 1)]

theorem revocationSimple_coupe :
    Always step Coupee revocationSimple (start [⟨10, 100, true⟩, ⟨20, 200, true⟩]) ∧
      (run step revocationSimple (start [⟨10, 100, true⟩, ⟨20, 200, true⟩])).map (·.revoques) =
        some [10] :=
  ⟨revocation_coupe _ _ (by decide), by decide⟩

/-! ## A token from before -/

/-- The device connects again with its token after it was revoked. -/
def ancienJeton : List RevocationInput :=
  [.find 100 10, .transaction 0, .disconnect 0, .realtime (.connexion 1 (some ⟨10, 100⟩)),
    .realtime (.notifyPending 10)]

/-- It is told of its messages as before. -/
theorem ancienJeton_averti : ¬ Always step Coupee ancienJeton (start [⟨10, 100, true⟩]) := by
  intro h
  have hmuet : Always step (fun i s => Reaches step (fun t => Muet s.revoques s.gateway t.gateway) i s)
      ancienJeton (start [⟨10, 100, true⟩]) :=
    always_of_invariant (fun _ => True) (fun _ _ _ _ _ _ => trivial)
      (fun _ _ _ hcoupee t ht => (hcoupee t ht).1) trivial h
  exact absurd hmuet (by decide)

end Revocations

end ZiaCrypte.Realtime

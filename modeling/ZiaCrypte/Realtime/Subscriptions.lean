import Mathlib.Data.List.Perm.Basic
import ZiaCrypte.Realtime.Revocation

/-!
# Which subscription is in force

A subscription takes the place of the one before it when its check is done, not when its
message came. Here each message has a number, and the answers to the checks are kept.
-/
namespace ZiaCrypte.Realtime

open ZiaCrypte.Lib ZiaCrypte.Server

/-- What a check allowed, and who was online then. -/
structure Reponse where
  numero : Nat
  socket : Socket
  autorises : List Uuid
  enLigne : Uuid → Bool

/-- The gateway, with the number of the message of each subscription under way, the number of
the last message of each socket, and the answers, the latest first. -/
structure Demandes where
  runtime : Runtime
  numeros : List Nat
  total : Nat
  derniers : Socket → Option Nat
  reponses : List Reponse

def Envoi.instantane : Envoi → Option (List Uuid)
  | .snapshot online => some online
  | _ => none

/-- The last snapshot the socket was sent. -/
def Gateway.dernierInstantane (g : Gateway) (w : Socket) : Option (List Uuid) :=
  g.envois.findSome? fun x => if x.1 = w then x.2.instantane else none

namespace Demandes

def start : Demandes := ⟨.start, [], 0, fun _ => none, []⟩

/-- A subscription that begins takes the next number, and one that ends leaves its answer. -/
def noter (i : Input) (r : Runtime) (s : Demandes) : Demandes :=
  match i with
  | .message socket (.presenceSubscribe _) =>
      if (s.runtime.gateway.titulaires.get? socket).isSome then
        { s with
          runtime := r
          numeros := s.numeros ++ [s.total]
          total := s.total + 1
          derniers := Function.update s.derniers socket (some s.total) }
      else { s with runtime := r }
  | .autorise i autorises =>
      match s.runtime.abonnements[i]?, s.numeros[i]? with
      | some a, some n =>
          { s with
            runtime := r
            numeros := s.numeros.eraseIdx i
            reponses :=
              ⟨n, a.socket, autorises, s.runtime.gateway.estEnLigne⟩ :: s.reponses }
      | _, _ => { s with runtime := r }
  | _ => { s with runtime := r }

def step (i : Input) (s : Demandes) : Option Demandes :=
  (Runtime.step i s.runtime).map fun r => s.noter i r

/-- The answer that came last. -/
def derniereReponse (s : Demandes) (w : Socket) : Option Reponse :=
  s.reponses.find? (·.socket == w)

/-- The answer to the last message. -/
def EstVoulue (s : Demandes) (w : Socket) (r : Reponse) : Prop :=
  r ∈ s.reponses ∧ r.socket = w ∧ s.derniers w = some r.numero

/-- The socket is subscribed to these devices, and the snapshot it was sent last says which of
them were online. -/
def EnVigueur (s : Demandes) (w : Socket) (r : Reponse) : Prop :=
  (∀ d, s.runtime.gateway.abonnements.Holds w d ↔ d ∈ r.autorises) ∧
    ∃ q, s.derniereReponse w = some q ∧
      ∃ online, s.runtime.gateway.dernierInstantane w = some online ∧
        ∀ d, d ∈ online ↔ d ∈ r.autorises ∧ q.enLigne d = true

/-- All the subscriptions of the socket are handled. -/
def Traitees (s : Demandes) (w : Socket) : Prop := ∀ a ∈ s.runtime.abonnements, a.socket ≠ w

/-- The answer that came last is that to the last message, or it is about the same devices. -/
def DerniereConforme (s : Demandes) (w : Socket) (r : Reponse) : Prop :=
  ∀ q, s.derniereReponse w = some q → ∀ d, d ∈ q.autorises ↔ d ∈ r.autorises

/-- No block takes subscriptions from the account of the socket. -/
def SansBlocage (w : Socket) (i : Input) (s : Demandes) : Prop :=
  match i with
  | .revoquerPresence userA userB _ _ =>
      ∀ x ∈ s.runtime.gateway.titulaires.entries, x.1 = w →
        x.2.userId ≠ userA ∧ x.2.userId ≠ userB
  | _ => True

instance decidableSansBlocage (w : Socket) (i : Input) (s : Demandes) :
    Decidable (SansBlocage w i s) :=
  match i with
  | .revoquerPresence userA userB _ _ =>
      inferInstanceAs (Decidable (∀ x ∈ s.runtime.gateway.titulaires.entries, x.1 = w →
        x.2.userId ≠ userA ∧ x.2.userId ≠ userB))
  | .connexion _ _ | .closing _ | .close _ | .error _ | .message _ _ | .autorise _ _
  | .verifie _ _ | .deconnecterAppareil _ | .notifyPending _ => isTrue trivial

end Demandes

/-! ## Steps that leave a socket alone -/

namespace Gateway

variable {g g' g'' : Gateway} {w v : Socket} {d : Uuid}

/-- What the open socket is subscribed to and was last told is the same. -/
structure Intacte (w : Socket) (g g' : Gateway) : Prop where
  isOpen : g'.isOpen w = true → g.isOpen w = true
  abonnements : g'.isOpen w = true → ∀ d, g'.abonnements.Holds w d ↔ g.abonnements.Holds w d
  instantane : g'.dernierInstantane w = g.dernierInstantane w

theorem Intacte.trans (h : Intacte w g g') (h' : Intacte w g' g'') : Intacte w g g'' where
  isOpen hw := h.isOpen (h'.isOpen hw)
  abonnements hw d := (h'.abonnements hw d).trans (h.abonnements (h'.isOpen hw) d)
  instantane := h'.instantane.trans h.instantane

theorem dernierInstantane_send {e : Envoi} (he : e.instantane = none) (g : Gateway)
    (sockets : List Socket) (w : Socket) :
    (g.send sockets e).dernierInstantane w = g.dernierInstantane w := by
  refine (findSome?_send Envoi.instantane g sockets e w).trans ?_
  rw [he, Option.none_or, ite_self]
  rfl

theorem SameMaps.intacte (h : SameMaps g g')
    (hinstantane : g'.dernierInstantane w = g.dernierInstantane w) : Intacte w g g' := by
  refine ⟨fun hw => ?_, fun _ d => ?_, hinstantane⟩
  · unfold isOpen at hw ⊢
    rw [h.connexions] at hw
    exact hw
  · rw [h.abonnements]

theorem SentOnly.intacte (h : SentOnly Envoi.SansPresence g g') : Intacte w g g' := by
  refine h.sameMaps.intacte ?_
  obtain ⟨es, hes, rfl⟩ := h
  refine findSome?_sent Envoi.instantane es (fun x hx _ => ?_) g.envois
  have hx := (hes x hx).2
  cases hxe : x.2 with
  | snapshot online =>
    rw [hxe] at hx
    exact hx.elim
  | _ => rfl

theorem ClosedOnly.intacte (h : ClosedOnly g g') : Intacte w g g' := by
  refine ⟨h.isOpen w, fun _ d => ?_, ?_⟩
  · rw [h.abonnements]
  · unfold dernierInstantane
    rw [h.envois]

theorem dernierInstantane_diffuserPresence (g : Gateway) (d : Uuid) (etat : Etat) (w : Socket) :
    (g.diffuserPresence d etat).dernierInstantane w = g.dernierInstantane w := by
  rw [diffuserPresence_eq_send]
  exact dernierInstantane_send rfl g _ w

theorem dernierInstantane_masquer (g : Gateway) (d : Uuid) (w : Socket) :
    (g.masquer d).dernierInstantane w = g.dernierInstantane w := by
  unfold masquer
  split
  · exact dernierInstantane_diffuserPresence _ d .offline w
  · rfl

theorem declarerVisibilite_intacte (g : Gateway) (d : Uuid) (visible : Bool) :
    Intacte w g (g.declarerVisibilite d visible) := by
  refine (declarerVisibilite_sameMaps g d visible).intacte ?_
  unfold declarerVisibilite
  split
  · rfl
  · split
    · exact dernierInstantane_diffuserPresence _ d .online w
    · exact dernierInstantane_diffuserPresence _ d .offline w

theorem dernierInstantane_detach (g : Gateway) (d : Uuid) (v w : Socket) :
    (g.detach d v).dernierInstantane w = g.dernierInstantane w := by
  have henvois : (({ g with titulaires := g.titulaires.erase v } : Gateway).desabonner v).envois =
      g.envois := (desabonner_restreint _ v).envois
  unfold detach
  dsimp only
  split
  · unfold dernierInstantane
    rw [henvois]
  · split
    · unfold dernierInstantane
      dsimp only
      rw [henvois]
    · rw [dernierInstantane_masquer]
      unfold dernierInstantane
      dsimp only
      rw [henvois]

/-- Another connection goes. -/
theorem detach_intacte (hg : g.Souscriptions) (d : Uuid) (hv : g.isOpen v = false) :
    Intacte w g (g.detach d v) := by
  have hreste := detach_reste hv d
  refine ⟨hreste.isOpen w, fun hw d' => ?_, dernierInstantane_detach g d v w⟩
  have hne : w ≠ v := by
    rintro rfl
    rw [hreste.isOpen w hw] at hv
    cases hv
  have hsub : ({ g with titulaires := g.titulaires.erase v } : Gateway).Souscriptions :=
    ⟨hg.inverse, hg.abonnements_noEmpty, hg.observateurs_noEmpty⟩
  rw [(detach_sameMaps g d v).abonnements, (reabonne_desabonner hsub v).abonnements w d',
    if_neg hne]

theorem deconnecterAppareil_intacte (g : Gateway) (d : Uuid) :
    Intacte w g (g.deconnecterAppareil d) := by
  unfold deconnecterAppareil
  cases g.byDevice.get? d with
  | none => exact (SameMaps.refl g).intacte rfl
  | some sockets =>
    have hclosed : Intacte w g (sockets.foldl closeSocket g) :=
      (foldl_closeSocket_closedOnly sockets g).intacte
    refine hclosed.trans ?_
    have hmasque := masquer_sameMaps { sockets.foldl closeSocket g with
      byDevice := (sockets.foldl closeSocket g).byDevice.delete d } d
    refine ⟨fun hw => ?_, fun _ d' => ?_, dernierInstantane_masquer _ d w⟩
    · unfold isOpen at hw ⊢
      rw [hmasque.connexions] at hw
      exact hw
    · rw [hmasque.abonnements]

/-- The handshake of another socket. -/
theorem connexion_intacte (hw : (g.connexions w).isSome) (hv : g.connexions v = none)
    (claims : Option Titulaire) : Intacte w g (g.connexion v claims) := by
  have hne : w ≠ v := by
    rintro rfl
    rw [hv] at hw
    cases hw
  cases claims with
  | none => exact (SameMaps.refl g).intacte rfl
  | some t =>
    have hmaps := (connexion_some g v t).sameMaps
    refine ⟨fun hopen => ?_, fun _ d => ?_, ?_⟩
    · unfold isOpen at hopen ⊢
      rw [hmaps.connexions] at hopen
      dsimp only at hopen
      rwa [Function.update_of_ne hne] at hopen
    · rw [hmaps.abonnements]
    · exact dernierInstantane_send rfl _ [v] w

/-- The subscription of another socket. -/
theorem abonnerPresence_intacte (hg : g.Souscriptions) (hne : w ≠ v) (autorises : List Uuid) :
    Intacte w g (g.abonnerPresence v autorises) := by
  by_cases hcontains : g.titulaires.containsKey v = true
  · have hr := reabonne_abonnerPresence hg hcontains autorises
    refine ⟨fun hw => ?_, fun _ d => ?_, ?_⟩
    · unfold isOpen at hw ⊢
      rw [hr.connexions] at hw
      exact hw
    · rw [hr.abonnements, if_neg hne]
    · obtain ⟨g2, henvois, -, -, heq⟩ := abonnerPresence_eq_send hcontains autorises
      rw [heq]
      refine (findSome?_send Envoi.instantane g2 [v] _ w).trans ?_
      rw [if_neg fun hand => hne (List.mem_singleton.mp hand.1), henvois]
      rfl
  · rw [abonnerPresence_of_not hcontains]
    exact (SameMaps.refl g).intacte rfl

/-- What the answer to a check does to its own socket. -/
theorem abonnerPresence_enVigueur (hg : g.Souscriptions) (ho : g.Ouverts) (hw : g.isOpen w = true)
    (autorises : List Uuid) :
    (∀ d, (g.abonnerPresence w autorises).abonnements.Holds w d ↔ d ∈ autorises) ∧
      (g.abonnerPresence w autorises).dernierInstantane w =
        some (autorises.filter g.estEnLigne) := by
  have hcontains : g.titulaires.containsKey w = true := ho w hw
  refine ⟨fun d => ?_, ?_⟩
  · rw [(reabonne_abonnerPresence hg hcontains autorises).abonnements, if_pos rfl]
  · obtain ⟨g2, -, hopen, hline, heq⟩ := abonnerPresence_eq_send hcontains autorises
    rw [heq]
    refine (findSome?_send Envoi.instantane g2 [w] _ w).trans ?_
    rw [if_pos ⟨List.mem_singleton_self w, by rw [hopen]; exact hw⟩, hline]
    rfl

/-- A turn of the loop about another socket, or about another account. -/
theorem revoquerSocket_autre {userA userB : Uuid} {entree : Socket × Titulaire}
    (hautre : entree.1 = w → entree.2.userId ≠ userA ∧ entree.2.userId ≠ userB)
    (g : Gateway) (a b : List Uuid) (d : Uuid) :
    (g.revoquerSocket userA userB a b entree).abonnements.Holds w d ↔
      g.abonnements.Holds w d := by
  obtain ⟨v, titulaire⟩ := entree
  by_cases hv : v = w
  · obtain ⟨hA, hB⟩ := hautre hv
    rw [revoquerSocket_eq_self (.inl (by rw [if_neg hA, if_neg hB]))]
  · have hne : ¬ w = v := fun h => hv h.symm
    unfold revoquerSocket
    dsimp only
    split
    · rfl
    · split
      · rfl
      · dsimp only
        split
        · rw [Index.holds_delete]
          exact and_iff_left hne
        · rw [Index.holds_set, if_neg hne]

theorem foldl_revoquerSocket_autre {userA userB : Uuid} (a b : List Uuid)
    {entrees : List (Socket × Titulaire)}
    (hautre : ∀ e ∈ entrees, e.1 = w → e.2.userId ≠ userA ∧ e.2.userId ≠ userB)
    (g : Gateway) (d : Uuid) :
    (entrees.foldl (revoquerSocket userA userB a b) g).abonnements.Holds w d ↔
      g.abonnements.Holds w d := by
  induction entrees generalizing g with
  | nil => rfl
  | cons entree entrees ih =>
    rw [List.foldl_cons, ih fun e he => hautre e (List.mem_cons_of_mem _ he)]
    exact revoquerSocket_autre (hautre entree List.mem_cons_self) g a b d

/-- A block between two other accounts. -/
theorem revoquerPresence_intacte {userA userB : Uuid}
    (hautre : ∀ x ∈ g.titulaires.entries, x.1 = w → x.2.userId ≠ userA ∧ x.2.userId ≠ userB)
    (a b : List Uuid) : Intacte w g (g.revoquerPresence userA userB a b) := by
  have hr := revoquerPresence_restreint g userA userB a b
  refine ⟨fun hw => ?_, fun _ d => ?_, ?_⟩
  · unfold isOpen at hw ⊢
    rw [hr.connexions] at hw
    exact hw
  · exact foldl_revoquerSocket_autre a b hautre g d
  · unfold dernierInstantane
    rw [hr.envois]

end Gateway

open Gateway

namespace Runtime

variable {s t : Runtime} {w : Socket} {i : Input}

/-- Only the answer to a check of its own changes what a socket is subscribed to. -/
theorem step_intacte (hg : s.gateway.Indexes) (h : step i s = some t)
    (hblocage : ∀ userA userB a b, i = .revoquerPresence userA userB a b →
      ∀ x ∈ s.gateway.titulaires.entries, x.1 = w → x.2.userId ≠ userA ∧ x.2.userId ≠ userB)
    (hw : (s.gateway.connexions w).isSome)
    (hautre : ∀ n autorises a, i = .autorise n autorises → s.abonnements[n]? = some a →
      w ≠ a.socket) : s.gateway.Intacte w t.gateway := by
  cases i with
  | connexion v claims =>
    simp only [step] at h
    split at h
    · cases h
    · rename_i hfresh
      obtain rfl := Option.some.inj h
      exact connexion_intacte hw (by simpa using hfresh) claims
  | closing v =>
    simp only [step] at h
    split at h
    · obtain rfl := Option.some.inj h
      exact (closeSocket_closedOnly s.gateway v).intacte
    · cases h
  | close v =>
    obtain ⟨c, hc, h⟩ := Option.bind_eq_some_iff.mp h
    split at h
    · cases h
    · obtain rfl := Option.some.inj h
      have hclosed := setReadyState_closedOnly s.gateway v (show ReadyState.closed ≠ .opened by decide)
      refine hclosed.intacte.trans (detach_intacte (hg.closedOnly hclosed).souscriptions _ ?_)
      rw [← Bool.not_eq_true, isOpen_setReadyState (by decide)]
      exact fun hand => hand.2 rfl
  | error v =>
    obtain ⟨c, hc, h⟩ := Option.bind_eq_some_iff.mp h
    split at h
    · cases h
    · obtain rfl := Option.some.inj h
      have hclosed := closeSocket_closedOnly s.gateway v
      refine hclosed.intacte.trans (detach_intacte (hg.closedOnly hclosed).souscriptions _ ?_)
      rw [← Bool.not_eq_true, isOpen_closeSocket]
      exact fun hand => hand.2 rfl
  | message v m =>
    obtain ⟨c, hc, hopen, rfl⟩ := step_message h
    cases m with
    | ping => exact (sentOnly_send _ _ trivial).intacte
    | typing stop cibles conversationId =>
      exact (sentOnly_relayerEphemere _ _ _ _ _ fun _ => trivial).intacte
    | presenceMode visible => exact declarerVisibilite_intacte _ _ visible
    | presenceSubscribe devices =>
      unfold traiterMessage
      dsimp only
      split
      · exact (SameMaps.refl _).intacte rfl
      · exact (SameMaps.refl _).intacte rfl
    | callSignal kind callId payload cibles =>
      exact (relayerAppel_sentOnly s v _ _ _ _).intacte
    | autre => exact (SameMaps.refl _).intacte rfl
  | autorise n autorises =>
    obtain ⟨a, ha, h⟩ := Option.bind_eq_some_iff.mp h
    split at h
    · obtain rfl := Option.some.inj h
      exact abonnerPresence_intacte hg.souscriptions (hautre n autorises a rfl ha) autorises
    · cases h
  | verifie n bloque =>
    obtain ⟨v, hv, h⟩ := Option.bind_eq_some_iff.mp h
    obtain ⟨cible, hcible, h⟩ := Option.bind_eq_some_iff.mp h
    obtain rfl := Option.some.inj h
    cases bloque with
    | true => exact (SameMaps.refl _).intacte rfl
    | false => exact (sentOnly_envoyerA _ _ trivial).intacte
  | revoquerPresence userA userB a b =>
    obtain rfl := Option.some.inj h
    exact revoquerPresence_intacte (hblocage userA userB a b rfl) a b
  | deconnecterAppareil d =>
    obtain rfl := Option.some.inj h
    exact deconnecterAppareil_intacte s.gateway d
  | notifyPending d =>
    obtain rfl := Option.some.inj h
    exact (sentOnly_envoyerA _ _ trivial).intacte

theorem ouverts_step (hg : s.gateway.Indexes) (ho : s.gateway.Ouverts) (h : step i s = some t) :
    t.gateway.Ouverts := by
  rcases reste_move (step_move h) with ⟨w, claims, rfl, -, heq⟩ | ⟨n, w, autorises, rfl, heq⟩ | hreste
  · rw [heq]
    exact ho.connexion w claims
  · rw [heq]
    exact ho.abonnerPresence hg w autorises
  · exact ho.reste hreste

/-- A socket that was accepted is not forgotten. -/
theorem acceptee_step (h : step i s = some t) (hw : (s.gateway.titulaire? w).isSome) :
    (t.gateway.titulaire? w).isSome := by
  rcases reste_move (step_move h) with ⟨v, claims, rfl, -, heq⟩ | ⟨n, v, autorises, rfl, heq⟩ | hreste
  · rw [heq]
    cases claims with
    | none => exact hw
    | some titulaire =>
      rw [connexion_titulaire]
      split
      · rfl
      · exact hw
  · rw [heq]
    unfold titulaire?
    rw [abonnerPresence_connexions]
    exact hw
  · rwa [hreste.titulaire]

/-- What a step does to the subscriptions under way. -/
theorem step_abonnements (h : step i s = some t) :
    (∃ v devices titulaire, i = .message v (.presenceSubscribe devices) ∧
        s.gateway.titulaires.get? v = some titulaire ∧
        t.abonnements = s.abonnements ++
          [⟨v, titulaire.userId, devices.firsts MAX_ABONNEMENTS⟩]) ∨
    (∃ n autorises a, i = .autorise n autorises ∧ s.abonnements[n]? = some a ∧
        t.abonnements = s.abonnements.eraseIdx n ∧
        t.gateway = s.gateway.abonnerPresence a.socket autorises) ∨
    (∀ n autorises, i ≠ .autorise n autorises) ∧
      (∀ v devices, i = .message v (.presenceSubscribe devices) →
        s.gateway.titulaires.get? v = none) ∧ t.abonnements = s.abonnements := by
  cases i with
  | message v m =>
    obtain ⟨c, hc, hopen, rfl⟩ := step_message h
    cases m with
    | presenceSubscribe devices =>
      unfold traiterMessage
      dsimp only
      cases htitulaire : s.gateway.titulaires.get? v with
      | none =>
        refine .inr (.inr ⟨fun n a hi => (by cases hi), fun v' devices' hi => ?_, rfl⟩)
        obtain ⟨rfl, -⟩ := Input.message.inj hi
        exact htitulaire
      | some titulaire => exact .inl ⟨v, devices, titulaire, rfl, htitulaire, rfl⟩
    | callSignal kind callId payload cibles =>
      refine .inr (.inr ⟨fun n a hi => (by cases hi), fun v devices hi => (by cases hi), ?_⟩)
      unfold traiterMessage relayerAppel
      dsimp only
      split
      · split
        · rfl
        · split <;> rfl
      · rfl
    | _ => exact .inr (.inr ⟨fun n a hi => (by cases hi), fun v devices hi => (by cases hi), rfl⟩)
  | autorise n autorises =>
    obtain ⟨a, ha, h⟩ := Option.bind_eq_some_iff.mp h
    split at h
    · obtain rfl := Option.some.inj h
      exact .inr (.inl ⟨n, autorises, a, rfl, ha, rfl, rfl⟩)
    · cases h
  | connexion v claims =>
    simp only [step] at h
    split at h
    · cases h
    · obtain rfl := Option.some.inj h
      exact .inr (.inr ⟨fun n a hi => (by cases hi), fun v devices hi => (by cases hi), rfl⟩)
  | closing v =>
    simp only [step] at h
    split at h
    · obtain rfl := Option.some.inj h
      exact .inr (.inr ⟨fun n a hi => (by cases hi), fun v devices hi => (by cases hi), rfl⟩)
    · cases h
  | close v =>
    obtain ⟨c, hc, h⟩ := Option.bind_eq_some_iff.mp h
    split at h
    · cases h
    · obtain rfl := Option.some.inj h
      exact .inr (.inr ⟨fun n a hi => (by cases hi), fun v devices hi => (by cases hi), rfl⟩)
  | error v =>
    obtain ⟨c, hc, h⟩ := Option.bind_eq_some_iff.mp h
    split at h
    · cases h
    · obtain rfl := Option.some.inj h
      exact .inr (.inr ⟨fun n a hi => (by cases hi), fun v devices hi => (by cases hi), rfl⟩)
  | verifie n bloque =>
    obtain ⟨v, hv, h⟩ := Option.bind_eq_some_iff.mp h
    obtain ⟨cible, hcible, h⟩ := Option.bind_eq_some_iff.mp h
    obtain rfl := Option.some.inj h
    exact .inr (.inr ⟨fun n a hi => (by cases hi), fun v devices hi => (by cases hi), rfl⟩)
  | _ =>
    obtain rfl := Option.some.inj h
    exact .inr (.inr ⟨fun n a hi => (by cases hi), fun v devices hi => (by cases hi), rfl⟩)

end Runtime

namespace Demandes

variable {s t : Demandes} {w : Socket} {i : Input}

/-- What a step does to the numbers and to the answers. -/
inductive Note (i : Input) (s t : Demandes) : Prop where
  | demande (v : Socket) (a : AbonnementEnCours) (hv : a.socket = v)
      (hi : ∀ n autorises, i ≠ .autorise n autorises)
      (htitulaire : (s.runtime.gateway.titulaires.get? v).isSome)
      (habonnements : t.runtime.abonnements = s.runtime.abonnements ++ [a])
      (hnumeros : t.numeros = s.numeros ++ [s.total]) (htotal : t.total = s.total + 1)
      (hderniers : t.derniers = Function.update s.derniers v (some s.total))
      (hreponses : t.reponses = s.reponses)
  | reponse (n : Nat) (autorises : List Uuid) (a : AbonnementEnCours) (k : Nat)
      (hi : i = .autorise n autorises) (ha : s.runtime.abonnements[n]? = some a)
      (hk : s.numeros[n]? = some k)
      (habonnements : t.runtime.abonnements = s.runtime.abonnements.eraseIdx n)
      (hgateway : t.runtime.gateway = s.runtime.gateway.abonnerPresence a.socket autorises)
      (hnumeros : t.numeros = s.numeros.eraseIdx n) (htotal : t.total = s.total)
      (hderniers : t.derniers = s.derniers)
      (hreponses : t.reponses =
        ⟨k, a.socket, autorises, s.runtime.gateway.estEnLigne⟩ :: s.reponses)
  | rien (hi : ∀ n autorises, i ≠ .autorise n autorises)
      (habonnements : t.runtime.abonnements = s.runtime.abonnements)
      (hnumeros : t.numeros = s.numeros) (htotal : t.total = s.total)
      (hderniers : t.derniers = s.derniers) (hreponses : t.reponses = s.reponses)

theorem step_note (hlen : s.numeros.length = s.runtime.abonnements.length)
    (h : step i s = some t) : Note i s t := by
  obtain ⟨r, hr, rfl⟩ := Option.map_eq_some_iff.mp h
  rcases Runtime.step_abonnements hr with ⟨v, devices, titulaire, rfl, ht, habonnements⟩ |
    ⟨n, autorises, a, rfl, ha, habonnements, hgateway⟩ | ⟨hautorise, hsubscribe, habonnements⟩
  · have hsome : (s.runtime.gateway.titulaires.get? v).isSome := by rw [ht]; rfl
    have hnoter : s.noter (.message v (.presenceSubscribe devices)) r =
        { s with
          runtime := r
          numeros := s.numeros ++ [s.total]
          total := s.total + 1
          derniers := Function.update s.derniers v (some s.total) } := if_pos hsome
    rw [hnoter]
    exact .demande v _ rfl (fun n autorises hi => by cases hi) hsome habonnements rfl rfl rfl rfl
  · obtain ⟨hn, -⟩ := List.getElem?_eq_some_iff.mp ha
    obtain ⟨k, hk⟩ : ∃ k, s.numeros[n]? = some k :=
      ⟨_, List.getElem?_eq_getElem (by omega)⟩
    have hnoter : s.noter (.autorise n autorises) r =
        { s with
          runtime := r
          numeros := s.numeros.eraseIdx n
          reponses :=
            ⟨k, a.socket, autorises, s.runtime.gateway.estEnLigne⟩ :: s.reponses } := by
      simp only [noter, ha, hk]
    rw [hnoter]
    exact .reponse n autorises a k rfl ha hk habonnements hgateway rfl rfl rfl rfl
  · have hnoter : s.noter i r = { s with runtime := r } := by
      cases i with
      | message v m =>
        cases m with
        | presenceSubscribe devices =>
          have hnone := hsubscribe v devices rfl
          simp only [noter, hnone, Option.isSome_none, Bool.false_eq_true, if_false]
        | _ => rfl
      | autorise n autorises => exact absurd rfl (hautorise n autorises)
      | _ => rfl
    rw [hnoter]
    exact .rien hautorise habonnements rfl rfl rfl rfl

/-- What came last for the socket is in force. -/
def Suivie (s : Demandes) (w : Socket) : Prop :=
  ∀ q, s.runtime.gateway.isOpen w = true → s.derniereReponse w = some q →
    (∀ d, s.runtime.gateway.abonnements.Holds w d ↔ d ∈ q.autorises) ∧
      s.runtime.gateway.dernierInstantane w = some (q.autorises.filter q.enLigne)

/-- The numbers follow the subscriptions, and what came last is in force. -/
structure Tenu (w : Socket) (s : Demandes) : Prop where
  indexes : s.runtime.gateway.Indexes
  ouverts : s.runtime.gateway.Ouverts
  longueur : s.numeros.length = s.runtime.abonnements.length
  nes : ∀ n ∈ s.numeros ++ s.reponses.map Reponse.numero, n < s.total
  nodup : (s.numeros ++ s.reponses.map Reponse.numero).Nodup
  repondus : ∀ r ∈ s.reponses, (s.runtime.gateway.titulaire? r.socket).isSome
  demandeurs : ∀ a ∈ s.runtime.abonnements, (s.runtime.gateway.titulaire? a.socket).isSome
  dernier : ∀ n, s.derniers w = some n →
    (∃ (j : Nat) (a : AbonnementEnCours), s.runtime.abonnements[j]? = some a ∧ a.socket = w ∧
      s.numeros[j]? = some n) ∨
      ∃ r ∈ s.reponses, r.socket = w ∧ r.numero = n
  suivie : s.Suivie w

theorem tenu_start (w : Socket) : Tenu w start where
  indexes := indexes_empty
  ouverts w hw := by cases hw
  longueur := rfl
  nes n hn := absurd hn List.not_mem_nil
  nodup := List.nodup_nil
  demandeurs a ha := absurd ha List.not_mem_nil
  repondus r hr := absurd hr List.not_mem_nil
  dernier n h := by cases h
  suivie q _ h := by cases h

/-- The answer to a message of another socket does not come last for this one. -/
theorem find?_reponse (r : Reponse) (reponses : List Reponse) (w : Socket) :
    (r :: reponses).find? (·.socket == w) =
      if r.socket = w then some r else reponses.find? (·.socket == w) := by
  rw [List.find?_cons]
  by_cases hw : r.socket = w
  · rw [beq_iff_eq.mpr hw, if_pos hw]
  · rw [beq_false_of_ne hw, if_neg hw]

theorem derniereReponse_spec {q : Reponse} (hq : s.derniereReponse w = some q) :
    q ∈ s.reponses ∧ q.socket = w := by
  have hsocket : (q.socket == w) = true :=
    List.find?_some (p := fun r : Reponse => r.socket == w) hq
  exact ⟨List.mem_of_find?_eq_some hq, beq_iff_eq.mp hsocket⟩

theorem Tenu.connue (h : Tenu w s) {q : Reponse} (hq : s.derniereReponse w = some q) :
    (s.runtime.gateway.connexions w).isSome := by
  obtain ⟨hmem, rfl⟩ := derniereReponse_spec hq
  exact Option.isSome_map.symm.trans (h.repondus q hmem)

/-- What the socket is subscribed to and was last told stays. -/
theorem Tenu.suivie_of_ne (h : Tenu w s) (hr : Runtime.step i s.runtime = some t.runtime)
    (hblocage : SansBlocage w i s) (hautre : ∀ n autorises a, i = .autorise n autorises →
      s.runtime.abonnements[n]? = some a → w ≠ a.socket)
    (hdernier : t.derniereReponse w = s.derniereReponse w) : t.Suivie w := by
  intro q hopen hq
  rw [hdernier] at hq
  have hintacte : s.runtime.gateway.Intacte w t.runtime.gateway := by
    refine Runtime.step_intacte h.indexes hr ?_ (h.connue hq) hautre
    rintro userA userB a b rfl
    exact hblocage
  obtain ⟨habonnements, hinstantane⟩ := h.suivie q (hintacte.isOpen hopen) hq
  refine ⟨fun d => ?_, hintacte.instantane.trans hinstantane⟩
  exact (hintacte.abonnements hopen d).trans (habonnements d)

theorem step_runtime (h : step i s = some t) : Runtime.step i s.runtime = some t.runtime := by
  obtain ⟨r, hr, rfl⟩ := Option.map_eq_some_iff.mp h
  rw [hr]
  congr 1
  unfold noter
  split
  · split <;> rfl
  · split <;> rfl
  · rfl

theorem Tenu.step (h : Tenu w s) (hblocage : SansBlocage w i s)
    (ht : Demandes.step i s = some t) : Tenu w t := by
  have hr := step_runtime ht
  have hindexes := h.indexes.move (Runtime.step_move hr)
  have houverts := Runtime.ouverts_step h.indexes h.ouverts hr
  have hrepondus : ∀ r ∈ s.reponses, (t.runtime.gateway.titulaire? r.socket).isSome :=
    fun r hmem => Runtime.acceptee_step hr (h.repondus r hmem)
  have hdemandeurs : ∀ a ∈ s.runtime.abonnements,
      (t.runtime.gateway.titulaire? a.socket).isSome :=
    fun a hmem => Runtime.acceptee_step hr (h.demandeurs a hmem)
  cases step_note h.longueur ht with
  | rien hi habonnements hnumeros htotal hderniers hreponses =>
    have hsuivie : t.Suivie w := by
      refine h.suivie_of_ne hr hblocage (fun n _ _ hi' _ => absurd hi' (hi n _)) ?_
      unfold derniereReponse
      rw [hreponses]
    refine ⟨hindexes, houverts, ?_, ?_, ?_, ?_, ?_, ?_, hsuivie⟩
    · rw [hnumeros, habonnements]
      exact h.longueur
    · rw [hnumeros, hreponses, htotal]
      exact h.nes
    · rw [hnumeros, hreponses]
      exact h.nodup
    · rw [hreponses]
      exact hrepondus
    · rw [habonnements]
      exact hdemandeurs
    · rw [hnumeros, habonnements, hderniers, hreponses]
      exact h.dernier
  | demande v a hv hi htitulaire habonnements hnumeros htotal hderniers hreponses =>
    have hsuivie : t.Suivie w := by
      refine h.suivie_of_ne hr hblocage (fun n _ _ hi' _ => absurd hi' (hi n _)) ?_
      unfold derniereReponse
      rw [hreponses]
    have hfresh : s.total ∉ s.numeros ++ s.reponses.map Reponse.numero :=
      fun hmem => Nat.lt_irrefl s.total (h.nes s.total hmem)
    have hperm : (s.numeros ++ [s.total] ++ s.reponses.map Reponse.numero).Perm
        (s.total :: (s.numeros ++ s.reponses.map Reponse.numero)) := by
      rw [List.append_assoc]
      exact List.perm_middle
    refine ⟨hindexes, houverts, ?_, ?_, ?_, ?_, ?_, ?_, hsuivie⟩
    · rw [hnumeros, habonnements, List.length_append, List.length_append, h.longueur]
      rfl
    · rw [hnumeros, hreponses, htotal]
      intro n hn
      rcases List.mem_cons.mp (hperm.mem_iff.mp hn) with rfl | hn
      · omega
      · exact Nat.lt_succ_of_lt (h.nes n hn)
    · rw [hnumeros, hreponses]
      exact hperm.nodup_iff.mpr (List.nodup_cons.mpr ⟨hfresh, h.nodup⟩)
    · rw [hreponses]
      exact hrepondus
    · rw [habonnements]
      intro a' ha'
      rcases List.mem_append.mp ha' with ha' | ha'
      · exact hdemandeurs a' ha'
      · obtain rfl := List.mem_singleton.mp ha'
        obtain ⟨titulaire, htitulaire⟩ := Option.isSome_iff_exists.mp htitulaire
        refine Runtime.acceptee_step hr ?_
        rw [hv]
        exact Option.isSome_of_mem (h.indexes.poignee v titulaire htitulaire)
    · intro n hn
      rw [hderniers, Function.update_apply] at hn
      rw [habonnements, hnumeros, hreponses]
      split at hn
      · rename_i hw
        obtain rfl := Option.some.inj hn
        refine .inl ⟨s.numeros.length, a, ?_, hv.trans hw.symm, List.getElem?_concat_length⟩
        rw [h.longueur]
        exact List.getElem?_concat_length
      · rcases h.dernier n hn with ⟨j, a', ha', hw, hj⟩ | hanswered
        · have hjlen : j < s.runtime.abonnements.length := (List.getElem?_eq_some_iff.mp ha').1
          refine .inl ⟨j, a', ?_, hw, ?_⟩
          · rwa [List.getElem?_append_left hjlen]
          · rwa [List.getElem?_append_left (h.longueur ▸ hjlen)]
        · exact .inr hanswered
  | reponse n autorises a k hi ha hk habonnements hgateway hnumeros htotal hderniers hreponses =>
    obtain ⟨hnlen, hn⟩ := List.getElem?_eq_some_iff.mp hk
    have hperm : (s.numeros.eraseIdx n ++ t.reponses.map Reponse.numero).Perm
        (s.numeros ++ s.reponses.map Reponse.numero) := by
      rw [hreponses, List.map_cons, ← hn]
      exact List.perm_middle.trans ((List.getElem_cons_eraseIdx_perm hnlen).append_right _)
    refine ⟨hindexes, houverts, ?_, ?_, ?_, ?_, ?_, ?_, ?_⟩
    · rw [hnumeros, habonnements, List.length_eraseIdx, List.length_eraseIdx, h.longueur]
    · rw [hnumeros, htotal]
      exact fun m hm => h.nes m (hperm.mem_iff.mp hm)
    · rw [hnumeros]
      exact hperm.nodup_iff.mpr h.nodup
    · rw [hreponses]
      intro r hmem
      rcases List.mem_cons.mp hmem with rfl | hmem
      · exact hdemandeurs a (List.mem_of_getElem? ha)
      · exact hrepondus r hmem
    · rw [habonnements]
      exact fun a' ha' => hdemandeurs a' (List.mem_of_mem_eraseIdx ha')
    · intro m hm
      rw [hderniers] at hm
      rw [habonnements, hnumeros, hreponses]
      rcases h.dernier m hm with ⟨j, a', ha', hw, hj⟩ | ⟨r, hmem, hw, hnumero⟩
      · rcases Nat.lt_trichotomy j n with hlt | rfl | hgt
        · refine .inl ⟨j, a', ?_, hw, ?_⟩
          · rwa [List.getElem?_eraseIdx_of_lt hlt]
          · rwa [List.getElem?_eraseIdx_of_lt hlt]
        · -- the subscription that was answered
          obtain rfl := Option.some.inj (ha.symm.trans ha')
          obtain rfl := Option.some.inj (hk.symm.trans hj)
          exact .inr ⟨_, List.mem_cons_self, hw, rfl⟩
        · obtain ⟨j, rfl⟩ := Nat.exists_eq_add_one_of_ne_zero (Nat.ne_zero_of_lt hgt)
          refine .inl ⟨j, a', ?_, hw, ?_⟩
          · rwa [List.getElem?_eraseIdx_of_ge (Nat.le_of_lt_succ hgt)]
          · rwa [List.getElem?_eraseIdx_of_ge (Nat.le_of_lt_succ hgt)]
      · exact .inr ⟨r, List.mem_cons_of_mem _ hmem, hw, hnumero⟩
    · by_cases hw : a.socket = w
      · intro q hopen hq
        unfold derniereReponse at hq
        rw [hreponses, find?_reponse, if_pos hw] at hq
        obtain rfl := Option.some.inj hq
        rw [hgateway] at hopen ⊢
        rw [hw] at hopen ⊢
        unfold isOpen at hopen
        rw [abonnerPresence_connexions] at hopen
        exact abonnerPresence_enVigueur h.indexes.souscriptions h.ouverts hopen autorises
      · refine h.suivie_of_ne hr hblocage ?_ ?_
        · intro n' autorises' a' hi' ha'
          obtain ⟨rfl, -⟩ := Input.autorise.inj (hi.symm.trans hi')
          obtain rfl := Option.some.inj (ha.symm.trans ha')
          exact fun h => hw h.symm
        · unfold derniereReponse
          rw [hreponses, find?_reponse, if_neg hw]

theorem tenu_run {inputs : List Input} (hrun : run step inputs start = some s)
    (hblocage : Always step (SansBlocage w) inputs start) : Tenu w s :=
  run_invariant_of_always (Tenu w) (fun _ _ _ hs hi ht => hs.step hi ht) (tenu_start w) hblocage hrun

/-- The last message is answered once all are handled, and once only. -/
theorem Tenu.voulue (h : Tenu w s) (htraitees : s.Traitees w) {n : Nat}
    (hn : s.derniers w = some n) : ∃ r, s.EstVoulue w r ∧ ∀ r', s.EstVoulue w r' → r' = r := by
  rcases h.dernier n hn with ⟨j, a, ha, hw, -⟩ | ⟨r, hmem, hw, hnumero⟩
  · exact absurd hw (htraitees a (List.mem_of_getElem? ha))
  · refine ⟨r, ⟨hmem, hw, by rw [hn, hnumero]⟩, fun r' ⟨hmem', _, hn'⟩ => ?_⟩
    have hnodup := h.nodup.of_append_right
    refine List.inj_on_of_nodup_map hnodup hmem' hmem ?_
    rw [hnumero]
    exact (Option.some.inj (hn.symm.trans hn')).symm

/-- In every run without a block of its account, once all the subscriptions of an open socket
are handled, that of the last message is in force if and only if the answer that came last
agrees with it. -/
theorem abonnement_enVigueur {inputs : List Input} (hrun : run step inputs start = some s)
    (hblocage : Always step (SansBlocage w) inputs start)
    (hopen : s.runtime.gateway.isOpen w = true) (htraitees : s.Traitees w)
    (hdernier : (s.derniers w).isSome) :
    ∃ r, s.EstVoulue w r ∧ (∀ r', s.EstVoulue w r' → r' = r) ∧
      (s.EnVigueur w r ↔ s.DerniereConforme w r) := by
  have h := tenu_run hrun hblocage
  obtain ⟨n, hn⟩ := Option.isSome_iff_exists.mp hdernier
  obtain ⟨r, hr, hunique⟩ := h.voulue htraitees hn
  refine ⟨r, hr, hunique, ?_⟩
  constructor
  · intro hforce q hq d
    rw [← (h.suivie q hopen hq).1 d]
    exact hforce.1 d
  · intro hconforme
    obtain ⟨q, hq⟩ : ∃ q, s.derniereReponse w = some q :=
      Option.isSome_iff_exists.mp (List.find?_isSome.mpr ⟨r, hr.1, beq_iff_eq.mpr hr.2.1⟩)
    obtain ⟨habonnements, hinstantane⟩ := h.suivie q hopen hq
    refine ⟨fun d => (habonnements d).trans (hconforme q hq d), q, hq, _, hinstantane, fun d => ?_⟩
    rw [List.mem_filter, hconforme q hq d]

/-- Two messages whose checks end in their order. -/
def abonnementsEnOrdre : List Input :=
  [.connexion 1 (some ⟨10, 1⟩), .message 1 (.presenceSubscribe (some [some 20])),
    .message 1 (.presenceSubscribe (some [some 30])), .autorise 0 [20], .autorise 0 [30]]

theorem abonnementsEnOrdre_enVigueur :
    ∃ s, run step abonnementsEnOrdre start = some s ∧
      ∃ r, s.EstVoulue 1 r ∧ (∀ r', s.EstVoulue 1 r' → r' = r) ∧
        (s.EnVigueur 1 r ↔ s.DerniereConforme 1 r) := by
  have hrun : run step abonnementsEnOrdre start = some _ := rfl
  exact ⟨_, hrun, abonnement_enVigueur hrun (by decide) rfl (fun a ha => (by cases ha)) rfl⟩

/-- The check of the first of two messages ends last. -/
def abonnementTardif : List Input :=
  [.connexion 1 (some ⟨10, 1⟩), .message 1 (.presenceSubscribe (some [some 20])),
    .message 1 (.presenceSubscribe (some [some 30])), .autorise 1 [30], .autorise 0 [20]]

/-- The socket is subscribed to what it asked for first. -/
theorem abonnementTardif_ancien :
    ∃ s, run step abonnementTardif start = some s ∧ s.runtime.gateway.isOpen 1 = true ∧
      s.Traitees 1 ∧ ∃ r, s.EstVoulue 1 r ∧ r.autorises = [30] ∧ ¬ s.EnVigueur 1 r := by
  refine ⟨_, rfl, rfl, fun a ha => (by cases ha), ?_⟩
  refine ⟨_, ⟨List.mem_cons_of_mem _ List.mem_cons_self, rfl, rfl⟩, rfl, fun hforce => ?_⟩
  have hsubscribed := (hforce.1 20).mp (by decide)
  revert hsubscribed
  decide

end Demandes

end ZiaCrypte.Realtime

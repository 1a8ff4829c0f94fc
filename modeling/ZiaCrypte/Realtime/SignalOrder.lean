import ZiaCrypte.Realtime.GatewaySpec
import ZiaCrypte.Lib.Run
import Mathlib.Data.List.InsertIdx

/-!
# The order in which call signals are relayed

A signal goes out while its message is handled, an invitation only when the question whether
its target has blocked the caller has been answered. Each signal has a number here, and the
gateway notes which ones reached a device.
-/
namespace ZiaCrypte.Realtime

open ZiaCrypte.Lib ZiaCrypte.Server

/-- A signal that the gateway has accepted. -/
structure Signal where
  titulaire : Titulaire
  kind : String
  callId : String
  payload : Payload
  cibles : List Uuid
  deriving DecidableEq

def Signal.charge (e : Signal) : Envoi :=
  .callSignal e.titulaire.deviceId e.callId e.kind e.payload

/-- What `relayerAppel` makes of a message before it relays anything. -/
def Gateway.signal (g : Gateway) (socket : Socket) (kind callId : Option String)
    (payload : Option Payload) (cibles : Devices) : Option Signal :=
  match g.titulaires.get? socket, kind, callId, payload with
  | some titulaire, some kind, some callId, some payload =>
      let cibles := cibles.firsts 10
      if kind ∉ KINDS_APPEL ∨ payload.length > MAX_PAYLOAD_APPEL ∨ cibles = [] then none
      else some ⟨titulaire, kind, callId, payload, cibles⟩
  | _, _, _, _ => none

/-- The signal of a message, if it is one. -/
def Gateway.signalDe (g : Gateway) (socket : Socket) : Message → Option Signal
  | .callSignal kind callId payload cibles => g.signal socket kind callId payload cibles
  | _ => none

/-- `envoyerA` reaches the device. -/
def Gateway.joint (g : Gateway) (device : Uuid) : Bool :=
  match g.byDevice.get? device with
  | none => false
  | some sockets => sockets.any g.isOpen

theorem Gateway.envoyerA_fst (g : Gateway) (device : Uuid) (charge : Envoi) :
    (g.envoyerA device charge).1 = g.joint device := by
  unfold Gateway.envoyerA Gateway.joint
  cases g.byDevice.get? device <;> rfl

/-- An invitation that waits, with the socket it came on. -/
structure Attente where
  origine : Socket
  numero : Nat
  invitation : InvitationEnCours
  deriving DecidableEq

/-- A signal that reached a device. -/
structure Relaye where
  origine : Socket
  numero : Nat
  cible : Uuid
  charge : Envoi
  deriving DecidableEq

/-- The gateway; the signals it accepted have the numbers below `prochain`, and `relayes` has
those that reached a device, the latest first. -/
structure Relais where
  gateway : Gateway
  abonnements : List AbonnementEnCours
  enAttente : List Attente
  prochain : Nat
  relayes : List Relaye

namespace Relais

def runtime (s : Relais) : Runtime := ⟨s.gateway, s.abonnements, s.enAttente.map (·.invitation)⟩

def start : Relais := ⟨.empty, [], [], 0, []⟩

/-- A signal that waits for nothing reaches its targets in their order. -/
def noter (s : Relais) (socket : Socket) (e : Signal) : List Relaye :=
  ((e.cibles.filter s.gateway.joint).map fun cible =>
    ⟨socket, s.prochain, cible, e.charge⟩).reverse ++ s.relayes

/-- The number of an accepted signal, and where it goes. -/
def accepter (s : Relais) (socket : Socket) (e : Signal) : Relais :=
  if e.kind = "invite" then
    { s with
      enAttente := s.enAttente ++
        [⟨socket, s.prochain, ⟨e.titulaire, e.callId, e.payload, e.cibles⟩⟩]
      prochain := s.prochain + 1 }
  else { s with prochain := s.prochain + 1, relayes := s.noter socket e }

/-- The next target of the invitation is settled. -/
def verifier (s : Relais) (i : Nat) (bloque : Bool) : Relais :=
  match s.enAttente[i]? with
  | none => s
  | some a =>
      match a.invitation.cibles with
      | [] => s
      | cible :: reste =>
          { s with
            enAttente := if reste = [] then s.enAttente.eraseIdx i
              else s.enAttente.set i
                { a with invitation := { a.invitation with cibles := reste } }
            relayes := if bloque || !s.gateway.joint cible then s.relayes
              else ⟨a.origine, a.numero, cible, a.invitation.charge⟩ :: s.relayes }

/-- What the input does to the numbers. -/
def suivre (s : Relais) : Input → Relais
  | .message socket m =>
      match s.gateway.signalDe socket m with
      | none => s
      | some e => s.accepter socket e
  | .verifie i bloque => s.verifier i bloque
  | _ => s

def step (i : Input) (s : Relais) : Option Relais :=
  (Runtime.step i s.runtime).map fun r =>
    { s.suivre i with gateway := r.gateway, abonnements := r.abonnements }

end Relais

namespace Runtime

/-- The relay of a message, by the signal it holds. -/
theorem relayerAppel_eq (s : Runtime) (socket : Socket) (kind callId : Option String)
    (payload : Option Payload) (cibles : Devices) :
    s.relayerAppel socket kind callId payload cibles =
      match s.gateway.signal socket kind callId payload cibles with
      | none => s
      | some e =>
          if e.kind = "invite" then
            { s with invitations := s.invitations ++
                [⟨e.titulaire, e.callId, e.payload, e.cibles⟩] }
          else { s with gateway := e.cibles.foldl (fun g cible =>
              (g.envoyerA cible e.charge).2) s.gateway } := by
  unfold relayerAppel Gateway.signal
  cases s.gateway.titulaires.get? socket with
  | none => rfl
  | some titulaire =>
    cases kind with
    | none => rfl
    | some kind =>
      cases callId with
      | none => rfl
      | some callId =>
        cases payload with
        | none => rfl
        | some payload =>
          dsimp only
          split <;> rfl

end Runtime

namespace Relais

variable {s t : Relais} {i : Input}

theorem invitations_message {socket : Socket} {m : Message} {r : Runtime}
    (h : Runtime.step (.message socket m) s.runtime = some r) :
    r.invitations = (s.suivre (.message socket m)).enAttente.map (·.invitation) := by
  obtain ⟨c, -, -, rfl⟩ := Runtime.step_message h
  rw [suivre]
  cases m with
  | callSignal kind callId payload cibles =>
    rw [Runtime.traiterMessage, Runtime.relayerAppel_eq, Gateway.signalDe, runtime]
    dsimp only
    cases s.gateway.signal socket kind callId payload cibles with
    | none => rfl
    | some e =>
      dsimp only
      rw [accepter]
      split
      · rw [List.map_append]
        rfl
      · rfl
  | presenceSubscribe devices =>
    rw [Runtime.traiterMessage]
    split <;> rfl
  | _ => rfl

theorem invitations_verifie {n : Nat} {bloque : Bool} {r : Runtime}
    (h : Runtime.step (.verifie n bloque) s.runtime = some r) :
    r.invitations = (s.suivre (.verifie n bloque)).enAttente.map (·.invitation) := by
  obtain ⟨v, hv, h⟩ := Option.bind_eq_some_iff.mp h
  obtain ⟨cible, hcible, h⟩ := Option.bind_eq_some_iff.mp h
  obtain rfl := Option.some.inj h
  rw [runtime, List.getElem?_map, Option.map_eq_some_iff] at hv
  obtain ⟨a, ha, rfl⟩ := hv
  rw [suivre, verifier, ha]
  dsimp only
  cases hcibles : a.invitation.cibles with
  | nil =>
    rw [hcibles] at hcible
    cases hcible
  | cons c reste =>
    dsimp only [runtime, List.tail_cons]
    by_cases hreste : reste = []
    · rw [if_pos hreste, ← List.eraseIdx_map]
      exact if_pos hreste
    · rw [if_neg hreste, List.map_set]
      exact if_neg hreste

/-- The numbers change nothing of what the gateway does. -/
theorem step_runtime (h : step i s = some t) : Runtime.step i s.runtime = some t.runtime := by
  obtain ⟨r, hr, rfl⟩ := Option.map_eq_some_iff.mp h
  have hinvitations : r.invitations = (s.suivre i).enAttente.map (·.invitation) := by
    cases i with
    | message socket m => exact invitations_message hr
    | verifie n bloque => exact invitations_verifie hr
    | connexion socket claims =>
      rw [Runtime.step] at hr
      split at hr
      · cases hr
      · obtain rfl := Option.some.inj hr
        rfl
    | closing socket =>
      rw [Runtime.step] at hr
      split at hr
      · obtain rfl := Option.some.inj hr
        rfl
      · cases hr
    | close socket =>
      obtain ⟨c, -, hr⟩ := Option.bind_eq_some_iff.mp hr
      split at hr
      · cases hr
      · obtain rfl := Option.some.inj hr
        rfl
    | error socket =>
      obtain ⟨c, -, hr⟩ := Option.bind_eq_some_iff.mp hr
      split at hr
      · cases hr
      · obtain rfl := Option.some.inj hr
        rfl
    | autorise n autorises =>
      obtain ⟨a, -, hr⟩ := Option.bind_eq_some_iff.mp hr
      split at hr
      · obtain rfl := Option.some.inj hr
        rfl
      · cases hr
    | revoquerPresence userA userB a b =>
      obtain rfl := Option.some.inj hr
      rfl
    | deconnecterAppareil deviceId =>
      obtain rfl := Option.some.inj hr
      rfl
    | notifyPending deviceId =>
      obtain rfl := Option.some.inj hr
      rfl
  rw [hr, runtime]
  dsimp only
  rw [← hinvitations]

/-- An accepted signal is what its message says. -/
theorem signalDe_eq {g : Gateway} {socket : Socket} {m : Message} {e : Signal}
    (h : g.signalDe socket m = some e) : ∃ cibles : Devices,
      m = .callSignal (some e.kind) (some e.callId) (some e.payload) cibles ∧
        e.cibles = cibles.firsts 10 := by
  cases m with
  | callSignal kind callId payload cibles =>
    have h' : g.signal socket kind callId payload cibles = some e := h
    unfold Gateway.signal at h'
    split at h'
    · dsimp only at h'
      split at h'
      · cases h'
      · obtain rfl := Option.some.inj h'
        exact ⟨cibles, rfl, rfl⟩
    · cases h'
  | _ => cases h

/-- What waits has waited before, or is the invitation of the message. -/
theorem enAttente_step (h : step i s = some t) {a' : Attente} (ha' : a' ∈ t.enAttente) :
    (∃ a ∈ s.enAttente, a.origine = a'.origine ∧
      a.invitation.callId = a'.invitation.callId ∧
        a'.invitation.cibles ⊆ a.invitation.cibles) ∨
      ∃ m e, i = .message a'.origine m ∧ s.gateway.signalDe a'.origine m = some e ∧
        e.kind = "invite" ∧ a'.invitation.callId = e.callId ∧
          a'.invitation.cibles = e.cibles := by
  obtain ⟨r, -, rfl⟩ := Option.map_eq_some_iff.mp h
  have hsame : a' ∈ s.enAttente → ∃ a ∈ s.enAttente, a.origine = a'.origine ∧
      a.invitation.callId = a'.invitation.callId ∧
        a'.invitation.cibles ⊆ a.invitation.cibles :=
    fun hold => ⟨a', hold, rfl, rfl, List.Subset.refl _⟩
  have ha'' : a' ∈ (s.suivre i).enAttente := ha'
  cases i with
  | message socket m =>
    rw [suivre] at ha''
    split at ha''
    · exact .inl (hsame ha'')
    · rename_i e he
      rw [accepter] at ha''
      split at ha''
      · rename_i hkind
        cases List.mem_append.mp ha'' with
        | inl hold => exact .inl (hsame hold)
        | inr hnew =>
          obtain rfl := List.mem_singleton.mp hnew
          exact .inr ⟨m, e, rfl, he, hkind, rfl, rfl⟩
      · exact .inl (hsame ha'')
  | verifie n bloque =>
    rw [suivre, verifier] at ha''
    split at ha''
    · exact .inl (hsame ha'')
    · rename_i v hv
      split at ha''
      · exact .inl (hsame ha'')
      · rename_i cible reste hcibles
        dsimp only at ha''
        split at ha''
        · exact .inl (hsame (List.mem_of_mem_eraseIdx ha''))
        · cases List.mem_or_eq_of_mem_set ha'' with
          | inl hold => exact .inl (hsame hold)
          | inr hnew =>
            refine .inl ⟨v, List.mem_of_getElem? hv, by rw [hnew], by rw [hnew], ?_⟩
            rw [hnew, hcibles]
            exact List.subset_cons_self cible reste
  | _ => exact .inl (hsame ha'')

/-- What is relayed is the signal of the message, or the invitation that was checked. -/
theorem relayes_step (h : step i s = some t) : ∃ news, t.relayes = news ++ s.relayes ∧
    ∀ r ∈ news,
      (∃ socket m e, i = .message socket m ∧ s.gateway.signalDe socket m = some e ∧
        e.kind ≠ "invite" ∧ r.charge = e.charge) ∨
      ∃ n bloque, i = .verifie n bloque ∧ ∃ a ∈ s.enAttente,
        r.charge = a.invitation.charge ∧ r.cible ∈ a.invitation.cibles := by
  obtain ⟨r, -, rfl⟩ := Option.map_eq_some_iff.mp h
  change ∃ news, (s.suivre i).relayes = news ++ s.relayes ∧ _
  cases i with
  | message socket m =>
    rw [suivre]
    split
    · exact ⟨[], rfl, fun r hr => by cases hr⟩
    · rename_i e he
      rw [accepter]
      split
      · exact ⟨[], rfl, fun r hr => by cases hr⟩
      · rename_i hkind
        refine ⟨_, rfl, fun r hr => .inl ⟨socket, m, e, rfl, he, hkind, ?_⟩⟩
        obtain ⟨cible, -, rfl⟩ := List.mem_map.mp (List.mem_reverse.mp hr)
        rfl
  | verifie n bloque =>
    rw [suivre, verifier]
    split
    · exact ⟨[], rfl, fun r hr => by cases hr⟩
    · rename_i v hv
      split
      · exact ⟨[], rfl, fun r hr => by cases hr⟩
      · rename_i cible reste hcibles
        dsimp only
        split
        · exact ⟨[], rfl, fun r hr => by cases hr⟩
        · refine ⟨[_], rfl, fun r hr => .inr ⟨n, bloque, rfl, v, List.mem_of_getElem? hv, ?_⟩⟩
          obtain rfl := List.mem_singleton.mp hr
          exact ⟨rfl, by rw [hcibles]; exact List.mem_cons_self⟩
  | _ => exact ⟨[], rfl, fun r hr => by cases hr⟩

/-! ## The order -/

/-- To each device the signals of a socket came in the order of their messages. -/
def Ordonnes (s : Relais) : Prop :=
  s.relayes.Pairwise fun b a => a.origine = b.origine → a.cible = b.cible → a.numero ≤ b.numero

instance (s : Relais) : Decidable s.Ordonnes :=
  inferInstanceAs (Decidable (s.relayes.Pairwise fun b a =>
    a.origine = b.origine → a.cible = b.cible → a.numero ≤ b.numero))

/-- A signal is only relayed to a device while no earlier invitation of its socket to the device
waits. -/
def SansAttente (i : Input) (s : Relais) : Prop :=
  match i with
  | .message socket m => ∀ e ∈ s.gateway.signalDe socket m, e.kind ≠ "invite" →
      ∀ a ∈ s.enAttente, a.origine = socket → ∀ cible ∈ e.cibles, cible ∉ a.invitation.cibles
  | .verifie n _ => ∀ v ∈ s.enAttente[n]?, ∀ a ∈ s.enAttente, a.origine = v.origine →
      a.numero < v.numero → ∀ cible ∈ v.invitation.cibles.head?, cible ∉ a.invitation.cibles
  | _ => True

instance decidableSansAttente : ∀ i s, Decidable (SansAttente i s)
  | .message socket m, s => inferInstanceAs (Decidable (∀ e ∈ s.gateway.signalDe socket m,
      e.kind ≠ "invite" → ∀ a ∈ s.enAttente, a.origine = socket → ∀ cible ∈ e.cibles,
        cible ∉ a.invitation.cibles))
  | .verifie n _, s => inferInstanceAs (Decidable (∀ v ∈ s.enAttente[n]?, ∀ a ∈ s.enAttente,
      a.origine = v.origine → a.numero < v.numero → ∀ cible ∈ v.invitation.cibles.head?,
        cible ∉ a.invitation.cibles))
  | .connexion _ _, _ => isTrue trivial
  | .closing _, _ => isTrue trivial
  | .close _, _ => isTrue trivial
  | .error _, _ => isTrue trivial
  | .autorise _ _, _ => isTrue trivial
  | .revoquerPresence _ _ _ _, _ => isTrue trivial
  | .deconnecterAppareil _, _ => isTrue trivial
  | .notifyPending _, _ => isTrue trivial

structure Rang (s : Relais) : Prop where
  attente : s.enAttente.Pairwise fun a b => a.numero < b.numero
  prochain : ∀ a ∈ s.enAttente, a.numero < s.prochain
  relayes : ∀ r ∈ s.relayes, r.numero < s.prochain
  avant : ∀ r ∈ s.relayes, ∀ a ∈ s.enAttente, a.origine = r.origine →
    r.cible ∈ a.invitation.cibles → r.numero ≤ a.numero
  ordonnes : s.Ordonnes

theorem rang_start : start.Rang where
  attente := .nil
  prochain _ h := by cases h
  relayes _ h := by cases h
  avant _ h := by cases h
  ordonnes := .nil

theorem Rang.accepter (h : s.Rang) {socket : Socket} {e : Signal}
    (hc : e.kind ≠ "invite" → ∀ a ∈ s.enAttente, a.origine = socket → ∀ cible ∈ e.cibles,
      cible ∉ a.invitation.cibles) : (s.accepter socket e).Rang := by
  rw [Relais.accepter]
  split
  · constructor
    · refine List.pairwise_append.mpr ⟨h.attente, List.pairwise_singleton _ _, ?_⟩
      intro a ha b hb
      obtain rfl := List.mem_singleton.mp hb
      exact h.prochain a ha
    · intro a ha
      cases List.mem_append.mp ha with
      | inl hold => exact Nat.lt_succ_of_lt (h.prochain a hold)
      | inr hnew =>
        obtain rfl := List.mem_singleton.mp hnew
        exact Nat.lt_succ_self _
    · intro r hr
      exact Nat.lt_succ_of_lt (h.relayes r hr)
    · intro r hr a ha horigine hcible
      cases List.mem_append.mp ha with
      | inl hold => exact h.avant r hr a hold horigine hcible
      | inr hnew =>
        obtain rfl := List.mem_singleton.mp hnew
        exact Nat.le_of_lt (h.relayes r hr)
    · exact h.ordonnes
  · rename_i hkind
    have hnouveau : ∀ r ∈ ((e.cibles.filter s.gateway.joint).map fun cible =>
        (⟨socket, s.prochain, cible, e.charge⟩ : Relaye)).reverse,
        r.origine = socket ∧ r.numero = s.prochain ∧ r.cible ∈ e.cibles := by
      intro r hr
      obtain ⟨cible, hcible, rfl⟩ := List.mem_map.mp (List.mem_reverse.mp hr)
      exact ⟨rfl, rfl, (List.mem_filter.mp hcible).1⟩
    constructor
    · exact h.attente
    · intro a ha
      exact Nat.lt_succ_of_lt (h.prochain a ha)
    · intro r hr
      cases List.mem_append.mp hr with
      | inl hnew =>
        rw [(hnouveau r hnew).2.1]
        exact Nat.lt_succ_self _
      | inr hold => exact Nat.lt_succ_of_lt (h.relayes r hold)
    · intro r hr a ha horigine hcible
      cases List.mem_append.mp hr with
      | inl hnew =>
        obtain ⟨hsocket, -, hmem⟩ := hnouveau r hnew
        exact absurd hcible (hc hkind a ha (horigine.trans hsocket) r.cible hmem)
      | inr hold => exact h.avant r hold a ha horigine hcible
    · refine List.pairwise_append.mpr ⟨?_, h.ordonnes, ?_⟩
      · refine List.pairwise_of_forall_mem_list fun b hb a ha _ _ => ?_
        exact Nat.le_of_eq ((hnouveau a ha).2.1.trans (hnouveau b hb).2.1.symm)
      · intro b hb a ha _ _
        rw [(hnouveau b hb).2.1]
        exact Nat.le_of_lt (h.relayes a ha)

theorem Rang.verifier (h : s.Rang) {n : Nat} {bloque : Bool}
    (hc : ∀ v ∈ s.enAttente[n]?, ∀ a ∈ s.enAttente, a.origine = v.origine →
      a.numero < v.numero → ∀ cible ∈ v.invitation.cibles.head?, cible ∉ a.invitation.cibles) :
    (s.verifier n bloque).Rang := by
  rw [Relais.verifier]
  split
  · exact h
  rename_i v hv
  split
  · exact h
  rename_i cible reste hcibles
  have hmem := List.mem_of_getElem? hv
  -- What waits afterwards waited before, for no more devices than then.
  have hreste : ∀ a' ∈ (if reste = [] then s.enAttente.eraseIdx n
      else s.enAttente.set n { v with invitation := { v.invitation with cibles := reste } }),
      ∃ a ∈ s.enAttente, a.numero = a'.numero ∧ a.origine = a'.origine ∧
        a'.invitation.cibles ⊆ a.invitation.cibles := by
    intro a' ha'
    split at ha'
    · exact ⟨a', List.mem_of_mem_eraseIdx ha', rfl, rfl, List.Subset.refl _⟩
    · cases List.mem_or_eq_of_mem_set ha' with
      | inl hold => exact ⟨a', hold, rfl, rfl, List.Subset.refl _⟩
      | inr hnew =>
        refine ⟨v, hmem, by rw [hnew], by rw [hnew], ?_⟩
        rw [hnew, hcibles]
        exact List.subset_cons_self cible reste
  have hattente : (if reste = [] then s.enAttente.eraseIdx n
      else s.enAttente.set n { v with invitation := { v.invitation with cibles := reste } }).Pairwise
        fun a b => a.numero < b.numero := by
    split
    · exact h.attente.sublist (List.eraseIdx_sublist s.enAttente n)
    · have hnumeros : (s.enAttente.set n
          { v with invitation := { v.invitation with cibles := reste } }).map (·.numero) =
          s.enAttente.map (·.numero) := by
        obtain ⟨hlt, hget⟩ := List.getElem?_eq_some_iff.mp hv
        have hlt' : n < (s.enAttente.map (·.numero)).length := by rwa [List.length_map]
        have hnumero : (s.enAttente.map (·.numero))[n] = v.numero := by rw [List.getElem_map, hget]
        rw [List.map_set, ← hnumero]
        exact List.set_getElem_self hlt'
      have hmap := List.pairwise_map.mpr h.attente
      rw [← hnumeros] at hmap
      exact List.pairwise_map.mp hmap
  have hv' : ∀ a ∈ s.enAttente, a.origine = v.origine → cible ∈ a.invitation.cibles →
      v.numero ≤ a.numero := by
    intro a ha horigine hcible
    by_contra hlt
    exact hc v hv a ha horigine (Nat.lt_of_not_le hlt) cible (by rw [hcibles]; rfl) hcible
  have hborne : ∀ r ∈ (if bloque || !s.gateway.joint cible then s.relayes
      else ⟨v.origine, v.numero, cible, v.invitation.charge⟩ :: s.relayes),
      r ∈ s.relayes ∨ r = ⟨v.origine, v.numero, cible, v.invitation.charge⟩ := by
    intro r hr
    split at hr
    · exact .inl hr
    · exact (List.mem_cons.mp hr).symm
  constructor
  · exact hattente
  · intro a' ha'
    obtain ⟨a, ha, hnumero, -, -⟩ := hreste a' ha'
    exact hnumero ▸ h.prochain a ha
  · intro r hr
    obtain hold | rfl := hborne r hr
    · exact h.relayes r hold
    · exact h.prochain v hmem
  · intro r hr a' ha' horigine hcible
    obtain ⟨a, ha, hnumero, hsame, hsub⟩ := hreste a' ha'
    rw [← hnumero]
    obtain hold | rfl := hborne r hr
    · exact h.avant r hold a ha (hsame.trans horigine) (hsub hcible)
    · exact hv' a ha (hsame.trans horigine) (hsub hcible)
  · rw [Ordonnes]
    dsimp only
    split
    · exact h.ordonnes
    · refine List.pairwise_cons.mpr ⟨fun a ha horigine hcible => ?_, h.ordonnes⟩
      have hcible' : a.cible = cible := hcible
      exact h.avant a ha v hmem horigine.symm (by rw [hcible', hcibles]; exact List.mem_cons_self)

theorem Rang.step (h : s.Rang) (hc : SansAttente i s) (ht : step i s = some t) : t.Rang := by
  obtain ⟨r, -, rfl⟩ := Option.map_eq_some_iff.mp ht
  have hsuivre : (s.suivre i).Rang := by
    cases i with
    | message socket m =>
      rw [suivre]
      cases he : s.gateway.signalDe socket m with
      | none => exact h
      | some e => exact h.accepter (hc e he)
    | verifie n bloque => exact h.verifier hc
    | _ => exact h
  exact ⟨hsuivre.attente, hsuivre.prochain, hsuivre.relayes, hsuivre.avant, hsuivre.ordonnes⟩

/-- In the runs where no signal is relayed past an invitation that waits, the signals of a
socket reach each device in the order of their messages. -/
theorem ordonnes_of_sansAttente {inputs : List Input} (h : Always step SansAttente inputs start)
    (hrun : run step inputs start = some s) : s.Ordonnes :=
  (run_invariant_of_always Rang (fun _ _ _ hs hc ht => hs.step hc ht) rang_start h hrun).ordonnes

end Relais

end ZiaCrypte.Realtime

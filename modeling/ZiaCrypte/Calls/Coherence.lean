import ZiaCrypte.Calls.Signals

/-!
# The state of the call

A state that is not idle names its call: one that was begun, under the names it was begun
with, and that was not ended since; a call that rings in was called by its device, and one
that is connected was answered with its device. Every assignment keeps this except the one
that `accepterAppel` makes after its wait for the relays, which looks at nothing.
-/
namespace ZiaCrypte.Calls

open ZiaCrypte.Lib

structure Coherent (s : Service) : Prop where
  libre : s.appel.callEtat = .aucun → s.appel.callId = none
  enCours : s.appel.callEtat ≠ .aucun → ∃ d ∈ s.debuts,
    s.appel.callId = some d.callId ∧ s.appel.callPeerName = some d.peerName ∧
      s.appel.callConvId = some d.conv ∧ d.callId ∉ s.termines
  entrant : s.appel.callEtat = .entrant → ∃ device id,
    s.appel.callPairDevice = some device ∧ s.appel.callId = some id ∧
      (device, id) ∈ s.invitations
  connecte : s.appel.callEtat = .connecte → ∃ device id,
    s.appel.callPairDevice = some device ∧ s.appel.callId = some id ∧
      (device, id) ∈ s.reponses

/-- An assignment does not come too late: the call that is being accepted is still there,
and a call does not begin under the id of one that was ended. -/
def Stmt.ATemps : Stmt → Service → Prop
  | .connecter device id, s =>
      s.appel.callEtat = .connecte ∨
        s.appel.callId = some id ∧ s.appel.callPairDevice = some device
  | .sortir _ id, s => id ∉ s.termines
  | .sonner _ f _, s => f.callId ∉ s.termines
  | _, _ => True

instance (a : Stmt) (s : Service) : Decidable (a.ATemps s) := by
  cases a <;> unfold Stmt.ATemps <;> infer_instance

def EventATemps : CallEvent → Service → Prop
  | .act a, s => a.ATemps s
  | _, _ => True

instance (e : CallEvent) (s : Service) : Decidable (EventATemps e s) := by
  cases e <;> unfold EventATemps <;> infer_instance

/-! ## Steps -/

theorem Coherent.initial (conversations : List Conversation) (activerMediaAppel : Bool) :
    Coherent (.initial conversations activerMediaAppel) where
  libre _ := rfl
  enCours h := absurd rfl h
  entrant h := by cases h
  connecte h := by cases h

/-- After the end of a call nothing is left of it. -/
theorem Coherent.of_aucun {s : Service} (h : s.appel = .aucun) : Coherent s := by
  constructor
  · intro _
    rw [h]
    rfl
  · intro hne
    rw [h] at hne
    exact absurd rfl hne
  · intro he
    rw [h] at he
    cases he
  · intro he
    rw [h] at he
    cases he

/-- What coherence is about. -/
def Service.noyau (s : Service) :=
  (s.appel.callEtat, s.appel.callId, s.appel.callPeerName, s.appel.callConvId,
    s.appel.callPairDevice, s.debuts, s.invitations, s.reponses, s.termines)

theorem Coherent.of_noyau {s s' : Service} (h : Coherent s) (hmeme : s'.noyau = s.noyau) :
    Coherent s' := by
  simp only [Service.noyau, Prod.mk.injEq] at hmeme
  obtain ⟨hetat, hid, hpeer, hconv, hpair, hdebuts, hinvitations, hreponses, htermines⟩ := hmeme
  constructor
  · rw [hetat, hid]
    exact h.libre
  · rw [hetat, hid, hpeer, hconv, hdebuts, htermines]
    exact h.enCours
  · rw [hetat, hid, hpair, hinvitations]
    exact h.entrant
  · rw [hetat, hid, hpair, hreponses]
    exact h.connecte

theorem Coherent.sortir {s : Service} {conv : ConvId} {id : CallId}
    (hneuf : id ∉ s.termines) : Coherent (s.sortir conv id) := by
  unfold Service.sortir
  dsimp only
  split
  · exact .of_aucun rfl
  · constructor
    · intro he
      cases he
    · intro _
      exact ⟨_, List.mem_cons_self, rfl, rfl, rfl, hneuf⟩
    · intro he
      cases he
    · intro he
      cases he

theorem Coherent.sonner {s : Service} {conv : ConvId} {f : Frame} {data : Data}
    (hneuf : f.callId ∉ s.termines) : Coherent (s.sonner conv f data) where
  libre he := by cases he
  enCours _ := ⟨_, List.mem_cons_self, rfl, rfl, rfl, hneuf⟩
  entrant _ := ⟨f.sender, f.callId, rfl, rfl, List.mem_cons_self⟩
  connecte he := by cases he

/-- The answer comes while the call rings. -/
theorem Coherent.decrocher {s : Service} (h : Coherent s) {f : Frame}
    (hid : s.appel.callId = some f.callId) (hsortant : s.appel.callEtat = .sortant) :
    Coherent (s.decrocher f) where
  libre he := by cases he
  enCours _ := h.enCours (by rw [hsortant]; decide)
  entrant he := by cases he
  connecte _ := ⟨f.sender, f.callId, rfl, hid, List.mem_cons_self⟩

/-- The call is accepted while it is still the current one. -/
theorem Coherent.connecter {s : Service} (h : Coherent s) {device : DeviceId} {id : CallId}
    (hid : s.appel.callId = some id) (hpair : s.appel.callPairDevice = some device) :
    Coherent (s.connecter device id) where
  libre he := by cases he
  enCours _ := h.enCours fun he => by
    have hnone := h.libre he
    rw [hid] at hnone
    cases hnone
  entrant he := by cases he
  connecte _ := ⟨device, id, hpair, hid, List.mem_cons_self⟩

/-- A second acceptance of a connected call changes nothing. -/
theorem Coherent.reconnecter {s : Service} (h : Coherent s) {device : DeviceId} {id : CallId}
    (hdeja : s.appel.callEtat = .connecte) : Coherent (s.connecter device id) where
  libre he := by cases he
  enCours _ := h.enCours (by rw [hdeja]; decide)
  entrant he := by cases he
  connecte _ := by
    obtain ⟨pair, current, hpair, hcurrent, hmem⟩ := h.connecte hdeja
    exact ⟨pair, current, hpair, hcurrent, List.mem_cons_of_mem _ hmem⟩

theorem Coherent.apply {s : Service} (h : Coherent s) {a : Stmt} (hguard : a.Guard s)
    (htemps : a.ATemps s) : Coherent (a.apply s) := by
  cases a with
  | setIceServers servers => exact h.of_noyau rfl
  | sortir conv id => exact .sortir htemps
  | setSession conv id => exact h.of_noyau rfl
  | connecter device id =>
    obtain hdeja | ⟨hid, hpair⟩ := htemps
    · exact h.reconnecter hdeja
    · exact h.connecter hid hpair
  | viderIce => exact h.of_noyau rfl
  | armerTimeoutMedia f => exact h.of_noyau rfl
  | desarmer => exact h.of_noyau rfl
  | terminerAppel => exact .of_aucun rfl
  | raccroche f => exact .of_aucun rfl
  | sonner conv f data => exact .sonner htemps
  | decrocher f => exact h.decrocher hguard.2.1 hguard.2.2
  | viderIceLocal f => exact h.of_noyau rfl
  | candidat f data =>
    show Coherent (s.candidat data)
    unfold Service.candidat
    split <;> exact h.of_noyau rfl
  | mediaConnecte connecte => exact h.of_noyau rfl
  | iceLocal id data =>
    show Coherent (s.iceLocal id data)
    unfold Service.iceLocal
    split <;> exact h.of_noyau rfl
  | emettre signals => exact h.of_noyau rfl
  | setConversations conversations => exact h.of_noyau rfl

theorem Coherent.event {s : Service} (h : Coherent s) {e : CallEvent} (hguard : CallGuard e s)
    (htemps : EventATemps e s) : Coherent (callSemantics.apply e s) := by
  cases e with
  | act a => exact h.apply hguard htemps
  | issue q => exact h.of_noyau rfl
  | settle t q x =>
    show Coherent (q.settle s)
    cases q <;> exact h.of_noyau rfl
  | crash => exact .of_aucun rfl

/-! ## Runs -/

/-- In a run where no assignment comes too late, every event leaves a coherent state. -/
theorem callRun_coherent {conversations : List Conversation} {activerMediaAppel : Bool}
    {choices : List CallChoice} {p : CallPool}
    (hrun : callRun conversations activerMediaAppel choices = some p)
    (htemps : Always callSemantics.step EventATemps p.trace
      (.initial conversations activerMediaAppel)) :
    Always callSemantics.step (fun e s => Coherent (callSemantics.apply e s)) p.trace
      (.initial conversations activerMediaAppel) ∧ Coherent p.state := by
  have hsafe := callRun_isSafe hrun
  have hboth := hsafe.guarded.and htemps
  have hstart := Coherent.initial conversations activerMediaAppel
  have hstep : ∀ e s t, Coherent s → CallGuard e s ∧ EventATemps e s →
      callSemantics.step e s = some t → Coherent t := fun e s t hs he ht =>
    Option.some.inj ht ▸ hs.event he.1 he.2
  refine ⟨?_, run_invariant_of_always Coherent hstep hstart hboth hsafe.replay⟩
  exact always_of_invariant Coherent hstep (fun _ _ hs he => hs.event he.1 he.2) hstart hboth

/-- One correspondent, with one device. -/
def sampleConversations : List Conversation := [⟨1, "pair", false, false, [20], []⟩]

/-- The device 20 calls. -/
def incomingCall : List CallChoice :=
  [.start (.recevoirSignalAppel ⟨20, .invite, 5, true⟩), .settle 0 (.data .vide), .resume 0]

/-- The call is accepted, and ended by the other side while the relays are asked for. -/
def acceptedTooLate : List CallChoice :=
  incomingCall ++
    [.start .accepterAppel, .start (.recevoirSignalAppel ⟨20, .hangup, 5, true⟩),
      .settle 1 (.creds (some (some 1))), .resume 1]

/-- It is connected afterwards, with nobody. -/
theorem acceptedTooLate_connects : ∃ p,
    callRun sampleConversations false acceptedTooLate = some p ∧
      p.state.termines = [5] ∧ p.state.appel.callEtat = .connecte ∧
      p.state.appel.callId = none ∧ ¬ Coherent p.state := by
  refine ⟨_, rfl, by decide, by decide, by decide, fun h => ?_⟩
  obtain ⟨d, _, hid, _⟩ := h.enCours (by decide)
  cases hid

/-- The call is accepted in time, and ended by the user. -/
def answeredCall : List CallChoice :=
  incomingCall ++
    [.start .accepterAppel, .settle 1 (.creds (some (some 1))), .resume 1, .settle 1 .done,
      .resume 1, .start .raccrocher, .settle 2 .done, .resume 2]

theorem answeredCall_coherent : ∃ p, callRun sampleConversations false answeredCall = some p ∧
    Always callSemantics.step (fun e s => Coherent (callSemantics.apply e s)) p.trace
      (.initial sampleConversations false) ∧ Coherent p.state :=
  ⟨_, rfl, @callRun_coherent _ _ answeredCall _ rfl (by decide)⟩

end ZiaCrypte.Calls

import ZiaCrypte.Calls.Signals

/-!
# Signals of other devices

While a call rings in or is connected, its device is known; while it rings out, the devices
of the account that is called may answer. A signal of any other device, or one that is not
authentic, should leave the call as it is. An invitation does, and so do an answer and a
candidate once the device is known. Its hangup ends the call.
-/
namespace ZiaCrypte.Calls

open ZiaCrypte.Lib

/-- The device belongs to the account at the other end of the conversation. -/
abbrev Titulaires := ConvId → DeviceId → Bool

/-- A call rings out, rings in or is connected, and the signal has no say in it. -/
def Etranger (titulaires : Titulaires) (s : Service) (f : Frame) : Prop :=
  match s.appel.callEtat with
  | .aucun => False
  | .sortant =>
      ¬ (f.authentique = true ∧ s.appel.callConvId.any (titulaires · f.sender) = true)
  | _ => s.appel.callPairDevice.any (fun device => !(f.authentique && f.sender == device)) = true

instance (titulaires : Titulaires) (s : Service) (f : Frame) :
    Decidable (Etranger titulaires s f) := by
  unfold Etranger
  split <;> infer_instance

/-- The signal an assignment is made for. -/
def Stmt.frame : Stmt → Option Frame
  | .raccroche f => some f
  | .sonner _ f _ => some f
  | .decrocher f => some f
  | .candidat f _ => some f
  | .viderIceLocal f => some f
  | .armerTimeoutMedia f => f
  | _ => none

/-- The assignment leaves the call as it is when its signal has no say in it. -/
def Stmt.Intact (titulaires : Titulaires) (a : Stmt) (s : Service) : Prop :=
  ∀ f, a.frame = some f → Etranger titulaires s f → (a.apply s).appel = s.appel

/-- No stranger ends the call or, while it rings out, answers it or adds a candidate; what
an earlier answer still had to do changes nothing. -/
def Stmt.Licite (titulaires : Titulaires) : Stmt → Service → Prop
  | .raccroche f, s => ¬ Etranger titulaires s f
  | .decrocher f, s => ¬ Etranger titulaires s f
  | .candidat f _, s => s.appel.callEtat = .sortant → ¬ Etranger titulaires s f
  | .viderIceLocal f, s => Etranger titulaires s f → s.appel.iceLocalEnAttente = []
  | .armerTimeoutMedia (some f), s => Etranger titulaires s f → s.appel.timeoutMedia = true
  | _, _ => True

instance (titulaires : Titulaires) (a : Stmt) (s : Service) :
    Decidable (a.Licite titulaires s) :=
  match a with
  | .raccroche f | .decrocher f => inferInstanceAs (Decidable (¬ Etranger titulaires s f))
  | .candidat f _ =>
      inferInstanceAs (Decidable (s.appel.callEtat = .sortant → ¬ Etranger titulaires s f))
  | .viderIceLocal f =>
      inferInstanceAs (Decidable (Etranger titulaires s f → s.appel.iceLocalEnAttente = []))
  | .armerTimeoutMedia (some f) =>
      inferInstanceAs (Decidable (Etranger titulaires s f → s.appel.timeoutMedia = true))
  | .armerTimeoutMedia none | .setIceServers _ | .sortir _ _ | .setSession _ _ | .connecter _ _
  | .viderIce | .desarmer | .terminerAppel | .sonner _ _ _ | .mediaConnecte _ | .iceLocal _ _
  | .emettre _ | .setConversations _ => inferInstanceAs (Decidable True)

def EventIntact (titulaires : Titulaires) : CallEvent → Service → Prop
  | .act a, s => a.Intact titulaires s
  | _, _ => True

def EventLicite (titulaires : Titulaires) : CallEvent → Service → Prop
  | .act a, s => a.Licite titulaires s
  | _, _ => True

instance (titulaires : Titulaires) (e : CallEvent) (s : Service) :
    Decidable (EventLicite titulaires e s) :=
  match e with
  | .act a => inferInstanceAs (Decidable (a.Licite titulaires s))
  | .issue _ | .settle _ _ _ | .crash => inferInstanceAs (Decidable True)

variable {titulaires : Titulaires}

/-- An assignment made for a signal leaves the call as it is in the cases named. -/
theorem intact_iff {a : Stmt} {s : Service} {f : Frame} (ha : a.frame = some f) :
    a.Intact titulaires s ↔ (Etranger titulaires s f → (a.apply s).appel = s.appel) := by
  constructor
  · intro h
    exact h f ha
  · intro h f' hf'
    obtain rfl : f = f' := Option.some.inj (ha.symm.trans hf')
    exact h

/-- There is a call where there is a stranger to it. -/
theorem Etranger.enAppel {s : Service} {f : Frame} (h : Etranger titulaires s f) :
    s.appel.callEtat ≠ .aucun := by
  intro haucun
  rw [Etranger, haucun] at h
  exact h

/-- The device of the call is no stranger. -/
theorem not_etranger_of_pair {s : Service} {f : Frame} (ha : f.authentique = true)
    (hpair : ∀ device, s.appel.callPairDevice = some device → device = f.sender)
    (hsortant : s.appel.callEtat ≠ .sortant) : ¬ Etranger titulaires s f := by
  intro h
  unfold Etranger at h
  split at h
  · exact h
  · rename_i he
    exact hsortant he
  · obtain ⟨device, hdevice, hnot⟩ := (Option.any_eq_true _ _).mp h
    have hsender := hpair device hdevice
    simp [ha, hsender] at hnot

/-- A candidate is kept somewhere. -/
theorem candidat_appel_ne (s : Service) (data : Data) : (s.candidat data).appel ≠ s.appel := by
  intro h
  unfold Service.candidat at h
  split at h
  · have hlen := congrArg (fun a => a.iceEnAttente.length) h
    simp at hlen
  · rename_i session hs
    have hlen := congrArg (fun a => a.callSession.map (·.candidats.length)) h
    simp [hs] at hlen

/-- An assignment that does change the call must not be a stranger's. -/
theorem intact_iff_not {a : Stmt} {s : Service} {f : Frame} (ha : a.frame = some f)
    (hne : (a.apply s).appel ≠ s.appel) : a.Intact titulaires s ↔ ¬ Etranger titulaires s f := by
  rw [intact_iff ha]
  exact ⟨fun h hf => hne (h hf), fun h hf => absurd hf h⟩

theorem intact_iff_licite {a : Stmt} {s : Service} (hguard : a.Guard s) :
    a.Intact titulaires s ↔ a.Licite titulaires s := by
  cases a with
  | raccroche f =>
    refine intact_iff_not rfl fun h => ?_
    have hnone : none = s.appel.callId := congrArg Appel.callId h
    rw [show s.appel.callId = some f.callId from hguard] at hnone
    cases hnone
  | sonner conv f data =>
    refine iff_of_true ?_ trivial
    rw [intact_iff rfl]
    exact fun h => absurd hguard.2 h.enAppel
  | decrocher f =>
    refine intact_iff_not rfl fun h => ?_
    have hetat : .connecte = s.appel.callEtat := congrArg Appel.callEtat h
    rw [hguard.2.2] at hetat
    cases hetat
  | candidat f data =>
    by_cases hsortant : s.appel.callEtat = .sortant
    · have hiff : Stmt.Intact titulaires (.candidat f data) s ↔ ¬ Etranger titulaires s f :=
        intact_iff_not rfl (candidat_appel_ne s data)
      exact hiff.trans ⟨fun h _ => h, fun h => h hsortant⟩
    · -- The device of the call is known, and the candidate is its own.
      refine iff_of_true ?_ fun h => absurd h hsortant
      rw [intact_iff rfl]
      refine fun h => absurd h (not_etranger_of_pair hguard.1 (fun device hd => ?_) hsortant)
      have hany := hguard.2.2
      rw [hd] at hany
      simpa using hany
  | viderIceLocal f =>
    rw [intact_iff rfl, Stmt.Licite]
    refine imp_congr_right fun _ => ⟨fun h => ?_, fun h => ?_⟩
    · exact (congrArg Appel.iceLocalEnAttente h).symm
    · show { s.appel with iceLocalEnAttente := [] } = s.appel
      rw [← h]
  | armerTimeoutMedia f =>
    cases f with
    | none => exact iff_of_true (fun _ hf => by cases hf) trivial
    | some f =>
      rw [intact_iff rfl, Stmt.Licite]
      refine imp_congr_right fun _ => ⟨fun h => ?_, fun h => ?_⟩
      · exact (congrArg Appel.timeoutMedia h).symm
      · show { s.appel with timeoutMedia := true } = s.appel
        rw [← h]
  | setIceServers servers => exact iff_of_true (fun _ hf => by cases hf) trivial
  | sortir conv id => exact iff_of_true (fun _ hf => by cases hf) trivial
  | setSession conv id => exact iff_of_true (fun _ hf => by cases hf) trivial
  | connecter device id => exact iff_of_true (fun _ hf => by cases hf) trivial
  | viderIce => exact iff_of_true (fun _ hf => by cases hf) trivial
  | desarmer => exact iff_of_true (fun _ hf => by cases hf) trivial
  | terminerAppel => exact iff_of_true (fun _ hf => by cases hf) trivial
  | mediaConnecte connecte => exact iff_of_true (fun _ hf => by cases hf) trivial
  | iceLocal id data => exact iff_of_true (fun _ hf => by cases hf) trivial
  | emettre signals => exact iff_of_true (fun _ hf => by cases hf) trivial
  | setConversations conversations => exact iff_of_true (fun _ hf => by cases hf) trivial

theorem eventIntact_iff {e : CallEvent} {s : Service} (hguard : CallGuard e s) :
    EventIntact titulaires e s ↔ EventLicite titulaires e s := by
  cases e with
  | act a => exact intact_iff_licite hguard
  | issue q => exact Iff.rfl
  | settle t q x => exact Iff.rfl
  | crash => exact Iff.rfl

/-! ## Runs -/

/-- Whatever the other devices send, in any run the signals of strangers leave the call as it
is exactly when no such hangup, answer or candidate comes. -/
theorem callRun_intact_iff (titulaires : Titulaires) {conversations : List Conversation}
    {activerMediaAppel : Bool} {choices : List CallChoice} {p : CallPool}
    (hrun : callRun conversations activerMediaAppel choices = some p) :
    Always callSemantics.step (EventIntact titulaires) p.trace
        (.initial conversations activerMediaAppel) ↔
      Always callSemantics.step (EventLicite titulaires) p.trace
        (.initial conversations activerMediaAppel) :=
  always_iff_of_always (fun _ => True) (C := CallGuard) (fun _ _ _ _ _ _ _ => trivial)
    (fun _ _ _ hguard => eventIntact_iff hguard) trivial (callRun_isSafe hrun).guarded

/-- A correspondent with two devices. -/
def twoDevices : List Conversation := [⟨1, "pair", false, false, [20, 21], []⟩]

/-- Both are rung, and 20 answers. -/
def answeredByOne : List CallChoice :=
  [.start (.appeler 1 7), .settle 0 (.creds (some (some 1))), .resume 0, .settle 0 .done,
    .resume 0, .settle 0 .done, .resume 0,
    .start (.recevoirSignalAppel ⟨20, .answer, 7, true⟩), .settle 1 (.data .vide), .resume 1]

/-- Then 21 declines. -/
def declinedByOther : List CallChoice :=
  answeredByOne ++ [.start (.recevoirSignalAppel ⟨21, .decline, 7, true⟩)]

def endsForStranger (titulaires : Titulaires) : CallEvent → Service → Bool
  | .act (.raccroche f), s => decide (Etranger titulaires s f)
  | _, _ => false

/-- The call with 20 is over. -/
theorem declinedByOther_endsCall : ∃ p, callRun twoDevices false answeredByOne = some p ∧
    p.state.appel.callEtat = .connecte ∧ p.state.appel.callPairDevice = some 20 ∧
    ∃ p', callRun twoDevices false declinedByOther = some p' ∧ p'.state.appel = .aucun ∧
      ¬ Always callSemantics.step (EventIntact fun _ _ => true) p'.trace
        (.initial twoDevices false) := by
  refine ⟨_, rfl, by decide, by decide, _, rfl, by decide, fun h => ?_⟩
  have hspared : ∀ e s, EventIntact (fun _ _ => true) e s →
      endsForStranger (fun _ _ => true) e s = false := by
    intro e s hs
    unfold endsForStranger
    split
    · rename_i f
      refine decide_eq_false fun hf => hf.enAppel ?_
      exact (congrArg Appel.callEtat (hs f rfl hf)).symm
    · rfl
  exact absurd (callSemantics.scan_of_always hspared h) (by decide)

/-- Signals of 21 that come to nothing. -/
def overheardCall : List CallChoice :=
  answeredByOne ++
    [.start (.recevoirSignalAppel ⟨21, .answer, 7, true⟩), .settle 2 (.data .vide), .resume 2,
      .start (.recevoirSignalAppel ⟨21, .ice, 7, true⟩), .settle 3 (.data ⟨none, some 1⟩),
      .resume 3, .start (.recevoirSignalAppel ⟨21, .hangup, 8, true⟩)]

theorem overheardCall_intact : ∃ p, callRun twoDevices false overheardCall = some p ∧
    p.state.appel.callPairDevice = some 20 ∧
    Always callSemantics.step (EventIntact fun _ _ => true) p.trace
      (.initial twoDevices false) :=
  ⟨_, rfl, by decide, (@callRun_intact_iff _ _ _ overheardCall _ rfl).mpr (by decide)⟩

end ZiaCrypte.Calls

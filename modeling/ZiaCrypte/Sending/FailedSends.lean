import ZiaCrypte.Sending.SafeSends
import ZiaCrypte.Sending.Lines

/-!
# Messages that failed

A message that reached no device stays in its thread with a mark, which `toJson` leaves
out. A sending that fails saves nothing; but whatever saves the history of the thread later
saves the message with the rest, and it comes back as one that was sent.
-/
namespace ZiaCrypte.Sending

open ZiaCrypte.Lib ZiaCrypte.Engine
open ZiaCrypte.Server (Uuid Auth Database)
open ZiaCrypte.Inbox (Text ChatMessage)

/-- A message none of whose copies was accepted is shown as failed. -/
def Marquee (s : Monde) (l : Ligne) : Prop :=
  ∀ n, l.envoi = some n → ¬ s.Accepte n → l.message.sendFailed = true

/-- The threads show every such message as failed. -/
def EchecsMontres (s : Monde) : Prop := ∀ c ∈ s.conversations, ∀ l ∈ c.messages, Marquee s l

/-- A history that is handed to the vault holds no failed message that no device has. -/
def SansEchec : OutboxEvent → Monde → Prop
  | .issue (.vaultWrite _ lignes), s =>
      ∀ l ∈ lignes, l.message.sendFailed = true → ∀ n ∈ l.envoi, s.Accepte n
  | _, _ => True

instance (e : OutboxEvent) (s : Monde) : Decidable (SansEchec e s) := by
  unfold SansEchec
  split <;> infer_instance

/-- What is saved was accepted. -/
def Acquise (s : Monde) (l : Ligne) : Prop := ∀ n, l.envoi = some n → s.Accepte n

/-! ## The invariant -/

variable {nom : Uuid → Text} {s s' : Monde}

theorem Plus.accepte (h : Plus s s') {n : Nat} (hn : s.Accepte n) : s'.Accepte n := by
  obtain ⟨copie, hcopie⟩ := hn
  exact ⟨copie, h.copies hcopie⟩

/-- A line without the mark has a copy that was accepted. -/
theorem Marquee.acquise {l : Ligne} (h : Marquee s l)
    (hsans : l.message.sendFailed = true → ∀ n ∈ l.envoi, s.Accepte n) : Acquise s l := by
  intro n hn
  by_cases haccepte : s.Accepte n
  · exact haccepte
  · exact hsans (h n hn haccepte) n hn

theorem suivies_marquee : Suivies nom Marquee Acquise where
  plus hplus h n hn hnot := h n hn fun haccepte => hnot (hplus.accepte haccepte)
  plusVault hplus h n hn := hplus.accepte (h n hn)
  meme hmeme h n hn hnot := by
    rw [hmeme.sendFailed]
    exact h n (hmeme.envoi.symm.trans hn) hnot
  envoyee h n hn hnot := (h.acceptee n hn).resolve_right hnot
  autre hnone _ n hn _ := by
    rw [hnone] at hn
    cases hn
  saved h := h
  relue h n hn hnot := absurd (h n hn) hnot

abbrev EchecsInv : Monde → Prop := Partout Marquee Acquise

theorem EchecsInv.event (h : EchecsInv s) {e : OutboxEvent} (hguard : OutboxGuard nom e s)
    (hsans : SansEchec e s) : EchecsInv ((outboxSemantics nom).apply e s) := by
  refine Partout.event suivies_marquee (fun _ _ h => h) h hguard fun conv lignes he l hl hp => ?_
  rw [he] at hsans
  exact hp.acquise (hsans l hl)

/-! ## Runs -/

/-- In a run where no failed message is handed to the vault, every state shows the messages
that no device has as failed, after a restart too. -/
theorem outboxRun_echecsMontres {nom : Uuid → Text} {me : Auth} {db : Database}
    {choices : List (Choice OutboxTask Outside)} {p : OutboxPool}
    (hrun : outboxRun nom me db choices = some p)
    (hsans : Always (outboxSemantics nom).step SansEchec p.trace (.initial me db)) :
    Always (outboxSemantics nom).step
        (fun e s => EchecsMontres ((outboxSemantics nom).apply e s)) p.trace (.initial me db) ∧
      EchecsMontres p.state := by
  have hsafe := outboxRun_isSafe hrun
  have hboth := hsafe.guarded.and hsans
  have hstart : EchecsInv (.initial me db) := Partout.initial me db
  have hstep : ∀ e s t, EchecsInv s → OutboxGuard nom e s ∧ SansEchec e s →
      (outboxSemantics nom).step e s = some t → EchecsInv t := fun e s t hs he ht =>
    Option.some.inj ht ▸ hs.event he.1 he.2
  refine ⟨?_, (run_invariant_of_always EchecsInv hstep hstart hboth hsafe.replay).fils⟩
  exact always_of_invariant EchecsInv hstep (fun _ _ hs he => (hs.event he.1 he.2).fils) hstart
    hboth

/-- Two accounts in one conversation; the first has two devices. -/
def sampleServer : Database where
  users := [⟨1, none⟩, ⟨2, none⟩]
  devices := [⟨10, 1, true⟩, ⟨11, 1, true⟩, ⟨20, 2, true⟩]
  conversations := [⟨5, .direct, some 1⟩]
  participants := [⟨5, 1, .member, 0, none⟩, ⟨5, 2, .member, 0, none⟩]
  blocks := []
  messageBlobs := []

def sampleMe : Auth := ⟨1, 10⟩

def sampleNom (id : Uuid) : Text := List.replicate id 0x31

/-- The conversation with the account 2. -/
def samplePair : Conversation := ⟨5, false, false, [20], [], 0, []⟩

/-- The message cannot be encrypted. -/
def failedSend : List (Choice OutboxTask Outside) :=
  [.start (.autre (.charger samplePair)), .start (.autre (.setActive (some 5))),
    .start (.sendPayload [0x61] none 1), .settle 2 .failed, .resume 2]

/-- A message comes in behind it and the thread is saved. -/
def failedThenRestarted : List (Choice OutboxTask Outside) :=
  failedSend ++
    [.start (.retoucherEtSauver 5 (.recevoir (ChatMessage.new [0x62] false 2))), .settle 3 .done,
      .crash, .start (.autre (.charger samplePair))]

/-- The message that nobody has is shown as sent. -/
theorem failedThenRestarted_shownAsSent : ∃ p,
    outboxRun sampleNom sampleMe sampleServer failedThenRestarted = some p ∧
      p.state.copies = [] ∧
      (p.state.messages 5).map (fun l => (l.envoi, l.message.sendFailed)) =
        [(some 0, false), (none, false)] ∧ ¬ EchecsMontres p.state := by
  refine ⟨_, rfl, by decide, by decide, fun h => ?_⟩
  have hfailed := h _ (List.mem_singleton_self _) _ List.mem_cons_self 0 rfl (by decide)
  cases hfailed

/-- The message is sent again before the history is saved. -/
def sentAgain : List (Choice OutboxTask Outside) :=
  failedSend ++
    [.start (.renvoyer ⟨messageEnvoye sampleNom [0x61] none none 1 0 0 0 [], some 0⟩ 3),
      .settle 3 (.chiffre [1] [2]), .resume 3, .settle 3 (.handled 7 true), .resume 3,
      .settle 3 .done, .resume 3, .crash, .start (.autre (.charger samplePair))]

theorem sentAgain_echecsMontres : ∃ p,
    outboxRun sampleNom sampleMe sampleServer sentAgain = some p ∧
      Always (outboxSemantics sampleNom).step
        (fun e s => EchecsMontres ((outboxSemantics sampleNom).apply e s)) p.trace
        (.initial sampleMe sampleServer) ∧ EchecsMontres p.state :=
  ⟨_, rfl, @outboxRun_echecsMontres sampleNom sampleMe sampleServer sentAgain _ rfl (by decide)⟩

end ZiaCrypte.Sending

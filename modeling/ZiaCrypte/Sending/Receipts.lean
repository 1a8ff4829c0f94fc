import ZiaCrypte.Sending.FailedSends

/-!
# The delivery of a message

A receipt of `_sendPayload` is the id of a copy, and `_checkDeliveries` takes a message for
delivered when a copy under one of its receipts was fetched. The devices of the sender are
left out of the pairwise receipts when the conversation knows them for its own; the grouped
copies are all under one id, theirs with the others.
-/
namespace ZiaCrypte.Sending

open ZiaCrypte.Lib ZiaCrypte.Engine
open ZiaCrypte.Server (Uuid Auth Database MessageBlob)
open ZiaCrypte.Inbox (Text ChatMessage)

variable (compte : Uuid → Uuid)

/-- A device of another account has fetched a copy of the message; `compte` is the account
of a device. -/
def RecuAilleurs (envoi : Nat) (s : Monde) : Prop :=
  ∃ r ∈ s.releves, (envoi, r.2) ∈ s.copies ∧ compte r.1 ≠ s.me.userId

instance (envoi : Nat) (s : Monde) : Decidable (RecuAilleurs compte envoi s) := by
  unfold RecuAilleurs
  infer_instance

/-- Where a check marks a message, a device of another account has fetched it. -/
def RemiseJuste : OutboxEvent → Monde → Prop
  | .act (.retoucher conv (.remettre remis)), s => ∀ l ∈ s.messages conv,
      ARemettre remis l.message → ∃ n ∈ l.envoi, RecuAilleurs compte n s
  | _, _ => True

/-- A device of the sender is not the first to fetch a message under one of its receipts. -/
def AutresDAbord : OutboxEvent → Monde → Prop
  | .settle _ (.updateMany device pending) (.handled _ _), s => compte device = s.me.userId →
      ∀ b ∈ pending, b.senderDeviceId = some s.me.deviceId →
        ∀ r ∈ s.recepisses, r.2 = b.clientMessageId → RecuAilleurs compte r.1 s
  | .act (.recepisse envoi copie), s => ∀ r ∈ s.releves, r.2 = copie →
      compte r.1 = s.me.userId → RecuAilleurs compte envoi s
  | _, _ => True

instance (e : OutboxEvent) (s : Monde) : Decidable (AutresDAbord compte e s) := by
  unfold AutresDAbord
  split <;> infer_instance

instance (e : OutboxEvent) (s : Monde) : Decidable (RemiseJuste compte e s) := by
  unfold RemiseJuste
  split <;> infer_instance

/-! ## Receipts -/

/-- The receipts of a message are those of its sending. -/
def AvecRecepisses (nom : Uuid → Text) (s : Monde) (l : Ligne) : Prop :=
  ∀ t ∈ l.message.pendingReceiptIds, ∃ n copie,
    l.envoi = some n ∧ (n, copie) ∈ s.recepisses ∧ nom copie = t

/-- What is known of the receipts that are waited for. -/
structure Recepisses (nom : Uuid → Text) (s : Monde) : Prop where
  lignes : Partout (AvecRecepisses nom) (AvecRecepisses nom) s
  copies : s.recepisses ⊆ s.copies
  ailleurs : ∀ r ∈ s.recepisses, ∀ d ∈ s.releves, d.2 = r.2 → RecuAilleurs compte r.1 s

variable {compte} {nom : Uuid → Text} {s s' : Monde}

theorem AvecRecepisses.plus {l : Ligne} (h : AvecRecepisses nom s l) (hplus : Plus s s') :
    AvecRecepisses nom s' l := by
  intro t ht
  obtain ⟨n, copie, henvoi, hmem, heq⟩ := h t ht
  exact ⟨n, copie, henvoi, hplus.recepisses hmem, heq⟩

theorem suivies_avecRecepisses :
    Suivies nom (AvecRecepisses nom) (AvecRecepisses nom) where
  plus hplus h := h.plus hplus
  plusVault hplus h := h.plus hplus
  meme hmeme h := by
    unfold AvecRecepisses
    rw [hmeme.recepisses, hmeme.envoi]
    exact h
  envoyee {s l} h t ht := by
    obtain ⟨n, hn⟩ := Option.ne_none_iff_exists'.mp h.envoi
    obtain ⟨copie, hmem, heq⟩ := h.recepisses n hn t ht
    exact ⟨n, copie, hn, hmem, heq⟩
  autre _ hempty t ht := by
    rw [hempty] at ht
    cases ht
  saved h := h
  relue h := h

theorem RecuAilleurs.plus {envoi : Nat} (h : RecuAilleurs compte envoi s) (hplus : Plus s s') :
    RecuAilleurs compte envoi s' := by
  obtain ⟨r, hr, hcopie, hcompte⟩ := h
  rw [← hplus.me] at hcompte
  exact ⟨r, hplus.releves hr, hplus.copies hcopie, hcompte⟩

/-- A copy that was fetched by a device of another account, or else after one. -/
theorem recuAilleurs_of_releve {r : Nat × Uuid} {d : Uuid × Uuid} (hcopie : r ∈ s.copies)
    (hd : d ∈ s.releves) (heq : d.2 = r.2)
    (hpropre : compte d.1 = s.me.userId → RecuAilleurs compte r.1 s) :
    RecuAilleurs compte r.1 s := by
  by_cases hcompte : compte d.1 = s.me.userId
  · exact hpropre hcompte
  · exact ⟨d, hd, by rw [heq]; exact hcopie, hcompte⟩

/-! ## Steps -/

/-- Neither a receipt nor a fetch is recorded. -/
theorem Recepisses.ailleurs_of_same (h : Recepisses compte nom s) (hplus : Plus s s')
    (hrecepisses : s'.recepisses = s.recepisses) (hreleves : s'.releves = s.releves) :
    ∀ r ∈ s'.recepisses, ∀ d ∈ s'.releves, d.2 = r.2 → RecuAilleurs compte r.1 s' := by
  rw [hrecepisses, hreleves]
  exact fun r hr d hd heq => (h.ailleurs r hr d hd heq).plus hplus

theorem Recepisses.of_same (h : Recepisses compte nom s) (hplus : Plus s s')
    (hlignes : Partout (AvecRecepisses nom) (AvecRecepisses nom) s')
    (hrecepisses : s'.recepisses = s.recepisses) (hreleves : s'.releves = s.releves) :
    Recepisses compte nom s' := by
  refine ⟨hlignes, ?_, h.ailleurs_of_same hplus hrecepisses hreleves⟩
  rw [hrecepisses]
  exact List.Subset.trans h.copies hplus.copies

theorem Recepisses.act (h : Recepisses compte nom s) {a : Stmt} (hguard : a.Guard nom s)
    (hordre : AutresDAbord compte (.act a) s) : Recepisses compte nom (a.apply s) := by
  have hplus := (pas_act a s).plus
  have hlignes := h.lignes.act suivies_avecRecepisses hguard
  cases a with
  | recepisse envoi copie =>
    have hsubset : (Stmt.apply (.recepisse envoi copie) s).recepisses ⊆ s.copies :=
      List.cons_subset.mpr ⟨hguard, h.copies⟩
    refine ⟨hlignes, hsubset, fun r hr d hd heq => ?_⟩
    rcases List.mem_cons.mp hr with rfl | hold
    · exact (recuAilleurs_of_releve hguard hd heq (hordre d hd heq)).plus hplus
    · exact (h.ailleurs r hold d hd heq).plus hplus
  | charger c =>
    have hregistre : (Stmt.apply (.charger c) s).recepisses = s.recepisses ∧
        (Stmt.apply (.charger c) s).releves = s.releves := by
      show (if _ then s else _ : Monde).recepisses = _ ∧ (if _ then s else _ : Monde).releves = _
      split <;> exact ⟨rfl, rfl⟩
    exact h.of_same hplus hlignes hregistre.1 hregistre.2
  | _ => exact h.of_same hplus hlignes rfl rfl

theorem Recepisses.issue (h : Recepisses compte nom s) {q : Request}
    (hguard : OutboxGuard nom (.issue q) s) : Recepisses compte nom (q.issue s) := by
  have hplus := (pas_issue q s).plus
  have hlignes := h.lignes.issue suivies_avecRecepisses hguard fun _ _ _ _ _ hp => hp
  cases q <;> exact h.of_same hplus hlignes rfl rfl

/-- A device fetches its rows. -/
theorem Recepisses.relever (h : Recepisses compte nom s) {t device now : Nat}
    {pending : List MessageBlob} {received : Bool}
    (hguard : OutboxGuard nom (.settle t (.updateMany device pending) (.handled now received)) s)
    (hordre : AutresDAbord compte
      (.settle t (.updateMany device pending) (.handled now received)) s) :
    Recepisses compte nom (s.relever device pending now) := by
  have hplus : Plus s (s.relever device pending now) := (pas_settle hguard).plus
  refine ⟨h.lignes.settle suivies_avecRecepisses hguard, h.copies, fun r hr d hd heq => ?_⟩
  rcases List.mem_append.mp hd with hnew | hold
  · refine recuAilleurs_of_releve (hplus.copies (h.copies hr)) hd heq fun hcompte => ?_
    obtain ⟨b, hb, rfl⟩ := List.mem_map.mp hnew
    obtain ⟨hpending, hsender⟩ := List.mem_filter.mp hb
    exact (hordre hcompte b hpending (of_decide_eq_true hsender) r hr heq.symm).plus hplus
  · exact (h.ailleurs r hr d hold heq).plus hplus

theorem Recepisses.settle (h : Recepisses compte nom s) {t : Nat} {q : Request} {x : Outside}
    (hguard : OutboxGuard nom (.settle t q x) s)
    (hordre : AutresDAbord compte (.settle t q x) s) : Recepisses compte nom (q.settle x s) := by
  have hplus := (pas_settle hguard).plus
  have hlignes := h.lignes.settle suivies_avecRecepisses hguard
  cases q with
  | updateMany device pending =>
    cases x with
    | handled now received => exact h.relever hguard hordre
    | _ => exact h
  | sendGroupMessage envoi body =>
    cases x with
    | handled now received => exact h.of_same hplus hlignes rfl rfl
    | _ => exact h
  | sendMessage envoi body =>
    cases x with
    | handled now received => exact h.of_same hplus hlignes rfl rfl
    | _ => exact h
  | vaultWrite conv lignes =>
    cases x with
    | done => exact h.of_same hplus hlignes rfl rfl
    | _ => exact h
  | _ => exact h

theorem Recepisses.event (h : Recepisses compte nom s) {e : OutboxEvent}
    (hguard : OutboxGuard nom e s) (hordre : AutresDAbord compte e s) :
    Recepisses compte nom ((outboxSemantics nom).apply e s) := by
  cases e with
  | act a => exact h.act hguard hordre
  | issue q => exact h.issue hguard
  | settle t q x => exact h.settle hguard hordre
  | crash => exact ⟨h.lignes.redemarrer fun _ hl => hl, h.copies, h.ailleurs⟩

/-- What the server reports was fetched under the receipts of the message. -/
theorem Recepisses.remiseJuste (hnom : Function.Injective nom) (h : Recepisses compte nom s)
    {e : OutboxEvent} (hguard : OutboxGuard nom e s) : RemiseJuste compte e s := by
  unfold RemiseJuste
  split
  · rename_i conv remis
    intro l hl hremettre
    obtain ⟨-, -, t, ht, hremis⟩ := hremettre
    obtain ⟨c, hc, hmem⟩ := mem_messages hl
    obtain ⟨n, copie, henvoi, hrecepisse, rfl⟩ := h.lignes.fils c hc l hmem t ht
    obtain ⟨device, copie', hreleve, heq⟩ := hguard _ hremis
    obtain rfl := hnom heq
    exact ⟨n, henvoi, h.ailleurs _ hrecepisse _ hreleve rfl⟩
  · trivial

theorem Recepisses.initial (me : Auth) (db : Database) :
    Recepisses compte nom (.initial me db) where
  lignes := .initial me db
  copies := List.Subset.refl _
  ailleurs _ hr := absurd hr List.not_mem_nil

/-! ## Runs -/

/-- In a run where no device of the sender is the first to fetch a message under one of its
receipts, a check only marks what a device of another account has fetched. -/
theorem outboxRun_remiseJuste {nom : Uuid → Text} (hnom : Function.Injective nom)
    (compte : Uuid → Uuid) {me : Auth} {db : Database}
    {choices : List (Choice OutboxTask Outside)} {p : OutboxPool}
    (hrun : outboxRun nom me db choices = some p)
    (hordre : Always (outboxSemantics nom).step (AutresDAbord compte) p.trace (.initial me db)) :
    Always (outboxSemantics nom).step (RemiseJuste compte) p.trace (.initial me db) := by
  have hsafe := outboxRun_isSafe hrun
  refine always_of_invariant (Recepisses compte nom)
    (fun e s t hs he ht => Option.some.inj ht ▸ hs.event he.1 he.2)
    (fun e s hs he => hs.remiseJuste hnom he.1) (.initial me db) (hsafe.guarded.and hordre)

def sampleCompte (device : Uuid) : Uuid := if device = 20 then 2 else 1

/-- A group with another device of the account, and one of the account 2. -/
def sampleGroup : Conversation := ⟨5, true, false, [11, 20], [11], 0, []⟩

/-- One upload for both devices, under one id. -/
def groupedSend : List (Choice OutboxTask Outside) :=
  [.start (.autre (.charger sampleGroup)), .start (.autre (.setActive (some 5))),
    .start (.sendPayload [0x61] none 1), .settle 2 (.cleGroupe true), .resume 2,
    .settle 2 (.chiffre [] [1]), .resume 2, .settle 2 (.handled 7 true), .resume 2,
    .settle 2 .done, .resume 2]

/-- Only the sender's other device fetches it. -/
def fetchedByOwnDevice : List (Choice OutboxTask Outside) :=
  groupedSend ++
    [.start (.getMessages ⟨1, 11⟩), .settle 3 (.handled 8 true), .resume 3,
      .start .checkDeliveries, .settle 4 (.handled 9 true), .resume 4]

theorem fetchedByOwnDevice_delivered : ∃ p,
    outboxRun sampleNom sampleMe sampleServer fetchedByOwnDevice = some p ∧
      p.state.releves = [(11, 1)] ∧
      (p.state.messages 5).map (·.message.delivered) = [true] ∧
      ¬ Always (outboxSemantics sampleNom).step (RemiseJuste sampleCompte) p.trace
        (.initial sampleMe sampleServer) :=
  ⟨_, rfl, by decide, by decide, by decide⟩

/-- The device of the account 2 is the first to fetch it. -/
def fetchedByBoth : List (Choice OutboxTask Outside) :=
  groupedSend ++
    [.start (.getMessages ⟨2, 20⟩), .settle 3 (.handled 8 true), .resume 3,
      .start (.getMessages ⟨1, 11⟩), .settle 4 (.handled 8 true), .resume 4,
      .start .checkDeliveries, .settle 5 (.handled 9 true), .resume 5]

theorem injective_sampleNom : Function.Injective sampleNom := fun a b h => by
  have hlength := congrArg List.length h
  rwa [sampleNom, sampleNom, List.length_replicate, List.length_replicate] at hlength

theorem fetchedByBoth_remiseJuste : ∃ p,
    outboxRun sampleNom sampleMe sampleServer fetchedByBoth = some p ∧
      (p.state.messages 5).map (·.message.delivered) = [true] ∧
      Always (outboxSemantics sampleNom).step (RemiseJuste sampleCompte) p.trace
        (.initial sampleMe sampleServer) :=
  ⟨_, rfl, by decide, @outboxRun_remiseJuste sampleNom injective_sampleNom sampleCompte sampleMe
    sampleServer fetchedByBoth _ rfl (by decide)⟩

end ZiaCrypte.Sending

import ZiaCrypte.Inbox.Readings
import ZiaCrypte.Inbox.PollSteps

/-!
# What of the engine a message changes

A part of the engine that only `senderKeyProcess` changes is changed by a message whose
contents distribute a key, and in no other way. What was opened for its contents was opened
with the chain of a device, or with the session of a device.
-/
namespace ZiaCrypte.Inbox

open ZiaCrypte.Lib ZiaCrypte.Engine ZiaCrypte.Chat

/-! ## A part of the engine that only `senderKeyProcess` changes -/

section View

variable {E V : Type} {P : Platform E} {v : E → V} {now : Int}

/-- No other call changes the part that is looked at. -/
structure Preserves (P : Platform E) (v : E → V) : Prop where
  sealedOpen : ∀ b e, v (P.sealedOpen b e).2 = v e
  acceptSession : ∀ h e, v (P.acceptSession h e).2 = v e
  importSession : ∀ b e, v (P.importSession b e).2 = v e
  exportSession : ∀ i e, v (P.exportSession i e).2 = v e
  decrypt : ∀ i h c e, v (P.decrypt i h c e).2 = v e
  senderKeyDecrypt : ∀ g d c e, v (P.senderKeyDecrypt g d c e).2 = v e
  diffuserLu : ∀ c ids e, v (P.diffuserLu c ids e).2 = v e

variable (h : Preserves P v)
include h

theorem enveloppe_view (m : Incoming) (s : State E) :
    v (enveloppe P m s).1.outside = v s.outside := by
  unfold enveloppe ouvrirScelle
  split
  · split
    · rfl
    · dsimp only
      split <;> exact h.sealedOpen _ _
  · rfl

theorem restoreEach_view (conv : Text) (devices : List Text) (s : State E) :
    v (restoreEach P conv devices s).outside = v s.outside := by
  induction devices generalizing s with
  | nil => rfl
  | cons device devices ih =>
    rw [restoreEach, ih]
    cases s.conv? conv with
    | none => rfl
    | some c =>
      dsimp only
      split
      · rfl
      split
      · rfl
      split
      · rfl
      split <;> exact h.importSession _ _

theorem resolveConversation_view {m : Incoming} {s s' : State E} {conv : Text}
    (hresolve : resolveConversation P now m s = some (conv, s')) :
    v s'.outside = v s.outside := by
  have hrestore : ∀ id c, v (restoreSessions P id (s.putConv id c)).outside = v s.outside :=
    fun id c => restoreEach_view h id _ _
  simp only [resolveConversation, Option.bind_eq_bind, Option.bind_eq_some_iff] at hresolve
  obtain ⟨convId, -, hresolve⟩ := hresolve
  split at hresolve
  · split at hresolve
    · obtain ⟨rfl, rfl⟩ := Prod.mk.inj (Option.some.inj hresolve)
      exact hrestore _ _
    · obtain ⟨peer, -, hresolve⟩ := Option.bind_eq_some_iff.mp hresolve
      obtain ⟨rfl, rfl⟩ := Prod.mk.inj (Option.some.inj hresolve)
      exact hrestore _ _
  · obtain ⟨name, -, hresolve⟩ := Option.bind_eq_some_iff.mp hresolve
    obtain ⟨userId, -, hresolve⟩ := Option.bind_eq_some_iff.mp hresolve
    obtain ⟨device, -, hresolve⟩ := Option.bind_eq_some_iff.mp hresolve
    obtain ⟨rfl, rfl⟩ := Prod.mk.inj (Option.some.inj hresolve)
    exact hrestore _ _

theorem openGroup_view (conv sender : Text) (m : Incoming) (s : State E) :
    v (openGroup P conv sender m s).state.outside = v s.outside := by
  unfold openGroup
  split
  · rfl
  · dsimp only
    split <;> exact h.senderKeyDecrypt _ _ _ _

theorem openWithSession_view (conv sender : Text) (header : Bytes) (m : Incoming) (s : State E) :
    v (openWithSession P conv sender header m s).state.outside = v s.outside := by
  unfold openWithSession
  split
  · rfl
  split
  · rfl
  · dsimp only
    split <;> exact h.decrypt _ _ _ _

omit h in
/-- Pinning asks nothing of the engine. -/
theorem checkAndPin_outside {sender : Text} {userId : Json} {key : PublicKey} {s s' : State E}
    (hpin : checkAndPin sender userId key s = .accepted s' ∨
      checkAndPin sender userId key s = .changed s') : s'.outside = s.outside := by
  unfold checkAndPin at hpin
  split at hpin
  · obtain hpin | hpin := hpin <;> cases hpin
  · obtain hpin | hpin := hpin <;> cases hpin
    rfl
  · split at hpin
    · obtain hpin | hpin := hpin <;> cases hpin
      rfl
    · split at hpin
      · obtain hpin | hpin := hpin <;> cases hpin
        rfl
      · obtain hpin | hpin := hpin <;> cases hpin
        rfl

theorem openPairwise_view (conv sender : Text) (unpacked : Envelope.Unpacked) (m : Incoming)
    (s : State E) : v (openPairwise P conv sender unpacked m s).state.outside = v s.outside := by
  unfold openPairwise
  split
  · split
    · exact openWithSession_view h conv sender _ m s
    · split
      · rfl
      · rename_i s' hpin
        exact congrArg v (checkAndPin_outside (.inr hpin))
      · rename_i s' hpin
        have hsame : v s'.outside = v s.outside := congrArg v (checkAndPin_outside (.inl hpin))
        dsimp only
        split
        · exact (h.acceptSession _ _).trans hsame
        · exact (openWithSession_view h conv sender _ m _).trans
            ((h.acceptSession _ _).trans hsame)
  · exact openWithSession_view h conv sender _ m s

theorem openMessage_view (conv : Text) (m : Incoming) (s : State E) :
    v (openMessage P conv m s).state.outside = v s.outside := by
  unfold openMessage
  split
  · rfl
  split
  · rfl
  split
  · exact openGroup_view h conv _ m s
  split
  · rfl
  · exact openPairwise_view h conv _ _ m s

theorem recevoirCanal_view (m : Incoming) (s : State E) :
    v (recevoirCanal P now m s).1.outside = v s.outside := by
  unfold recevoirCanal
  split
  · rfl
  rename_i canalId _
  split
  · rfl
  split
  · rfl
  split
  · rfl
  · rfl
  rename_i sender _
  have hopen := openGroup_view h canalId sender m s
  split
  · rename_i hskip
    rw [hskip] at hopen
    exact hopen
  · rename_i hthrow
    rw [hthrow] at hopen
    exact hopen
  · rename_i hclair
    rw [hclair] at hopen
    dsimp only
    split
    · exact hopen
    split
    · exact hopen
    · rw [outside_saveHistory]
      exact hopen

theorem saveSessions_view (conv : Text) (s : State E) :
    v (saveSessions P conv s).outside = v s.outside := by
  have hsave : ∀ entries s, v (saveEach P conv entries s).outside = v s.outside := by
    intro entries
    induction entries with
    | nil => exact fun s => rfl
    | cons entry entries ih =>
      intro s
      rw [saveEach, ih]
      dsimp only
      split <;> exact h.exportSession _ _
  exact hsave _ s

theorem marquerLu_view (conv : Text) (s : State E) :
    v (marquerLu P conv s).outside = v s.outside := by
  unfold marquerLu
  split
  · rfl
  split
  · rfl
  dsimp only
  split
  · rfl
  · exact h.diffuserLu _ _ _

theorem Ecriture.faire_view (e : Ecriture) (s : State E) :
    v (e.faire P s).outside = v s.outside := by
  cases e with
  | historique conv => exact congrArg v (outside_saveHistory s conv)
  | sessions conv => exact saveSessions_view h conv s
  | lu conv =>
    rw [Ecriture.faire]
    split
    · exact marquerLu_view h conv s
    · rfl
  | conversations => rfl

end View

/-! ## What a message is read as -/

/-- A message that was opened for its contents. `groupe` has what was sealed once for the
group; where there is nothing, the session of the device opened it. -/
structure Lecture where
  conv : Text
  device : Text
  groupe : Option Bytes
  plain : Bytes
  deriving DecidableEq

section Lectures

variable {E V : Type} (P : Platform E) {v : E → V} (now : Int)

/-- What the message was sealed as for a group. -/
def chiffreDeGroupe (m : Incoming) : Option Bytes := do
  let entete ← m.header.asString.bind P.base64Decode
  if Envelope.estGroupe entete then m.ciphertext.asString.bind P.base64Decode else none

def lecture (m : Incoming) (s : State E) : Option Lecture :=
  match enveloppe P m s with
  | (_, none) => none
  | (s, some m) =>
      if m.channelId.isNull then
        match resolveConversation P now m s with
        | none => none
        | some (conv, s) =>
            match openMessage P conv m s with
            | .clair _ sender plain => some ⟨conv, sender, chiffreDeGroupe P m, plain⟩
            | _ => none
      else none

variable {P now} {m : Incoming} {s : State E} {l : Lecture}

theorem openGroup_eq_clair {conv sender device : Text} {plain : Bytes} {s' : State E}
    (h : openGroup P conv sender m s = .clair s' device plain) :
    device = sender ∧ ∃ c, m.ciphertext.asString.bind P.base64Decode = some c ∧
      (P.senderKeyDecrypt conv sender c s.outside).1 = some plain := by
  unfold openGroup at h
  split at h
  · cases h
  · rename_i c hc
    dsimp only at h
    split at h
    · cases h
    · rename_i hplain
      cases h
      exact ⟨rfl, c, hc, hplain⟩

theorem openWithSession_eq_clair {conv sender device : Text} {header plain : Bytes} {s' : State E}
    (h : openWithSession P conv sender header m s = .clair s' device plain) :
    device = sender ∧ ∃ session c, (s.conv? conv).bind (·.sessions.get? sender) = some session ∧
      (P.decrypt session header c s.outside).1 = some plain := by
  unfold openWithSession at h
  split at h
  · cases h
  rename_i session hsession
  split at h
  · cases h
  · rename_i c hc
    dsimp only at h
    split at h
    · cases h
    · rename_i hplain
      cases h
      exact ⟨rfl, session, c, hsession, hplain⟩

theorem openPairwise_eq_clair {conv sender device : Text} {unpacked : Envelope.Unpacked}
    {plain : Bytes} {s' : State E}
    (h : openPairwise P conv sender unpacked m s = .clair s' device plain) :
    device = sender ∧ ∃ (s₁ : State E) (session : Nat) (c : Bytes),
      (s₁.conv? conv).bind (·.sessions.get? sender) = some session ∧
        (P.decrypt session unpacked.ratchetHeader c s₁.outside).1 = some plain := by
  unfold openPairwise at h
  split at h
  · split at h
    · obtain ⟨hdevice, h⟩ := openWithSession_eq_clair h
      exact ⟨hdevice, s, h⟩
    · split at h
      · cases h
      · cases h
      · dsimp only at h
        split at h
        · cases h
        · obtain ⟨hdevice, h⟩ := openWithSession_eq_clair h
          exact ⟨hdevice, _, h⟩
  · obtain ⟨hdevice, h⟩ := openWithSession_eq_clair h
    exact ⟨hdevice, s, h⟩

/-- A message is opened for its contents with the chain of its device, or with the session of
its device in its conversation. -/
theorem openMessage_eq_clair {conv device : Text} {plain : Bytes} {s' : State E}
    (h : openMessage P conv m s = .clair s' device plain) :
    (∃ c, chiffreDeGroupe P m = some c ∧
      (P.senderKeyDecrypt conv device c s.outside).1 = some plain) ∨
    (chiffreDeGroupe P m = none ∧ ∃ (s₁ : State E) (session : Nat) (header c : Bytes),
      (s₁.conv? conv).bind (·.sessions.get? device) = some session ∧
        (P.decrypt session header c s₁.outside).1 = some plain) := by
  unfold openMessage at h
  split at h
  · cases h
  split at h
  · cases h
  rename_i entete hentete
  split at h
  · rename_i hgroupe
    obtain ⟨rfl, c, hc, hplain⟩ := openGroup_eq_clair h
    refine .inl ⟨c, ?_, hplain⟩
    rw [chiffreDeGroupe, hentete]
    exact (if_pos hgroupe).trans hc
  · rename_i hgroupe
    split at h
    · cases h
    · rename_i unpacked hunpacked
      obtain ⟨rfl, s₁, session, c, hsession, hplain⟩ := openPairwise_eq_clair h
      refine .inr ⟨?_, s₁, session, _, c, hsession, hplain⟩
      rw [chiffreDeGroupe, hentete]
      exact if_neg hgroupe

theorem lecture_cases (h : lecture P now m s = some l) :
    ∃ m' s', Opens P now m s m' l.conv l.device l.plain s' ∧ l.groupe = chiffreDeGroupe P m' := by
  unfold lecture at h
  split at h
  · cases h
  rename_i s₀ m' henv
  split at h
  · rename_i hchannel
    split at h
    · cases h
    rename_i conv s₁ hresolve
    split at h
    · rename_i s' sender plain hopen
      cases h
      exact ⟨m', s', ⟨hchannel, s₀, s₁, henv, hresolve, hopen⟩, rfl⟩
    · cases h
  · cases h

theorem Opens.lecture_eq {m' : Incoming} {conv sender : Text} {plain : Bytes} {s' : State E}
    (h : Opens P now m s m' conv sender plain s') :
    lecture P now m s = some ⟨conv, sender, chiffreDeGroupe P m', plain⟩ := by
  obtain ⟨hchannel, s₀, s₁, henv, hresolve, hopen⟩ := h
  rw [lecture, henv]
  dsimp only
  rw [if_pos hchannel, hresolve]
  dsimp only
  rw [hopen]

/-- A message that was not sealed for a group was opened by the session that the conversation
has with its device. -/
theorem lecture_session (h : lecture P now m s = some l) (hgroupe : l.groupe = none) :
    ∃ (s₁ : State E) (session : Nat) (header c : Bytes),
      (s₁.conv? l.conv).bind (·.sessions.get? l.device) = some session ∧
        (P.decrypt session header c s₁.outside).1 = some l.plain := by
  obtain ⟨m', s', ⟨-, s₀, s₁, -, -, hopen⟩, heq⟩ := lecture_cases h
  obtain ⟨c, hc, -⟩ | ⟨-, hsession⟩ := openMessage_eq_clair hopen
  · rw [heq, hc] at hgroupe
    cases hgroupe
  · exact hsession

variable (hv : Preserves P v)
include hv

/-- A group message was opened by the engine as it was then, but for its sessions. -/
theorem lecture_groupe (h : lecture P now m s = some l) {c : Bytes} (hgroupe : l.groupe = some c) :
    ∃ e, v e = v s.outside ∧ (P.senderKeyDecrypt l.conv l.device c e).1 = some l.plain := by
  obtain ⟨m', s', ⟨-, s₀, s₁, henv, hresolve, hopen⟩, heq⟩ := lecture_cases h
  obtain ⟨c', hc, hplain⟩ | ⟨hnone, -⟩ := openMessage_eq_clair hopen
  · rw [heq, hc] at hgroupe
    obtain rfl := Option.some.inj hgroupe
    refine ⟨s₁.outside, (resolveConversation_view hv hresolve).trans ?_, hplain⟩
    have hsame := enveloppe_view hv m s
    rw [henv] at hsame
    exact hsame
  · rw [heq, hnone] at hgroupe
    cases hgroupe

/-- What a message does to the part of the engine is done by the key it distributes. -/
theorem receive_view : v (receive P now m s).1.outside = v s.outside ∨
    ∃ l distribution e, lecture P now m s = some l ∧
      distributionLue P l.plain = some distribution ∧ v e = v s.outside ∧
        (receive P now m s).1.outside = P.senderKeyProcess l.conv l.device distribution e := by
  have henvelope := enveloppe_view hv m s
  rcases henv : enveloppe P m s with ⟨s₀, _ | m'⟩
  · rw [receive_enveloppe, henv]
    rw [henv] at henvelope
    exact .inl henvelope
  rw [henv] at henvelope
  by_cases hchannel : m'.channelId.isNull = true
  · have hreceive : receive P now m s = receiveOpen P now m' s₀ := by
      rw [receive_enveloppe, henv]
    rw [hreceive, receiveOpen, hchannel, Bool.not_true, if_neg Bool.false_ne_true]
    cases hresolve : resolveConversation P now m' s₀ with
    | none => exact .inl henvelope
    | some resolved =>
      obtain ⟨conv, s₁⟩ := resolved
      have hresolved := (resolveConversation_view hv hresolve).trans henvelope
      have hopened := (openMessage_view hv conv m' s₁).trans hresolved
      dsimp only
      cases hopen : openMessage P conv m' s₁ with
      | skipped s₂ =>
        rw [hopen] at hopened
        exact .inl hopened
      | thrown s₂ =>
        rw [hopen] at hopened
        exact .inl hopened
      | clair s₂ sender plain =>
        rw [hopen] at hopened
        have hopens : Opens P now m s m' conv sender plain s₂ :=
          ⟨hchannel, s₀, s₁, henv, hresolve, hopen⟩
        obtain hsame | ⟨distribution, hlue, heq⟩ :=
          @dispatch_outside _ P now conv sender s₂ plain m'
        · exact .inl ((congrArg v hsame.outside).trans hopened)
        · exact .inr ⟨_, distribution, s₂.outside, hopens.lecture_eq, hlue, hopened,
            congrArg State.outside heq⟩
  · refine .inl ?_
    rw [receive_enveloppe, henv]
    dsimp only
    rw [receiveOpen, eq_false_of_ne_true hchannel, Bool.not_false, if_pos rfl]
    exact (recevoirCanal_view hv m' s₀).trans henvelope

end Lectures

end ZiaCrypte.Inbox

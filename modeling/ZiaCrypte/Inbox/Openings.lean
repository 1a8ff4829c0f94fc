import ZiaCrypte.Inbox.Frames
import ZiaCrypte.Inbox.PollOnce

/-!
# What opening a message leaves alone

Until its contents are read a message changes sessions, pins and the engine: no
message of a thread, and none of the tables the controls write.
-/
namespace ZiaCrypte.Inbox

open ZiaCrypte.Lib ZiaCrypte.Engine ZiaCrypte.Chat

variable {E : Type} (P : Platform E) (now : Int)

/-- A conversation that is not in memory has the messages of the vault. -/
def State.thread (s : State E) (id : Text) : List ChatMessage :=
  match s.conv? id with
  | some c => c.messages
  | none => s.readHistory id

/-- Only the record of one conversation may differ, and not its messages. -/
structure Keeps (conv : Text) (s s' : State E) : Prop where
  userId : s'.userId = s.userId
  username : s'.username = s.username
  statuts : s'.statuts = s.statuts
  avatars : s'.avatars = s.avatars
  jetons : s'.jetonsRemise = s.jetonsRemise
  hist : s'.coffre.hist = s.coffre.hist
  others : ∀ c, c ≠ conv → s'.conv? c = s.conv? c
  messages : (s'.conv? conv).map (·.messages) = (s.conv? conv).map (·.messages)

namespace Keeps

variable {conv : Text} {s s' s'' : State E}

theorem refl (conv : Text) (s : State E) : Keeps conv s s where
  userId := rfl
  username := rfl
  statuts := rfl
  avatars := rfl
  jetons := rfl
  hist := rfl
  others _ _ := rfl
  messages := rfl

theorem trans (h : Keeps conv s s') (h' : Keeps conv s' s'') : Keeps conv s s'' where
  userId := h'.userId.trans h.userId
  username := h'.username.trans h.username
  statuts := h'.statuts.trans h.statuts
  avatars := h'.avatars.trans h.avatars
  jetons := h'.jetons.trans h.jetons
  hist := h'.hist.trans h.hist
  others c hc := (h'.others c hc).trans (h.others c hc)
  messages := h'.messages.trans h.messages

/-- The engine may have moved. -/
theorem outside (h : Keeps conv s s') (e : E) : Keeps conv s { s' with outside := e } :=
  h.trans { refl conv s' with }

/-- A record is put back with the messages it had. -/
theorem putConv {c c' : Conversation} (h : Keeps conv s s') (hc : s'.conv? conv = some c)
    (hmessages : c'.messages = c.messages) : Keeps conv s (s'.putConv conv c') := by
  refine h.trans { refl conv s' with others := ?_, messages := ?_ }
  · intro c'' hne
    rw [conv?_putConv, if_neg hne]
  · rw [conv?_putConv, if_pos rfl, hc, Option.map_some, Option.map_some, hmessages]

theorem messagesIn (h : Keeps conv s s') (c : Text) : s'.messagesIn c = s.messagesIn c := by
  rw [State.messagesIn, State.messagesIn]
  by_cases hc : c = conv
  · subst hc
    rw [h.messages]
  · rw [h.others c hc]

theorem thread (h : Keeps conv s s') (c : Text) : s'.thread c = s.thread c := by
  have hmap : (s'.conv? c).map (·.messages) = (s.conv? c).map (·.messages) := by
    by_cases hc : c = conv
    · subst hc
      exact h.messages
    · rw [h.others c hc]
  unfold State.thread
  rw [State.readHistory, h.hist, State.readHistory]
  cases hs' : s'.conv? c <;> cases hs : s.conv? c <;> simp_all

end Keeps

/-- The state a message is read in, of the state it was received in. -/
structure ReadIn (conv : Text) (s s' : State E) : Prop where
  userId : s'.userId = s.userId
  username : s'.username = s.username
  statuts : s'.statuts = s.statuts
  avatars : s'.avatars = s.avatars
  jetons : s'.jetonsRemise = s.jetonsRemise
  hist : s'.coffre.hist = s.coffre.hist
  others : ∀ c, c ≠ conv → s'.conv? c = s.conv? c
  messages : ∃ c, s'.conv? conv = some c ∧ c.messages = s.thread conv

theorem ReadIn.keeps {conv : Text} {s s' s'' : State E} (h : ReadIn conv s s')
    (h' : Keeps conv s' s'') : ReadIn conv s s'' where
  userId := h'.userId.trans h.userId
  username := h'.username.trans h.username
  statuts := h'.statuts.trans h.statuts
  avatars := h'.avatars.trans h.avatars
  jetons := h'.jetons.trans h.jetons
  hist := h'.hist.trans h.hist
  others c hc := (h'.others c hc).trans (h.others c hc)
  messages := by
    obtain ⟨c, hc, hmessages⟩ := h.messages
    have hmap := h'.messages
    rw [hc, Option.map_some] at hmap
    obtain ⟨c', hc', hmessages'⟩ := Option.map_eq_some_iff.mp hmap
    exact ⟨c', hc', hmessages'.trans hmessages⟩

/-! ## One lemma for each step of the opening -/

theorem restoreEach_keeps (conv : Text) (devices : List Text) (s : State E) :
    Keeps conv s (restoreEach P conv devices s) := by
  induction devices generalizing s with
  | nil => exact .refl conv s
  | cons device devices ih =>
    rw [restoreEach]
    refine Keeps.trans ?_ (ih _)
    cases hc : s.conv? conv with
    | none => exact .refl conv s
    | some c =>
      dsimp only
      split
      · exact .refl conv s
      · split
        · exact .refl conv s
        · split
          · exact .refl conv s
          · split
            · exact (Keeps.refl conv s).outside _
            · exact ((Keeps.refl conv s).outside _).putConv hc rfl

theorem restoreSessions_keeps (conv : Text) (s : State E) :
    Keeps conv s (restoreSessions P conv s) :=
  restoreEach_keeps P conv _ s

theorem resolveConversation_readIn {m : Incoming} {s s' : State E} {conv : Text}
    (h : resolveConversation P now m s = some (conv, s')) : ReadIn conv s s' := by
  simp only [resolveConversation, Option.bind_eq_bind, Option.bind_eq_some_iff] at h
  obtain ⟨convId, -, h⟩ := h
  cases hc : s.conv? convId with
  | some existing =>
    simp only [hc] at h
    have hpeer : ∃ peerUserId, some (convId, restoreSessions P convId
        (s.putConv convId { existing with peerUserId := peerUserId })) = some (conv, s') := by
      split at h
      · exact ⟨_, h⟩
      · obtain ⟨peerUserId, -, h⟩ := Option.bind_eq_some_iff.mp h
        exact ⟨peerUserId, h⟩
    obtain ⟨peerUserId, hpair⟩ := hpeer
    obtain ⟨rfl, rfl⟩ := Prod.mk.inj (Option.some.inj hpair)
    have hread : ReadIn convId s s := by
      refine ⟨rfl, rfl, rfl, rfl, rfl, rfl, fun _ _ => rfl, existing, hc, ?_⟩
      rw [State.thread, hc]
    refine hread.keeps (Keeps.trans ?_ (restoreSessions_keeps P convId _))
    exact (Keeps.refl convId s).putConv hc rfl
  | none =>
    simp only [hc] at h
    obtain ⟨senderUsername, -, h⟩ := Option.bind_eq_some_iff.mp h
    obtain ⟨senderUserId, -, h⟩ := Option.bind_eq_some_iff.mp h
    obtain ⟨senderDeviceId, -, h⟩ := Option.bind_eq_some_iff.mp h
    simp only [Option.pure_def, Option.some.injEq, Prod.mk.injEq] at h
    obtain ⟨rfl, rfl⟩ := h
    refine ReadIn.keeps ?_ (restoreSessions_keeps P convId _)
    refine ⟨rfl, rfl, rfl, rfl, rfl, rfl, fun c hne => ?_, _,
      by rw [conv?_putConv, if_pos rfl], ?_⟩
    · rw [conv?_putConv, if_neg hne]
    · rw [State.thread, hc]

/-- The state an opening comes to. -/
def Opening.state : Opening E → State E
  | .skipped s => s
  | .thrown s => s
  | .clair s _ _ => s

theorem openGroup_keeps (conv sender : Text) (m : Incoming) (s : State E) :
    Keeps conv s (openGroup P conv sender m s).state := by
  unfold openGroup
  split
  · exact .refl conv s
  · dsimp only
    split <;> exact (Keeps.refl conv s).outside _

theorem openWithSession_keeps (conv sender : Text) (header : Bytes) (m : Incoming) (s : State E) :
    Keeps conv s (openWithSession P conv sender header m s).state := by
  unfold openWithSession
  split
  · exact .refl conv s
  · split
    · exact .refl conv s
    · dsimp only
      split <;> exact (Keeps.refl conv s).outside _

theorem checkAndPin_keeps {conv sender : Text} {senderUserId : Json} {identityKey : PublicKey}
    {s s' : State E} (h : checkAndPin sender senderUserId identityKey s = .accepted s' ∨
      checkAndPin sender senderUserId identityKey s = .changed s') : Keeps conv s s' := by
  have hpin : ∀ known ids, Keeps conv s
      { s with known := known, coffre := { s.coffre with contactIdentities := ids } } :=
    fun known ids => { Keeps.refl conv s with }
  have halert : ∀ alerts, Keeps conv s { s with identityAlerts := alerts } :=
    fun alerts => { Keeps.refl conv s with }
  unfold checkAndPin at h
  split at h
  · rcases h with ⟨⟨⟩⟩ | ⟨⟨⟩⟩
  · rcases h with ⟨⟨⟩⟩ | ⟨⟨⟩⟩
    exact .refl conv s
  · split at h
    · rcases h with ⟨⟨⟩⟩ | ⟨⟨⟩⟩
      exact hpin _ _
    · split at h
      · rcases h with ⟨⟨⟩⟩ | ⟨⟨⟩⟩
        exact .refl conv s
      · rcases h with ⟨⟨⟩⟩ | ⟨⟨⟩⟩
        exact halert _

theorem openPairwise_keeps (conv sender : Text) (unpacked : Envelope.Unpacked) (m : Incoming)
    (s : State E) : Keeps conv s (openPairwise P conv sender unpacked m s).state := by
  unfold openPairwise
  split
  · rename_i handshake c _ hc
    split
    · exact openWithSession_keeps P conv sender _ m s
    · split
      · exact .refl conv s
      · rename_i s' hpin
        exact checkAndPin_keeps (.inr hpin)
      · rename_i s' hpin
        have hkeeps : Keeps conv s s' := checkAndPin_keeps (.inl hpin)
        dsimp only
        split
        · exact hkeeps.outside _
        · have hmap := hkeeps.messages
          rw [hc, Option.map_some] at hmap
          obtain ⟨c', hc', hmessages⟩ := Option.map_eq_some_iff.mp hmap
          refine Keeps.trans ?_ (openWithSession_keeps P conv sender _ m _)
          exact (hkeeps.outside _).putConv hc' hmessages.symm
  · exact openWithSession_keeps P conv sender _ m s

theorem openMessage_keeps (conv : Text) (m : Incoming) (s : State E) :
    Keeps conv s (openMessage P conv m s).state := by
  unfold openMessage
  split
  · exact .refl conv s
  · split
    · exact .refl conv s
    · split
      · exact openGroup_keeps P conv _ m s
      · split
        · exact .refl conv s
        · exact openPairwise_keeps P conv _ _ m s

/-! ## A message that opens -/

/-- The message behind its envelope, if it has one. -/
def enveloppe (m : Incoming) (s : State E) : State E × Option Incoming :=
  if m.sealed.isTrue then ouvrirScelle P m s else (s, some m)

theorem receive_enveloppe (m : Incoming) (s : State E) :
    receive P now m s = match enveloppe P m s with
      | (s, none) => (s, .skipped)
      | (s, some m) => receiveOpen P now m s := by
  rw [receive, enveloppe]
  split <;> rfl

theorem ouvrirScelle_keeps (conv : Text) (m : Incoming) (s : State E) :
    Keeps conv s (ouvrirScelle P m s).1 := by
  unfold ouvrirScelle
  split
  · exact .refl conv s
  · dsimp only
    split <;> exact (Keeps.refl conv s).outside _

theorem enveloppe_keeps (conv : Text) (m : Incoming) (s : State E) :
    Keeps conv s (enveloppe P m s).1 := by
  unfold enveloppe
  split
  · exact ouvrirScelle_keeps P conv m s
  · exact .refl conv s

/-- A message, received in `s`, whose contents `plain` are read in `s'`. -/
structure Opens (m : Incoming) (s : State E) (m' : Incoming) (conv sender : Text) (plain : Bytes)
    (s' : State E) : Prop where
  notChannel : m'.channelId.isNull = true
  opens : ∃ s₀ s₁, enveloppe P m s = (s₀, some m') ∧
    resolveConversation P now m' s₀ = some (conv, s₁) ∧
    openMessage P conv m' s₁ = .clair s' sender plain

variable {m m' : Incoming} {s s' : State E} {conv sender : Text} {plain : Bytes}

theorem Opens.receive_eq (h : Opens P now m s m' conv sender plain s') :
    receive P now m s = dispatch P now conv sender plain m' s' := by
  obtain ⟨hchannel, s₀, s₁, henv, hresolve, hopen⟩ := h
  rw [receive_enveloppe, henv]
  simp only [receiveOpen, hchannel, hresolve, hopen, Bool.not_true, Bool.false_eq_true, if_false]

/-- Opening changed nothing a control or the contents of a message could. -/
theorem Opens.readIn (h : Opens P now m s m' conv sender plain s') : ReadIn conv s s' := by
  obtain ⟨-, s₀, s₁, henv, hresolve, hopen⟩ := h
  have hkeeps₀ : Keeps conv s s₀ := by
    have h := enveloppe_keeps P conv m s
    rwa [henv] at h
  have hkeeps₁ : Keeps conv s₁ s' := by
    have h := openMessage_keeps P conv m' s₁
    rwa [hopen] at h
  have hread := (resolveConversation_readIn P now hresolve).keeps hkeeps₁
  exact {
    userId := hread.userId.trans hkeeps₀.userId
    username := hread.username.trans hkeeps₀.username
    statuts := hread.statuts.trans hkeeps₀.statuts
    avatars := hread.avatars.trans hkeeps₀.avatars
    jetons := hread.jetons.trans hkeeps₀.jetons
    hist := hread.hist.trans hkeeps₀.hist
    others := fun c hc => (hread.others c hc).trans (hkeeps₀.others c hc)
    messages := by
      obtain ⟨c, hc, hmessages⟩ := hread.messages
      exact ⟨c, hc, hmessages.trans (hkeeps₀.thread conv)⟩ }

end ZiaCrypte.Inbox

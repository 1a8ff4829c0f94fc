import ZiaCrypte.Chat.RunChecks

/-!
# Received handshakes and the pinned keys

The poll loop compares the key of a handshake with the pin of the sender only
when the message names the sender's account, and a call signal never has it
compared. Where every other handshake comes under the pinned key, no session is
held for a device, restored or not, whose handshake the pin did not match.
-/
namespace ZiaCrypte.Chat

open ZiaCrypte.Engine ZiaCrypte.Lib

variable {K : Type}

/-- If the session comes from a received handshake, its key matched the device's pin. -/
def Vouched (s : Client K) (device : DeviceId) : Option Origin → Prop
  | some (.accepted _ handshake) => (device, handshake.initiatorIdentityKey) ∈ s.record.matched
  | _ => True

instance (s : Client K) (device : DeviceId) (origin : Option Origin) :
    Decidable (Vouched s device origin) := by
  unfold Vouched
  split <;> infer_instance

/-- The check of a session that is about to be installed: since the loop took the
handshake up its key was compared with the pin, or it is the pin. -/
def SourceChecked (s : Client K) (device : DeviceId) (session : SessionId) : Source → Prop
  | .accepted since _ handshake =>
      Entry.checked device handshake.initiatorIdentityKey ∈ s.since since ∨
        s.pinnedKey device = some handshake.initiatorIdentityKey
  | .acceptedCall handshake => s.pinnedKey device = some handshake.initiatorIdentityKey
  | .imported => Vouched s device (s.originOf session)
  | .initiated _ => True

instance (s : Client K) (device : DeviceId) (session : SessionId) (source : Source) :
    Decidable (SourceChecked s device session source) := by
  unfold SourceChecked
  split <;> infer_instance

/-- No session of an unmatched handshake is installed, nothing it decrypts is taken
as the device's, and a comparison that succeeds is one with the pin. -/
def HandshakeChecked (e : ChatEvent K) (s : Client K) : Prop :=
  match e with
  | .act (.install _ device session source) => SourceChecked s device session source
  | .act (.opened _ sender session) => Vouched s sender (s.originOf session)
  | .act (.checked device key) => s.pinnedKey device = some key
  | _ => True

instance (e : ChatEvent K) (s : Client K) : Decidable (HandshakeChecked e s) := by
  unfold HandshakeChecked
  split <;> infer_instance

/-- A handshake that is not compared has the key pinned for its device. -/
def UncheckedIsPinned (e : ChatEvent K) (s : Client K) : Prop :=
  match e with
  | .act (.install _ device _ (.accepted _ none handshake))
  | .act (.install _ device _ (.acceptedCall handshake)) =>
      s.pinnedKey device = some handshake.initiatorIdentityKey
  | _ => True

instance (e : ChatEvent K) (s : Client K) : Decidable (UncheckedIsPinned e s) := by
  unfold UncheckedIsPinned
  split <;> infer_instance

/-! ## The invariant -/

/-- Wherever a session is kept for a device, its handshake matched the pin. -/
structure PinInv (s : Client K) : Prop where
  checked : ∀ device key, Entry.checked device key ∈ s.journal →
    (device, key) ∈ s.record.matched
  installed : ∀ conv device session source pinned,
    Entry.installed conv device session source pinned ∈ s.journal →
      ∃ origin, s.originOf session = some origin ∧ Vouched s device (some origin)
  stored : ∀ conv device blob, s.coffre.sess.get? (conv, device) = some blob →
    Vouched s device (some blob.origin)
  read : ∀ conv device origin n, Entry.read conv device origin n ∈ s.journal →
    Vouched s device (some origin)

theorem Vouched.mono {s t : Client K} {device : DeviceId} {origin : Option Origin}
    (h : Vouched s device origin) (hsub : s.record.matched ⊆ t.record.matched) :
    Vouched t device origin := by
  unfold Vouched at h ⊢
  split
  · exact hsub h
  · trivial

theorem PinInv.vouched {s : Client K} (h : PinInv s) {conv : ConvId} {device : DeviceId}
    {session : SessionId} (hinstalled : WasInstalled s conv device session) :
    Vouched s device (s.originOf session) := by
  obtain ⟨source, pinned, hmem⟩ := hinstalled
  obtain ⟨origin, horigin, hvouched⟩ := h.installed _ _ _ _ _ hmem
  rw [horigin]
  exact hvouched

variable {P : Platform K}

/-- The event itself is checked. -/
theorem PinInv.goal {e : ChatEvent K} {s : Client K} (h : PinInv s) (hguard : Guard e s)
    (hcond : UncheckedIsPinned e s) : HandshakeChecked e s := by
  cases e with
  | act a =>
    cases a with
    | install conv device session source =>
      obtain ⟨hprov, hfirst⟩ := hguard
      cases source with
      | imported =>
        obtain ⟨origin, n, horigin, hread⟩ := hprov
        change Vouched s device (s.originOf session)
        rw [horigin]
        exact h.read _ _ _ _ hread
      | initiated handshake => trivial
      | accepted since user handshake =>
        cases user with
        | none => exact .inr hcond
        | some user => exact .inl hfirst
      | acceptedCall handshake => exact hcond
    | opened conv sender session => exact h.vouched hguard
    | checked device key =>
      obtain ⟨i, hi, hkey⟩ := hguard
      change s.pinnedKey device = some key
      rw [Client.pinnedKey, hi, ← hkey]
      rfl
    | _ => trivial
  | _ => trivial

/-- A new session is vouched for once it is installed. -/
theorem PinInv.install {s : Client K} (h : PinInv s) {conv : Ref} {device : DeviceId}
    {session : SessionId} {source : Source} (hprov : Provenance s conv device session source)
    (hchecked : SourceChecked s device session source) :
    ∃ origin, s.originOf session = some origin ∧
      Vouched (s.install conv device session source) device (some origin) := by
  have hsub := matched_install s conv device session source
  cases source with
  | imported =>
    obtain ⟨origin, n, horigin, hread⟩ := hprov
    exact ⟨origin, horigin, (h.read _ _ _ _ hread).mono hsub⟩
  | initiated handshake =>
    obtain ⟨n, horigin⟩ := hprov
    exact ⟨_, horigin, trivial⟩
  | accepted since user handshake =>
    obtain ⟨n, horigin⟩ := hprov
    refine ⟨_, horigin, ?_⟩
    rcases hchecked with hmem | hpin
    · exact hsub (h.checked _ _ (mem_journal_of_mem_since hmem))
    · exact mem_matched_install hpin
  | acceptedCall handshake =>
    obtain ⟨n, horigin⟩ := hprov
    exact ⟨_, horigin, mem_matched_install hchecked⟩

theorem PinInv.crash {s : Client K} (h : PinInv s) : PinInv s.crash where
  checked device key hmem := by cases hmem
  installed conv device session source pinned hmem := by cases hmem
  stored := h.stored
  read conv device origin n hmem := by cases hmem

theorem PinInv.alive {e : ChatEvent K} {s : Client K} (h : PinInv s) (hs : Coherent s)
    (hguard : Guard e s) (hcond : UncheckedIsPinned e s) (halive : e ≠ .crash) :
    PinInv ((chatSemantics P).apply e s) := by
  have hsub := matched_apply P e s
  have hgrows := (hguard.advances P hs).2 halive
  constructor
  · intro device key hmem
    rcases checked_apply P halive hmem with hold | rfl
    · exact hsub (h.checked device key hold)
    · exact List.mem_cons_self
  · intro conv device session source pinned hmem
    rcases installed_apply P halive hmem with hold | ⟨ref, rfl, rfl⟩
    · obtain ⟨origin, horigin, hvouched⟩ := h.installed _ _ _ _ _ hold
      exact ⟨origin, hgrows.sessions _ _ horigin, hvouched.mono hsub⟩
    · obtain ⟨origin, horigin, hvouched⟩ := h.install hguard.1 (h.goal hguard hcond)
      exact ⟨origin, hgrows.sessions _ _ horigin, hvouched⟩
  · intro conv device blob hblob
    rcases vault_apply P hblob with hold | ⟨t, x, rfl⟩
    · exact (h.stored _ _ _ hold).mono hsub
    · obtain ⟨_, session, horigin, hinstalled⟩ := hguard
      have hvouched := h.vouched hinstalled
      rw [horigin] at hvouched
      exact hvouched.mono hsub
  · intro conv device origin n hmem
    rcases read_apply P halive hmem with hold | ⟨blob, hblob, rfl, _⟩
    · exact (h.read _ _ _ _ hold).mono hsub
    · exact (h.stored _ _ _ hblob).mono hsub

/-- In every run whose uncompared handshakes come under the pinned key, every
handshake that yields a session or a message was matched with the pin. -/
theorem receivedHandshakes_checked {user : UserId} {device : DeviceId} {engine : ZiaEngine K}
    {choices : List (ChatChoice K)} {p : ChatPool K}
    (h : chatRun P user device engine choices = some p)
    (hcond : Throughout P user device engine UncheckedIsPinned p) :
    Throughout P user device engine HandshakeChecked p := by
  refine (chatRun_always PinInv (fun e s hinv hs hguard hc => ?_) ?_ h hcond).2
  · refine ⟨?_, hinv.goal hguard hc⟩
    by_cases hcrash : e = .crash
    · subst hcrash
      exact hinv.crash
    · exact hinv.alive hs hguard hc hcrash
  · constructor <;> intros <;> simp_all [Client.initial, LinkedMap.get?, LinkedMap.empty]

/-! ## Two messages of one device -/

/-- A message of device 9 with the handshake of `b`. -/
def sampleFirst (conv : ConvId) (user : Option UserId) (b : UInt8) : ServerMessage where
  isSealed := false
  channelId := none
  senderDeviceId := some 9
  senderUserId := user
  conversationId := some conv
  header := some (Envelope.packHeader (List.replicate 40 0) (some (sampleHandshake b)))
  ciphertext := some (List.replicate 16 0)

/-- A batch is polled. -/
def samplePoll (batch : List ServerMessage) (steps : Nat) : List (ChatChoice Key) :=
  sampleLaunch ++ .start .pollOnce ::
    answered 1 (.messages batch :: List.replicate steps .done)

/-- Device 9 is pinned to one key; under another key and without an account, its
second handshake is installed. -/
theorem otherHandshake_installed : ∃ p,
    chatRun samplePlatform 1 1 (sampleEngine 1)
      (samplePoll [sampleFirst 1 (some 7) 2, sampleFirst 2 none 3] 16) = some p ∧
    ¬ Throughout samplePlatform 1 1 (sampleEngine 1) HandshakeChecked p :=
  not_throughout_of_scan (fun e s => !decide (HandshakeChecked e s)) (fun _ _ h => by simpa using h)
    (by decide +kernel)

/-- The first message alone meets the condition. -/
theorem firstHandshake_checked : ∃ p,
    chatRun samplePlatform 1 1 (sampleEngine 1) (samplePoll [sampleFirst 1 (some 7) 2] 9) =
      some p ∧
    Throughout samplePlatform 1 1 (sampleEngine 1) HandshakeChecked p := by
  have hrun : ∃ p,
      chatRun samplePlatform 1 1 (sampleEngine 1) (samplePoll [sampleFirst 1 (some 7) 2] 9) =
        some p ∧
      Throughout samplePlatform 1 1 (sampleEngine 1) UncheckedIsPinned p :=
    throughout_of_scan (fun e s => !decide (UncheckedIsPinned e s)) (fun _ _ h => by simpa using h)
    (by decide +kernel)
  obtain ⟨p, hp, hcond⟩ := hrun
  exact ⟨p, hp, receivedHandshakes_checked hp hcond⟩

end ZiaCrypte.Chat

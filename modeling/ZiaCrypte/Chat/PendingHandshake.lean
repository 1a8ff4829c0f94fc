import ZiaCrypte.Chat.RunChecks

/-!
# Handshakes until they are acknowledged

A session this client began sits in the vault, its pending handshake in memory
only. Where the process dies with no unacknowledged session stored, and no slot
is taken over from one, every message carries the handshake of its session until
the server has taken one that does.
-/
namespace ZiaCrypte.Chat

open ZiaCrypte.Engine ZiaCrypte.Lib

variable {K : Type}

/-- The message was sealed on the session of this origin and shows its handshake. -/
def Carries (s : Client K) (m : DeviceMessage) (origin : Origin)
    (handshake : ZiaHandshakeMaterial) : Prop :=
  ∃ entry ∈ s.record.seals, entry.origin = origin ∧
    m.header = Envelope.packHeader entry.message.header (some handshake) ∧
    m.ciphertext = entry.message.ciphertext

/-- The server took a message for the device that carries the handshake. -/
def Acknowledged (s : Client K) (device : DeviceId) (origin : Origin)
    (handshake : ZiaHandshakeMaterial) : Prop :=
  ∃ m ∈ s.record.accepted, m.recipientDeviceId = device ∧ Carries s m origin handshake

/-- The device has been sent what it needs to take up the session. -/
def Learnable (s : Client K) (device : DeviceId) : Origin → Prop
  | .initiated n handshake => Acknowledged s device (.initiated n handshake) handshake
  | .accepted _ _ => True

/-- Every message of a session this client began carries its handshake, unless one
was acknowledged; and no session is restored that the device cannot learn of. -/
def CarriesUntilAcknowledged (e : ChatEvent K) (s : Client K) : Prop :=
  (∀ m, departs e = some m → ∀ session n handshake, Entry.prepared session m ∈ s.journal →
    s.originOf session = some (.initiated n handshake) →
      Carries s m (.initiated n handshake) handshake ∨
        Acknowledged s m.recipientDeviceId (.initiated n handshake) handshake) ∧
  ∀ conv device session origin, e = .act (.install conv device session .imported) →
    s.originOf session = some origin → Learnable s device origin

/-- Only acknowledged sessions are in the vault when the process dies; an opening
finds the device without a session in the conversation, and whatever is installed
finds there only sessions that were acknowledged or received. -/
def SlotsAreLearnable (e : ChatEvent K) (s : Client K) : Prop :=
  match e with
  | .act (.install conv device _ source) =>
      (∀ session, WasInstalled s (s.conversation conv).id device session →
        ∀ handshake, source ≠ .initiated handshake) ∧
      ∀ session origin, WasInstalled s (s.conversation conv).id device session →
        s.originOf session = some origin → Learnable s device origin
  | .crash => ∀ conv device blob, s.coffre.sess.get? (conv, device) = some blob →
      Learnable s device blob.origin
  | _ => True

/-! ## The invariant -/

structure HandshakeInv (s : Client K) : Prop where
  shared : ∀ conv device session session', WasInstalled s conv device session →
    WasInstalled s conv device session' → session ≠ session' →
      ∀ origin, s.originOf session = some origin → Learnable s device origin
  pending : ∀ conv device session, WasInstalled s conv device session →
    ∃ origin, s.originOf session = some origin ∧ (Learnable s device origin ∨
      ∃ n handshake, origin = .initiated n handshake ∧
        s.pendingHandshakes.get? (conv, device) = some handshake)
  prepared : ∀ session m, Entry.prepared session m ∈ s.journal →
    WasInstalled s m.conversationId m.recipientDeviceId session ∧
    ∃ origin, s.originOf session = some origin ∧ (Learnable s m.recipientDeviceId origin ∨
      ∃ n handshake, origin = .initiated n handshake ∧ Carries s m origin handshake)
  stored : ∀ conv device blob, s.coffre.sess.get? (conv, device) = some blob →
    Learnable s device blob.origin ∨
      ∃ session, WasInstalled s conv device session ∧ s.originOf session = some blob.origin
  read : ∀ conv device origin n, Entry.read conv device origin n ∈ s.journal →
    Learnable s device origin ∨
      ∃ session, WasInstalled s conv device session ∧ s.originOf session = some origin

theorem Carries.grows {s t : Client K} {m : DeviceMessage} {origin : Origin}
    {handshake : ZiaHandshakeMaterial} (h : Carries s m origin handshake) (hgrows : Grows s t) :
    Carries t m origin handshake := by
  obtain ⟨entry, hentry, hrest⟩ := h
  exact ⟨entry, hgrows.seals hentry, hrest⟩

theorem Learnable.grows {s t : Client K} {device : DeviceId} {origin : Origin}
    (h : Learnable s device origin) (hgrows : Grows s t) : Learnable t device origin := by
  cases origin with
  | accepted n handshake => trivial
  | initiated n handshake =>
    obtain ⟨m, hm, hdevice, hcarries⟩ := h
    exact ⟨m, hgrows.accepted hm, hdevice, hcarries.grows hgrows⟩

variable {P : Platform K}

theorem pending_apply {e : ChatEvent K} (s : Client K) (halive : e ≠ .crash) :
    ((chatSemantics P).apply e s).pendingHandshakes = s.pendingHandshakes ∨
    (∃ conv device session handshake,
      e = .act (.install conv device session (.initiated handshake)) ∧
      ((chatSemantics P).apply e s).pendingHandshakes =
        s.pendingHandshakes.insert ((s.conversation conv).id, device) handshake) ∨
    (∃ conv device, e = .act (.removePending conv device) ∧
      ((chatSemantics P).apply e s).pendingHandshakes =
        s.pendingHandshakes.erase ((s.conversation conv).id, device)) := by
  cases e with
  | act a =>
    cases a with
    | install conv device session source =>
      have hpinned : ∀ (o : Option PublicKey) (u : Client K),
          (o.elim u (u.matchKey device)).pendingHandshakes = u.pendingHandshakes := by
        intro o u
        cases o <;> rfl
      cases source with
      | initiated handshake => exact .inr (.inl ⟨conv, device, session, handshake, rfl, rfl⟩)
      | imported => exact .inl (hpinned _ _)
      | accepted since user handshake => exact .inl (hpinned _ _)
      | acceptedCall handshake => exact .inl (hpinned _ _)
    | removePending conv device => exact .inr (.inr ⟨conv, device, rfl, rfl⟩)
    | _ => exact .inl rfl
  | issue q => left; cases q <;> rfl
  | settle t q x => exact .inl (settle_sameHeap P t q x s).pendingHandshakes
  | crash => exact absurd rfl halive

/-- A session read from the vault is learnable, once no unacknowledged one holds its slot. -/
theorem HandshakeInv.imported {s : Client K} (h : HandshakeInv s) {conv : Ref} {device : DeviceId}
    {session : SessionId} (hprov : Provenance s conv device session .imported)
    (hslot : ∀ session origin, WasInstalled s (s.conversation conv).id device session →
      s.originOf session = some origin → Learnable s device origin) :
    ∃ origin, s.originOf session = some origin ∧ Learnable s device origin := by
  obtain ⟨origin, n, horigin, hread⟩ := hprov
  refine ⟨origin, horigin, ?_⟩
  rcases h.read _ _ _ _ hread with hlearn | ⟨session', hinstalled, horigin'⟩
  · exact hlearn
  · exact hslot session' origin hinstalled horigin'

theorem HandshakeInv.goal {e : ChatEvent K} {s : Client K} (h : HandshakeInv s)
    (hguard : Guard e s) (hcond : SlotsAreLearnable e s) : CarriesUntilAcknowledged e s := by
  constructor
  · intro m _ session n handshake hprepared horigin
    obtain ⟨_, origin, horigin', hor⟩ := h.prepared session m hprepared
    obtain rfl := Option.some.inj (horigin.symm.trans horigin')
    rcases hor with hlearn | ⟨n', handshake', heq, hcarries⟩
    · exact .inr hlearn
    · obtain ⟨rfl, rfl⟩ := Origin.initiated.inj heq
      exact .inl hcarries
  · rintro conv device session origin rfl horigin
    obtain ⟨origin', horigin', hlearn⟩ := h.imported hguard.1 hcond.2
    obtain rfl := Option.some.inj (horigin.symm.trans horigin')
    exact hlearn

/-- What is installed is learnable, or its handshake is pending in a slot of its own. -/
theorem HandshakeInv.install {s : Client K} (h : HandshakeInv s) {conv : Ref} {device : DeviceId}
    {session : SessionId} {source : Source}
    (hguard : Guard (.act (.install conv device session source)) s)
    (hcond : SlotsAreLearnable (.act (.install conv device session source)) s) :
    ∃ origin, s.originOf session = some origin ∧ (Learnable s device origin ∨
      ∃ n handshake, source = .initiated handshake ∧ origin = .initiated n handshake ∧
        ∀ session', ¬ WasInstalled s (s.conversation conv).id device session') := by
  obtain ⟨hprov, _⟩ := hguard
  cases source with
  | imported =>
    obtain ⟨origin, horigin, hlearn⟩ := h.imported hprov hcond.2
    exact ⟨origin, horigin, .inl hlearn⟩
  | initiated handshake =>
    obtain ⟨n, horigin⟩ := hprov
    refine ⟨_, horigin, .inr ⟨n, handshake, rfl, rfl, fun session' hinstalled => ?_⟩⟩
    exact hcond.1 session' hinstalled handshake rfl
  | accepted since user handshake =>
    obtain ⟨n, horigin⟩ := hprov
    exact ⟨_, horigin, .inl trivial⟩
  | acceptedCall handshake =>
    obtain ⟨n, horigin⟩ := hprov
    exact ⟨_, horigin, .inl trivial⟩

theorem wasInstalled_apply {e : ChatEvent K} {s : Client K} (halive : e ≠ .crash) {conv : ConvId}
    {device : DeviceId} {session : SessionId}
    (h : WasInstalled ((chatSemantics P).apply e s) conv device session) :
    WasInstalled s conv device session ∨ ∃ ref source,
      e = .act (.install ref device session source) ∧ conv = (s.conversation ref).id := by
  obtain ⟨source, pinned, hmem⟩ := h
  rcases installed_apply P halive hmem with hold | ⟨ref, rfl, rfl⟩
  · exact .inl ⟨source, pinned, hold⟩
  · exact .inr ⟨ref, source, rfl, rfl⟩

theorem HandshakeInv.shared_apply {e : ChatEvent K} {s : Client K} (h : HandshakeInv s)
    (hguard : Guard e s) (hcond : SlotsAreLearnable e s) (halive : e ≠ .crash) {conv : ConvId}
    {device : DeviceId} {session session' : SessionId}
    (hs : WasInstalled ((chatSemantics P).apply e s) conv device session)
    (hs' : WasInstalled ((chatSemantics P).apply e s) conv device session')
    (hne : session ≠ session') : ∃ origin, s.originOf session = some origin ∧
      Learnable s device origin := by
  rcases wasInstalled_apply halive hs with hold | ⟨ref, source, rfl, rfl⟩
  · obtain ⟨origin, horigin, _⟩ := h.pending _ _ _ hold
    refine ⟨origin, horigin, ?_⟩
    rcases wasInstalled_apply halive hs' with hold' | ⟨ref, source, rfl, rfl⟩
    · exact h.shared _ _ _ _ hold hold' hne origin horigin
    · exact hcond.2 session origin hold horigin
  · obtain ⟨origin, horigin, hor⟩ := h.install hguard hcond
    refine ⟨origin, horigin, ?_⟩
    rcases hor with hlearn | ⟨n, handshake, _, _, hnone⟩
    · exact hlearn
    · rcases wasInstalled_apply halive hs' with hold' | ⟨ref', source', heq, _⟩
      · exact absurd hold' (hnone session')
      · cases heq
        exact absurd rfl hne

/-- A handshake that is dropped has been acknowledged, or its slot is shared. -/
theorem HandshakeInv.dropped {s : Client K} (h : HandshakeInv s) {conv : Ref} {device : DeviceId}
    (hguard : Guard (.act (.removePending conv device)) s) {session : SessionId} {origin : Origin}
    (hinstalled : WasInstalled s (s.conversation conv).id device session)
    (horigin : s.originOf session = some origin) : Learnable s device origin := by
  obtain ⟨m, haccepted, ⟨session', hprepared⟩, hid, rfl⟩ := hguard
  obtain ⟨hinstalled', origin', horigin', hor⟩ := h.prepared session' m hprepared
  by_cases hsame : session = session'
  · subst hsame
    obtain rfl := Option.some.inj (horigin.symm.trans horigin')
    rcases hor with hlearn | ⟨n, handshake, rfl, hcarries⟩
    · exact hlearn
    · exact ⟨m, haccepted, rfl, hcarries⟩
  · exact h.shared _ _ _ _ hinstalled (hid ▸ hinstalled') hsame origin horigin

theorem HandshakeInv.pending_apply {e : ChatEvent K} {s : Client K} (h : HandshakeInv s)
    (hguard : Guard e s) (hcond : SlotsAreLearnable e s) (halive : e ≠ .crash) {conv : ConvId}
    {device : DeviceId} {session : SessionId}
    (hs : WasInstalled ((chatSemantics P).apply e s) conv device session) :
    ∃ origin, s.originOf session = some origin ∧ (Learnable s device origin ∨
      ∃ n handshake, origin = .initiated n handshake ∧
        ((chatSemantics P).apply e s).pendingHandshakes.get? (conv, device) =
          some handshake) := by
  rcases wasInstalled_apply halive hs with hold | ⟨ref, source, rfl, rfl⟩
  · obtain ⟨origin, horigin, hor⟩ := h.pending _ _ _ hold
    refine ⟨origin, horigin, ?_⟩
    rcases hor with hlearn | ⟨n, handshake, rfl, hpending⟩
    · exact .inl hlearn
    rcases Chat.pending_apply (P := P) s halive with heq | ⟨ref, device', session', handshake',
      rfl, heq⟩ | ⟨ref, device', rfl, heq⟩
    · exact .inr ⟨n, handshake, rfl, heq ▸ hpending⟩
    · by_cases hslot : (conv, device) = ((s.conversation ref).id, device')
      · obtain ⟨rfl, rfl⟩ := Prod.mk.inj hslot
        exact absurd rfl (hcond.1 session hold handshake')
      · exact .inr ⟨n, handshake, rfl, by rw [heq, LinkedMap.get?_insert_ne _ _ hslot]; exact hpending⟩
    · by_cases hslot : (conv, device) = ((s.conversation ref).id, device')
      · obtain ⟨rfl, rfl⟩ := Prod.mk.inj hslot
        exact .inl (h.dropped hguard hold horigin)
      · refine .inr ⟨n, handshake, rfl, ?_⟩
        rw [heq, LinkedMap.get?_erase, if_neg hslot]
        exact hpending
  · obtain ⟨origin, horigin, hor⟩ := h.install hguard hcond
    refine ⟨origin, horigin, ?_⟩
    rcases hor with hlearn | ⟨n, handshake, rfl, rfl, _⟩
    · exact .inl hlearn
    · exact .inr ⟨n, handshake, rfl, LinkedMap.get?_insert_self _ _ _⟩

/-- A message that is put together shows the handshake that is pending. -/
theorem HandshakeInv.prepare {s : Client K} (h : HandshakeInv s) {session : SessionId}
    {m : DeviceMessage} (hguard : Guard (.act (.prepared session m)) s) :
    WasInstalled s m.conversationId m.recipientDeviceId session ∧
    ∃ origin, s.originOf session = some origin ∧ (Learnable s m.recipientDeviceId origin ∨
      ∃ n handshake, origin = .initiated n handshake ∧ Carries s m origin handshake) := by
  obtain ⟨conv, device, enc, rfl, _, hinstalled, entry, hentry, horigin, rfl⟩ := hguard
  refine ⟨hinstalled, ?_⟩
  obtain ⟨origin, horigin', hor⟩ := h.pending _ _ _ hinstalled
  obtain rfl := Option.some.inj (horigin.symm.trans horigin')
  refine ⟨_, horigin, hor.imp_right ?_⟩
  rintro ⟨n, handshake, heq, hpending⟩
  refine ⟨n, handshake, heq, entry, hentry, rfl, ?_, rfl⟩
  rw [Client.messageFor, Client.pendingHandshake, hpending]

theorem handshakeInv_crash {s : Client K}
    (hcond : SlotsAreLearnable .crash s) : HandshakeInv s.crash where
  shared conv device session session' hs := by
    obtain ⟨_, _, hmem⟩ := hs
    cases hmem
  pending conv device session hs := by
    obtain ⟨_, _, hmem⟩ := hs
    cases hmem
  prepared session m hmem := by cases hmem
  stored conv device blob hblob := by
    left
    have hlearn := hcond conv device blob hblob
    cases horigin : blob.origin with
    | accepted n handshake => trivial
    | initiated n handshake =>
      rw [horigin] at hlearn
      exact hlearn
  read conv device origin n hmem := by cases hmem

theorem HandshakeInv.alive {e : ChatEvent K} {s : Client K} (h : HandshakeInv s)
    (hs : Coherent s) (hguard : Guard e s) (hcond : SlotsAreLearnable e s) (halive : e ≠ .crash) :
    HandshakeInv ((chatSemantics P).apply e s) := by
  have hgrows := (hguard.advances P hs).2 halive
  have hstored : ∀ conv device blob, s.coffre.sess.get? (conv, device) = some blob →
      Learnable ((chatSemantics P).apply e s) device blob.origin ∨
        ∃ session, WasInstalled ((chatSemantics P).apply e s) conv device session ∧
          ((chatSemantics P).apply e s).originOf session = some blob.origin := by
    intro conv device blob hblob
    rcases h.stored conv device blob hblob with hlearn | ⟨session, hinstalled, horigin⟩
    · exact .inl (hlearn.grows hgrows)
    · exact .inr ⟨session, hinstalled.grows hgrows, hgrows.sessions _ _ horigin⟩
  constructor
  · intro conv device session session' hs₁ hs₂ hne origin horigin
    obtain ⟨origin', horigin', hlearn⟩ := h.shared_apply hguard hcond halive hs₁ hs₂ hne
    obtain rfl := Option.some.inj ((hgrows.sessions _ _ horigin').symm.trans horigin)
    exact hlearn.grows hgrows
  · intro conv device session hs₁
    obtain ⟨origin, horigin, hor⟩ := h.pending_apply hguard hcond halive hs₁
    exact ⟨origin, hgrows.sessions _ _ horigin, hor.imp_left fun hlearn => hlearn.grows hgrows⟩
  · intro session m hmem
    have hold : WasInstalled s m.conversationId m.recipientDeviceId session ∧
        ∃ origin, s.originOf session = some origin ∧ (Learnable s m.recipientDeviceId origin ∨
          ∃ n handshake, origin = .initiated n handshake ∧ Carries s m origin handshake) := by
      rcases prepared_apply P halive hmem with hold | rfl
      · exact h.prepared session m hold
      · exact h.prepare hguard
    obtain ⟨hinstalled, origin, horigin, hor⟩ := hold
    refine ⟨hinstalled.grows hgrows, origin, hgrows.sessions _ _ horigin, ?_⟩
    rcases hor with hlearn | ⟨n, handshake, heq, hcarries⟩
    · exact .inl (hlearn.grows hgrows)
    · exact .inr ⟨n, handshake, heq, hcarries.grows hgrows⟩
  · intro conv device blob hblob
    rcases vault_apply P hblob with hold | ⟨t, x, rfl⟩
    · exact hstored conv device blob hold
    · obtain ⟨_, session, horigin, hinstalled⟩ := hguard
      exact .inr ⟨session, hinstalled.grows hgrows, hgrows.sessions _ _ horigin⟩
  · intro conv device origin n hmem
    rcases read_apply P halive hmem with hold | ⟨blob, hblob, rfl, _⟩
    · rcases h.read conv device origin n hold with hlearn | ⟨session, hinstalled, horigin⟩
      · exact .inl (hlearn.grows hgrows)
      · exact .inr ⟨session, hinstalled.grows hgrows, hgrows.sessions _ _ horigin⟩
    · exact hstored conv device blob hblob

/-- In every run that meets the condition, whatever is sent on a session this client
began carries its handshake until one has been acknowledged, and so no restored
session is one its device cannot learn of. -/
theorem handshake_carriedUntilAcknowledged {user : UserId} {device : DeviceId}
    {engine : ZiaEngine K} {choices : List (ChatChoice K)} {p : ChatPool K}
    (h : chatRun P user device engine choices = some p)
    (hcond : Throughout P user device engine SlotsAreLearnable p) :
    Throughout P user device engine CarriesUntilAcknowledged p := by
  refine (chatRun_always HandshakeInv (fun e s hinv hs hguard hc => ⟨?_, hinv.goal hguard hc⟩)
    ?_ h hcond).2
  · by_cases hcrash : e = .crash
    · subst hcrash
      exact handshakeInv_crash hc
    · exact hinv.alive hs hguard hc hcrash
  · constructor <;> intros <;> simp_all [Client.initial, WasInstalled, LinkedMap.get?,
      LinkedMap.empty]

/-! ## A chat that is reopened -/

/-- Before the server has taken anything, a message leaves without a handshake on a
session this client began. -/
def leavesBare (e : ChatEvent Key) (s : Client Key) : Bool :=
  match departs e with
  | none => false
  | some m =>
      s.record.accepted.isEmpty && m.header.head? == some 0 && s.journal.any fun entry =>
        match entry with
        | .prepared session m' => m' == m &&
            match s.originOf session with
            | some (.initiated _ _) => true
            | _ => false
        | _ => false

theorem leavesBare_eq_false {e : ChatEvent Key} {s : Client Key}
    (h : CarriesUntilAcknowledged e s) : leavesBare e s = false := by
  unfold leavesBare
  split
  · rfl
  · rename_i m hm
    by_contra hbad
    simp only [Bool.not_eq_false, Bool.and_eq_true, List.any_eq_true, beq_iff_eq,
      List.isEmpty_iff] at hbad
    obtain ⟨⟨hnone, hhead⟩, entry, hentry, hbad⟩ := hbad
    split at hbad
    · rename_i session m'
      obtain ⟨rfl, horigin⟩ := Bool.and_eq_true_iff.mp hbad |>.imp_left beq_iff_eq.mp
      split at horigin
      · rename_i n handshake hget
        rcases h.1 m' hm session n handshake hentry hget with ⟨_, _, _, hheader, _⟩ | ⟨m, hmem, _⟩
        · rw [hheader] at hhead
          exact absurd hhead (by simp [Envelope.packHeader])
        · rw [hnone] at hmem
          cases hmem
      · cases horigin
    · cases hbad

/-- A chat is started, the process dies, and the message written after the restart
has no handshake for a device that never got one. -/
theorem restoredSession_sendsBare : ∃ p,
    chatRun samplePlatform 1 1 (sampleEngine 1)
      (sampleChat ++ sampleRestart ++
        .start (.send (.message [66])) :: answered 2 [.call (sampleEnv 5)]) = some p ∧
    ¬ Throughout samplePlatform 1 1 (sampleEngine 1) CarriesUntilAcknowledged p :=
  not_throughout_of_scan leavesBare (fun _ _ => leavesBare_eq_false) (by decide +kernel)

/-- The process dies, or a session is installed beside another. -/
def crashesOrShares (e : ChatEvent Key) (s : Client Key) : Bool :=
  match e with
  | .act (.install _ _ _ _) => s.journal.any fun entry =>
      match entry with
      | .installed _ _ _ _ _ => true
      | _ => false
  | .crash => true
  | _ => false

theorem slotsAreLearnable_of_quiet {e : ChatEvent Key} {s : Client Key}
    (h : crashesOrShares e s = false) : SlotsAreLearnable e s := by
  unfold crashesOrShares at h
  unfold SlotsAreLearnable
  split
  · have hnone : ∀ conv device session, ¬ WasInstalled s conv device session := by
      rintro conv device session ⟨source, pinned, hmem⟩
      exact absurd rfl (List.any_eq_false.mp h _ hmem)
    exact ⟨fun session hs => absurd hs (hnone _ _ _), fun session _ hs => absurd hs (hnone _ _ _)⟩
  · cases h
  · trivial

/-- Without a restart the first message carries the handshake. -/
theorem firstMessage_carries : ∃ p,
    chatRun samplePlatform 1 1 (sampleEngine 1)
      (sampleChat ++ .start (.send (.message [66])) ::
        answered 2 [.call (sampleEnv 5), .done]) = some p ∧
    Throughout samplePlatform 1 1 (sampleEngine 1) CarriesUntilAcknowledged p := by
  have hrun : ∃ p,
      chatRun samplePlatform 1 1 (sampleEngine 1)
        (sampleChat ++ .start (.send (.message [66])) ::
          answered 2 [.call (sampleEnv 5), .done]) = some p ∧
      Throughout samplePlatform 1 1 (sampleEngine 1) SlotsAreLearnable p :=
    throughout_of_scan crashesOrShares (fun _ _ => slotsAreLearnable_of_quiet) (by decide +kernel)
  obtain ⟨p, hp, hcond⟩ := hrun
  exact ⟨p, hp, handshake_carriedUntilAcknowledged hp hcond⟩

end ZiaCrypte.Chat

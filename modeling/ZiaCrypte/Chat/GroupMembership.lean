import ZiaCrypte.Chat.RunChecks

/-!
# Devices of a removed member

A refresh replaces the list of members and leaves the sessions as they are, and
every send of a group goes by the sessions. A device of a member the server no
longer lists is left out exactly when no session of the group is held for it.
-/
namespace ZiaCrypte.Chat

open ZiaCrypte.Engine ZiaCrypte.Lib

variable {K : Type}

/-- The last completed refresh of the conversation did not list the user. -/
def Excluded (s : Client K) (conv : ConvId) (user : UserId) : Prop :=
  ∃ members, s.record.refreshed.lookup conv = some members ∧ user ∉ members

/-- Some object of this conversation has a session for the device. -/
def HoldsSession (s : Client K) (conv : ConvId) (device : DeviceId) : Prop :=
  ∃ ref, HasSession s ref device ∧ (s.conversation ref).id = conv

/-- The device may have been given the sender key: a message of the conversation
went to it since the key exists. -/
def MayHoldKey (s : Client K) (conv : ConvId) (key : SenderKey) (device : DeviceId) : Prop :=
  ∃ e ∈ s.record.sent, e.message.conversationId = conv ∧ e.message.recipientDeviceId = device ∧
    key < e.senderKeys

section

variable (owner : DeviceId → UserId) (conv : ConvId) (user : UserId)

/-- Nothing of the conversation goes to a device of the user once it is excluded,
and what goes to the group is under a key none of its devices was given. -/
def ExcludedIsLeftOut (e : ChatEvent K) (s : Client K) : Prop :=
  Excluded s conv user →
    (∀ m, departs e = some m → m.conversationId = conv → owner m.recipientDeviceId ≠ user) ∧
    ∀ devices ciphertext, e = .issue (.sendGroupMessage conv devices ciphertext) →
      ∀ device, owner device = user → device ∉ devices ∧ ¬ MayHoldKey s conv ciphertext.key device

/-- A refresh that excludes the user finds no session of the conversation with its
devices, and none is installed as long as it is excluded. -/
def NoSessionWithExcluded (e : ChatEvent K) (s : Client K) : Prop :=
  match e with
  | .act (.install ref device _ _) =>
      (s.conversation ref).id = conv → owner device = user → ¬ Excluded s conv user
  | .act (.refreshed ref members) =>
      (s.conversation ref).id = conv → user ∉ members →
        ∀ device, owner device = user → ¬ HoldsSession s conv device
  | _ => True

/-! ## The invariant -/

structure MembershipInv (s : Client K) : Prop where
  prepared : ∀ session m, Entry.prepared session m ∈ s.journal →
    HoldsSession s m.conversationId m.recipientDeviceId
  bounded : ∀ e ∈ s.record.sent, e.senderKeys ≤ s.nextSenderKey
  sentThisLaunch : ∀ e ∈ s.record.sent, s.keysAtLaunch < e.senderKeys →
    HoldsSession s e.message.conversationId e.message.recipientDeviceId
  noSession : Excluded s conv user → ∀ device, owner device = user →
    ¬ HoldsSession s conv device
  sentBefore : Excluded s conv user → ∀ e ∈ s.record.sent, e.message.conversationId = conv →
    owner e.message.recipientDeviceId = user → e.senderKeys ≤ s.keysAtLaunch

end

theorem HoldsSession.grows {s t : Client K} {conv : ConvId} {device : DeviceId}
    (h : HoldsSession s conv device) (hgrows : Grows s t) : HoldsSession t conv device := by
  obtain ⟨ref, hhas, hid⟩ := h
  exact ⟨ref, hhas.grows hgrows, ((hgrows.objects ref hhas.1).2.1).trans hid⟩

variable {P : Platform K}

/-! ## What one event changes -/

theorem hasSession_updateConversation {s : Client K} {conv ref : Ref} {device : DeviceId}
    {f : Conversation → Conversation} (h : HasSession (s.updateConversation conv f) ref device)
    (hsessions : ∀ c, (f c).sessions = c.sessions) : HasSession s ref device := by
  obtain ⟨hlt, hkey⟩ := h
  rw [Client.length_objects_updateConversation] at hlt
  refine ⟨hlt, ?_⟩
  rw [Client.conversation_updateConversation] at hkey
  split at hkey
  · rwa [hsessions] at hkey
  · exact hkey

theorem hasSession_create {s : Client K} {c : Conversation} {ref : Ref} {device : DeviceId}
    (hc : c.sessions = .empty) (h : HasSession (Stmt.apply (.create c) s) ref device) :
    HasSession s ref device := by
  obtain ⟨hlt, hkey⟩ := h
  rw [Client.conversation_create] at hkey
  split at hkey
  · rw [hc] at hkey
    cases hkey
  · exact hasSession_of_containsKey hkey

theorem hasSession_install {s : Client K} {conv ref : Ref} {device device' : DeviceId}
    {session : SessionId} {source : Source}
    (h : HasSession (s.install conv device session source) ref device') :
    HasSession s ref device' ∨ ref = conv ∧ device' = device := by
  obtain ⟨hlt, hkey⟩ := h
  rw [Client.install_objects, Client.length_objects_updateConversation] at hlt
  rw [Client.sessions_install] at hkey
  split at hkey
  · rename_i hconv
    rw [LinkedMap.containsKey_insert, Bool.or_eq_true, decide_eq_true_eq] at hkey
    rcases hkey with rfl | hold
    · exact .inr ⟨hconv.1, rfl⟩
    · exact .inl ⟨hlt, hold⟩
  · exact .inl ⟨hlt, hkey⟩

/-- A session for a device appears only where one is installed for it. -/
theorem hasSession_apply {e : ChatEvent K} {s : Client K} (hguard : Guard e s) {ref : Ref}
    {device : DeviceId} (h : HasSession ((chatSemantics P).apply e s) ref device) :
    HasSession s ref device ∨ ∃ session source, e = .act (.install ref device session source) := by
  cases e with
  | act a =>
    cases a with
    | create c => exact .inl (hasSession_create hguard h)
    | install conv device' session source =>
      rcases hasSession_install h with hold | ⟨rfl, rfl⟩
      · exact .inl hold
      · exact .inr ⟨session, source, rfl⟩
    | setPeerUserId => exact .inl (hasSession_updateConversation h fun _ => rfl)
    | completePeerUserId => exact .inl (hasSession_updateConversation h fun _ => rfl)
    | setGroup => exact .inl (hasSession_updateConversation h fun _ => rfl)
    | clearMembers => exact .inl (hasSession_updateConversation h fun _ => rfl)
    | addMembers => exact .inl (hasSession_updateConversation h fun _ => rfl)
    | addTarget => exact .inl (hasSession_updateConversation h fun _ => rfl)
    | removeTarget => exact .inl (hasSession_updateConversation h fun _ => rfl)
    | addOwn => exact .inl (hasSession_updateConversation h fun _ => rfl)
    | _ => exact .inl h
  | issue q => left; cases q <;> exact h
  | settle t q x =>
    left
    have hobjects : (q.settle P t x s).objects = s.objects := (settle_sameHeap P t q x s).objects
    have h' : HasSession (q.settle P t x s) ref device := h
    rwa [HasSession, Client.conversation, hobjects] at h'
  | crash =>
    obtain ⟨hlt, _⟩ := h
    cases hlt

theorem holdsSession_apply {e : ChatEvent K} {s : Client K} (hs : Coherent s) (hguard : Guard e s)
    (halive : e ≠ .crash) {conv : ConvId} {device : DeviceId}
    (h : HoldsSession ((chatSemantics P).apply e s) conv device) :
    HoldsSession s conv device ∨ ∃ ref session source,
      e = .act (.install ref device session source) ∧ (s.conversation ref).id = conv := by
  have hgrows := (hguard.advances P hs).2 halive
  obtain ⟨ref, hhas, hid⟩ := h
  rcases hasSession_apply hguard hhas with hold | ⟨session, source, rfl⟩
  · exact .inl ⟨ref, hold, (hgrows.objects ref hold.1).2.1 ▸ hid⟩
  · exact .inr ⟨ref, session, source, rfl, (s.id_install _ _ _ _ ref).symm.trans hid⟩

theorem refreshed_apply (e : ChatEvent K) (s : Client K) :
    ((chatSemantics P).apply e s).record.refreshed = s.record.refreshed ∨
      ∃ ref members, e = .act (.refreshed ref members) ∧
        ((chatSemantics P).apply e s).record.refreshed =
          ((s.conversation ref).id, members) :: s.record.refreshed := by
  cases e with
  | act a =>
    cases a with
    | install conv device session source =>
      left
      change (s.install conv device session source).record.refreshed = _
      rw [Client.record_install]
    | refreshed ref members => exact .inr ⟨ref, members, rfl, rfl⟩
    | _ => exact .inl rfl
  | issue q => left; cases q <;> rfl
  | settle t q x => exact .inl (settle_sameHeap P t q x s).refreshed
  | crash => exact .inl rfl

/-- Whoever is excluded afterwards was before, or the event is the refresh that excludes. -/
theorem excluded_apply {e : ChatEvent K} {s : Client K} {conv : ConvId} {user : UserId}
    (h : Excluded ((chatSemantics P).apply e s) conv user) :
    Excluded s conv user ∨ ∃ ref members, e = .act (.refreshed ref members) ∧
      (s.conversation ref).id = conv ∧ user ∉ members := by
  obtain ⟨members, hlookup, huser⟩ := h
  rcases refreshed_apply (P := P) e s with heq | ⟨ref, members', rfl, heq⟩
  · exact .inl ⟨members, heq ▸ hlookup, huser⟩
  · rw [heq, List.lookup_cons] at hlookup
    by_cases hid : conv = (s.conversation ref).id
    · rw [beq_iff_eq.mpr hid] at hlookup
      obtain rfl := Option.some.inj hlookup
      exact .inr ⟨ref, members', rfl, hid.symm, huser⟩
    · rw [beq_eq_false_iff_ne.mpr hid] at hlookup
      exact .inl ⟨members, hlookup, huser⟩

theorem Carried.senderKeys_le {s t : Client K} {q : Request K} (h : Carried P s q t) :
    s.nextSenderKey ≤ t.nextSenderKey := by
  cases h with
  | sealed he ho =>
    unfold Client.recordSeal
    split <;> exact Nat.le_refl _
  | senderKey conv => exact Nat.le_succ _
  | _ => exact Nat.le_refl _

theorem senderKeys_apply (e : ChatEvent K) (s : Client K) :
    s.nextSenderKey ≤ ((chatSemantics P).apply e s).nextSenderKey := by
  cases e with
  | act a =>
    cases a with
    | install conv device session source =>
      change _ ≤ (s.install conv device session source).nextSenderKey
      unfold Client.install
      cases s.pinnedKey device <;> cases source <;> exact Nat.le_refl _
    | _ => exact Nat.le_refl _
  | issue q => cases q <;> exact Nat.le_refl _
  | settle t q x =>
    exact (carryOut_carried P q x s).senderKeys_le
  | crash => exact Nat.le_refl _

/-! ## Runs -/

variable {owner : DeviceId → UserId} {conv : ConvId} {user : UserId}

theorem MembershipInv.goal {e : ChatEvent K} {s : Client K}
    (h : MembershipInv owner conv user s) (hguard : Guard e s) :
    ExcludedIsLeftOut owner conv user e s := by
  intro hexcluded
  have hnone := h.noSession hexcluded
  constructor
  · intro m hm hid howner
    obtain ⟨session, hprepared⟩ := wasPrepared_of_departs hguard hm
    exact hnone _ howner (hid ▸ h.prepared session m hprepared)
  · rintro devices ciphertext rfl device howner
    obtain ⟨hkey, hdevices⟩ := hguard
    refine ⟨fun hmem => ?_, ?_⟩
    · obtain ⟨ref, hlt, hid, hcontains⟩ := hdevices device hmem
      exact hnone device howner ⟨ref, ⟨hlt, hcontains⟩, hid⟩
    · rintro ⟨e, he, hid, hrecipient, hlt⟩
      have hbefore := h.sentBefore hexcluded e he hid (by rw [hrecipient, howner])
      exact Nat.not_le.mpr (Nat.lt_of_le_of_lt hkey hlt) hbefore

theorem MembershipInv.crash {s : Client K} (h : MembershipInv owner conv user s) :
    MembershipInv owner conv user s.crash where
  prepared session m hmem := by cases hmem
  bounded := h.bounded
  sentThisLaunch e he hlt := absurd (h.bounded e he) (Nat.not_le.mpr hlt)
  noSession _ device _ hholds := by
    obtain ⟨ref, ⟨hlt, _⟩, _⟩ := hholds
    cases hlt
  sentBefore _ e he _ _ := h.bounded e he

theorem MembershipInv.alive {e : ChatEvent K} {s : Client K}
    (h : MembershipInv owner conv user s) (hs : Coherent s) (hguard : Guard e s)
    (hcond : NoSessionWithExcluded owner conv user e s) (halive : e ≠ .crash) :
    MembershipInv owner conv user ((chatSemantics P).apply e s) := by
  have hgrows := (hguard.advances P hs).2 halive
  have hkeys := senderKeys_apply (P := P) e s
  have hprepared : ∀ session m, Entry.prepared session m ∈ ((chatSemantics P).apply e s).journal →
      HoldsSession ((chatSemantics P).apply e s) m.conversationId m.recipientDeviceId := by
    intro session m hmem
    rcases prepared_apply P halive hmem with hold | rfl
    · exact (h.prepared session m hold).grows hgrows
    · obtain ⟨ref, device, enc, rfl, hhas, _⟩ := hguard
      exact HoldsSession.grows ⟨ref, hhas, rfl⟩ hgrows
  have hsent : ∀ e' ∈ ((chatSemantics P).apply e s).record.sent, e' ∈ s.record.sent ∨
      ∃ m, departs e = some m ∧ e' = ⟨m, s.nextSenderKey⟩ := by
    intro e' he'
    rw [sent_apply] at he'
    rcases List.mem_append.mp he' with hnew | hold
    · obtain ⟨m, hm, rfl⟩ := List.mem_map.mp hnew
      exact .inr ⟨m, Option.mem_toList.mp hm, rfl⟩
    · exact .inl hold
  have hlaunch : ∀ e' ∈ ((chatSemantics P).apply e s).record.sent,
      ((chatSemantics P).apply e s).keysAtLaunch < e'.senderKeys →
        HoldsSession s e'.message.conversationId e'.message.recipientDeviceId := by
    intro e' he' hlt
    rcases hsent e' he' with hold | ⟨m, hm, rfl⟩
    · exact h.sentThisLaunch e' hold (hgrows.launch ▸ hlt)
    · obtain ⟨session, hmem⟩ := wasPrepared_of_departs hguard hm
      exact h.prepared session m hmem
  have hnone : Excluded ((chatSemantics P).apply e s) conv user → ∀ device, owner device = user →
      ¬ HoldsSession s conv device := by
    intro hexcluded device howner
    rcases excluded_apply hexcluded with hold | ⟨ref, members, rfl, hid, huser⟩
    · exact h.noSession hold device howner
    · exact hcond hid huser device howner
  refine ⟨hprepared, fun e' he' => ?_, fun e' he' hlt => (hlaunch e' he' hlt).grows hgrows,
    fun hexcluded device howner hholds => ?_, fun hexcluded e' he' hid howner => ?_⟩
  · rcases hsent e' he' with hold | ⟨m, _, rfl⟩
    · exact (h.bounded e' hold).trans hkeys
    · exact hkeys
  · rcases holdsSession_apply hs hguard halive hholds with hold | ⟨ref, session, source, rfl, hid⟩
    · exact hnone hexcluded device howner hold
    · rcases excluded_apply hexcluded with hold | ⟨_, _, heq, _⟩
      · exact hcond hid howner hold
      · cases heq
  · by_contra hlt
    exact hnone hexcluded _ howner (hid ▸ hlaunch e' he' (Nat.lt_of_not_le hlt))

/-- In every run in which a refresh that excludes the user finds no session of the
conversation with its devices and none is installed afterwards, nothing of the
conversation goes to them, and no key they were given encrypts to the group. -/
theorem excludedMember_isLeftOut (owner : DeviceId → UserId) (conv : ConvId) (member : UserId)
    {user : UserId} {device : DeviceId} {engine : ZiaEngine K} {choices : List (ChatChoice K)}
    {p : ChatPool K} (h : chatRun P user device engine choices = some p)
    (hcond : Throughout P user device engine (NoSessionWithExcluded owner conv member) p) :
    Throughout P user device engine (ExcludedIsLeftOut owner conv member) p := by
  refine (chatRun_always (MembershipInv owner conv member)
    (fun e s hinv hs hguard hc => ⟨?_, hinv.goal hguard⟩) ?_ h hcond).2
  · by_cases hcrash : e = .crash
    · subst hcrash
      exact hinv.crash
    · exact hinv.alive hs hguard hc hcrash
  · constructor <;> intros <;> simp_all [Client.initial, Excluded]

/-! ## A group of three -/

/-- Device 9 is user 2's, every other device user 3's. -/
def sampleOwner (device : DeviceId) : UserId := if device = 9 then 2 else 3

/-- A group of this client and the users of these bundles, named and announced. -/
def sampleGroup (members : List (UserId × List BundleJson)) : List (Outside Key) :=
  members.map (fun m => .number m.1) ++ [.number 5, .done] ++
    members.flatMap (fun m =>
      .bundles m.2 :: m.2.flatMap (fun _ => [.done, .done, .done, sampleOpening 6]) ++ [.done]) ++
    .bundles [] :: List.replicate 7 .done ++ .call (sampleEnv 5) :: List.replicate 9 .done

/-- The group is created, refreshed to the given members, and written to. -/
def sampleGroupRun (members : List (UserId × List BundleJson)) (left : List UserId) :
    List (ChatChoice Key) :=
  sampleLaunch ++
    .start (.createGroup members.length [65]) :: answered 1 (sampleGroup members) ++
    .start .refreshGroupMembers ::
      answered 2 (.users left :: left.flatMap (fun _ => [.bundles [], .done]) ++
        List.replicate 5 .done) ++
    .start (.send (.message [66])) :: answered 3 (List.replicate 2 .done)

/-- A group message of conversation 5 that has device 9 among its recipients. -/
def addressesNine (e : ChatEvent Key) (s : Client Key) : Bool :=
  match e with
  | .issue (.sendGroupMessage 5 devices _) =>
      (s.record.refreshed.lookup 5).any (fun members => !members.contains 2) && devices.contains 9
  | _ => false

theorem addressesNine_eq_false {e : ChatEvent Key} {s : Client Key}
    (h : ExcludedIsLeftOut sampleOwner 5 2 e s) : addressesNine e s = false := by
  unfold addressesNine
  split
  · rename_i devices ciphertext
    cases hlookup : s.record.refreshed.lookup 5 with
    | none => rfl
    | some members =>
      by_cases hmem : 2 ∈ members
      · simp [hmem]
      · have hleft := (h ⟨members, hlookup, hmem⟩).2 devices ciphertext rfl 9 rfl
        simp [hleft.1]
  · rfl

/-- User 2 is removed and the refresh completes; the next group message still goes
to its device 9. -/
theorem removedMember_addressed : ∃ p,
    chatRun samplePlatform 1 1 (sampleEngine 1)
      (sampleGroupRun [(2, [sampleBundle 9 2])] [1]) = some p ∧
    ¬ Throughout samplePlatform 1 1 (sampleEngine 1) (ExcludedIsLeftOut sampleOwner 5 2) p :=
  not_throughout_of_scan addressesNine (fun _ _ => addressesNine_eq_false) (by decide +kernel)

/-- A session with a device of user 3 is installed, or there at a refresh. -/
def meetsUserThree (e : ChatEvent Key) (s : Client Key) : Bool :=
  match e with
  | .act (.install _ device _ _) => sampleOwner device == 3
  | .act (.refreshed _ _) => s.objects.any fun c => c.sessions.keys.any (sampleOwner · == 3)
  | _ => false

theorem noSession_of_meets {e : ChatEvent Key} {s : Client Key} (h : meetsUserThree e s = false) :
    NoSessionWithExcluded sampleOwner 5 3 e s := by
  unfold meetsUserThree at h
  unfold NoSessionWithExcluded
  split
  · intro _ howner
    simp [howner] at h
  · rintro _ _ device howner ⟨ref, ⟨hlt, hkey⟩, _⟩
    simp only [List.any_eq_false, Bool.not_eq_true, beq_eq_false_iff_ne] at h
    refine h _ ?_ device (LinkedMap.mem_keys_iff.mpr hkey) howner
    rw [Client.conversation, List.getD_eq_getElem _ _ hlt]
    exact List.getElem_mem hlt
  · trivial

/-- User 3, who has no device yet, is removed; user 2 stays and is written to. -/
theorem deviceless_isLeftOut : ∃ p,
    chatRun samplePlatform 1 1 (sampleEngine 1)
      (sampleGroupRun [(2, [sampleBundle 9 2]), (3, [])] [1, 2]) = some p ∧
    Throughout samplePlatform 1 1 (sampleEngine 1) (ExcludedIsLeftOut sampleOwner 5 3) p := by
  have hrun : ∃ p,
      chatRun samplePlatform 1 1 (sampleEngine 1)
        (sampleGroupRun [(2, [sampleBundle 9 2]), (3, [])] [1, 2]) = some p ∧
      Throughout samplePlatform 1 1 (sampleEngine 1) (NoSessionWithExcluded sampleOwner 5 3) p :=
    throughout_of_scan meetsUserThree (fun _ _ => noSession_of_meets) (by decide +kernel)
  obtain ⟨p, hp, hcond⟩ := hrun
  exact ⟨p, hp, excludedMember_isLeftOut sampleOwner 5 3 hp hcond⟩

end ZiaCrypte.Chat

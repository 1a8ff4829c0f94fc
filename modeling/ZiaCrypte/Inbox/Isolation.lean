import ZiaCrypte.Inbox.Openings
import ZiaCrypte.Inbox.Scripted

/-!
# What the messages of another account can reach

A control, a name or a message stays in its conversation, and none of them is taken
for mine. A batch of history names its conversation itself, says which of its
messages are mine, and is taken from anybody.
-/
namespace ZiaCrypte.Inbox

open ZiaCrypte.Lib ZiaCrypte.Engine

variable {E : Type} (P : Platform E) (now : Int) (conv : Text)

/-- No message was added as mine, and no other conversation was written to, in memory
or in the vault. -/
structure Confined (s after : State E) : Prop where
  mine : (after.messagesIn conv).countP (·.mine) ≤ (s.thread conv).countP (·.mine)
  others : ∀ c, c ≠ conv →
    after.messagesIn c = s.messagesIn c ∧ after.readHistory c = s.readHistory c

theorem messagesIn_saveConversations (s : State E) (id : Text) :
    s.saveConversations.messagesIn id = s.messagesIn id := rfl

theorem readHistory_saveConversations (s : State E) (id : Text) :
    s.saveConversations.readHistory id = s.readHistory id := rfl

theorem readHistory_putConv (s : State E) (id id' : Text) (c : Conversation) :
    (s.putConv id c).readHistory id' = s.readHistory id' := rfl

/-- A thread is saved in its own place. -/
theorem readHistory_saveHistory_ne (s : State E) {id id' : Text} (h : id' ≠ id) :
    (s.saveHistory id).readHistory id' = s.readHistory id' := by
  unfold State.saveHistory
  split
  · rfl
  · rw [State.readHistory, LinkedMap.get?_insert_ne _ _ h]
    rfl

/-! ## Batches of history -/

/-- A batch is of the right shape up to its messages. -/
def batchReadable (data : List (Text × Json)) (convId : Text) (s : State E) : Bool :=
  (field data "peer").asString?.isSome &&
    (((s.conv? convId).bind (·.peerUserId)).isSome || (field data "peerId").asString?.isSome) &&
    (field data "members").asList?.any fun members =>
      (members.getD []).all (·.asString.isSome)

/-- The conversation a batch adds to, and the messages it adds; `none` where it adds
none. -/
def batchEntrants (json : Text) (s : State E) : Option (Text × List ChatMessage) := do
  let data ← (P.jsonDecode json).bind Json.asMap
  let convId ← (field data "conv").asString
  if batchReadable data convId s then
    match syncEntrants data (s.messagesIn convId) with
    | none => none
    | some [] => none
    | some entrants => some (convId, entrants)
  else none

/-- The contents are no batch, or a batch that adds none of my messages and none to
another conversation. -/
def BatchConfined (texte : Text) (s : State E) : Prop :=
  estControle texte = false → estSync texte = true → ∀ convId entrants,
    batchEntrants P (texte.drop prefixeSync.length) s = some (convId, entrants) →
    convId = conv ∧ ∀ m ∈ entrants, m.mine = false

theorem addMembers_snd (members : List Text) (js : List Json) :
    (addMembers members js).2 = js.all (·.asString.isSome) := by
  induction js generalizing members with
  | nil => rfl
  | cons j js ih =>
    rw [addMembers, List.all_cons]
    cases j.asString with
    | none => rfl
    | some t => exact ih _

/-- The messages of a thread are kept by a batch that adds none. -/
structure SameMessages (s after : State E) : Prop where
  messages : ∀ c, after.messagesIn c = s.messagesIn c
  hist : after.coffre.hist = s.coffre.hist

theorem SameMessages.refl (s : State E) : SameMessages s s := ⟨fun _ => rfl, rfl⟩

theorem sameMessages_putConv {s : State E} {id : Text} {c : Conversation}
    (h : c.messages = s.messagesIn id) : SameMessages s (s.putConv id c) := by
  refine ⟨fun c' => ?_, rfl⟩
  rw [messagesIn_putConv]
  split
  · rename_i hc
    rw [hc, h]
  · rfl

theorem SameMessages.trans {s s' s'' : State E} (h : SameMessages s s')
    (h' : SameMessages s' s'') : SameMessages s s'' :=
  ⟨fun c => (h'.messages c).trans (h.messages c), h'.hist.trans h.hist⟩

/-- A batch that adds nothing changes no message; one that adds writes one thread. -/
theorem applySyncPayload_cases (json : Text) (s : State E) :
    (batchEntrants P json s = none ∧ SameMessages s (applySyncPayload P now json s)) ∨
    ∃ convId entrants, batchEntrants P json s = some (convId, entrants) ∧ entrants ≠ [] ∧
      (∀ c, (applySyncPayload P now json s).messagesIn c =
        if c = convId then trier (s.messagesIn convId ++ entrants) else s.messagesIn c) ∧
      ∀ c, c ≠ convId → (applySyncPayload P now json s).readHistory c = s.readHistory c := by
  unfold applySyncPayload batchEntrants batchReadable
  cases (P.jsonDecode json).bind Json.asMap with
  | none => exact .inl ⟨rfl, .refl s⟩
  | some data =>
    simp only [Option.bind_eq_bind, Option.bind_some]
    cases (field data "conv").asString with
    | none => exact .inl ⟨rfl, .refl s⟩
    | some convId =>
      rw [Option.bind_some]
      dsimp only
      cases (field data "peer").asString? with
      | none => exact .inl ⟨rfl, .refl s⟩
      | some peer =>
        dsimp only
        have hmessages : ((s.conv? convId).getD
            (.new convId (peer.getD (text "inconnu")) now)).messages = s.messagesIn convId := by
          rw [State.messagesIn]
          cases s.conv? convId <;> rfl
        have hpeerUserId : ((s.conv? convId).getD
            (.new convId (peer.getD (text "inconnu")) now)).peerUserId =
              (s.conv? convId).bind (·.peerUserId) := by
          cases s.conv? convId <;> rfl
        generalize (s.conv? convId).getD (.new convId (peer.getD (text "inconnu")) now) = c
          at hmessages hpeerUserId ⊢
        rw [← hpeerUserId, ← hmessages]
        have hnamed : SameMessages s (s.putConv convId
            { c with peerUsername := peer.getD c.peerUsername }) :=
          sameMessages_putConv hmessages
        have hput : ∀ c' : Conversation, c'.messages = c.messages → ∀ s' : State E,
            SameMessages s s' → SameMessages s (s'.putConv convId c') := fun c' hc' s' hs' =>
          hs'.trans (sameMessages_putConv (by rw [hc', hmessages, hs'.messages]))
        have hpeers : (c.peerUserId.isSome || (field data "peerId").asString?.isSome) =
            (if c.peerUserId.isSome then some c.peerUserId
              else (field data "peerId").asString?).isSome := by
          cases c.peerUserId <;> rfl
        rw [hpeers]
        cases (if c.peerUserId.isSome then some c.peerUserId
            else (field data "peerId").asString?) with
        | none => exact .inl ⟨rfl, hnamed⟩
        | some peerUserId =>
          dsimp only
          cases (field data "members").asList? with
          | none => exact .inl ⟨rfl, hput _ (by rfl) _ hnamed⟩
          | some members =>
            dsimp only
            rw [addMembers_snd]
            cases hall : (members.getD []).all (·.asString.isSome) with
            | false =>
              simp only [hall, Bool.not_false, if_true, Option.isSome_some, Bool.true_and,
                Option.any_some, Bool.false_eq_true, if_false]
              exact .inl ⟨trivial, hput _ (by rfl) _ (hput _ (by rfl) _ hnamed)⟩
            | true =>
              simp only [hall, Bool.not_true, Bool.false_eq_true, if_false, Option.isSome_some,
                Bool.true_and, Option.any_some, if_true]
              cases syncEntrants data c.messages with
              | none =>
                exact .inl ⟨rfl, hput _ (by rfl) _ (hput _ (by rfl) _ hnamed)⟩
              | some entrants =>
                cases entrants with
                | nil =>
                  exact .inl ⟨rfl, hput _ (by rfl) _ (hput _ (by rfl) _ hnamed)⟩
                | cons e entrants =>
                  refine .inr ⟨convId, e :: entrants, rfl, List.cons_ne_nil _ _, fun c' => ?_,
                    fun c' hc' => ?_⟩
                  · dsimp only
                    rw [messagesIn_saveConversations, messagesIn_saveHistory, messagesIn_putConv]
                    split
                    · dsimp only
                      rw [hmessages]
                    · rename_i hc'
                      rw [messagesIn_putConv, if_neg hc', messagesIn_putConv, if_neg hc',
                        messagesIn_putConv, if_neg hc']
                  · dsimp only
                    rw [readHistory_saveConversations, readHistory_saveHistory_ne _ hc',
                      readHistory_putConv, readHistory_putConv, readHistory_putConv,
                      readHistory_putConv]

/-! ## What stays in its conversation -/

variable {conv} {s s' after : State E}

theorem SameMessages.confined (h : SameMessages s after) : Confined conv s after where
  mine := by
    rw [h.messages, State.messagesIn, State.thread]
    cases s.conv? conv with
    | some c => exact Nat.le_refl _
    | none => exact Nat.zero_le _
  others c _ := ⟨h.messages c, by rw [State.readHistory, h.hist, State.readHistory]⟩

/-- A thread is put back without a new message of mine. -/
theorem confined_putConv {c c' : Conversation} (hc : s.conv? conv = some c)
    (hmine : c'.messages.countP (·.mine) ≤ c.messages.countP (·.mine)) :
    Confined conv s (s.putConv conv c') where
  mine := by rwa [messagesIn_putConv, if_pos rfl, State.thread, hc]
  others c'' hne := ⟨by rw [messagesIn_putConv, if_neg hne], rfl⟩

theorem Confined.saveHistory (h : Confined conv s after) :
    Confined conv s (after.saveHistory conv) where
  mine := by
    rw [messagesIn_saveHistory]
    exact h.mine
  others c hne := ⟨by rw [messagesIn_saveHistory]; exact (h.others c hne).1,
    by rw [readHistory_saveHistory_ne _ hne]; exact (h.others c hne).2⟩

/-- What was done before counts for nothing where it kept the messages. -/
theorem confined_congr (hthread : s'.thread conv = s.thread conv)
    (hothers : ∀ c, c ≠ conv →
      s'.messagesIn c = s.messagesIn c ∧ s'.readHistory c = s.readHistory c) :
    Confined conv s after ↔ Confined conv s' after := by
  constructor
  · exact fun hconf => ⟨by rw [hthread]; exact hconf.mine, fun c hc =>
      ⟨(hconf.others c hc).1.trans (hothers c hc).1.symm,
        (hconf.others c hc).2.trans (hothers c hc).2.symm⟩⟩
  · exact fun hconf => ⟨by rw [← hthread]; exact hconf.mine, fun c hc =>
      ⟨(hconf.others c hc).1.trans (hothers c hc).1, (hconf.others c hc).2.trans (hothers c hc).2⟩⟩

theorem ReadIn.confined_iff (h : ReadIn conv s s') :
    Confined conv s after ↔ Confined conv s' after := by
  obtain ⟨c, hc, hmessages⟩ := h.messages
  refine confined_congr ?_ fun c hc => ⟨?_, ?_⟩
  · rw [State.thread, hc]
    exact hmessages
  · rw [State.messagesIn, h.others c hc, State.messagesIn]
  · rw [State.readHistory, h.hist, State.readHistory]

theorem Keeps.confined_iff (h : Keeps conv s s') :
    Confined conv s after ↔ Confined conv s' after :=
  confined_congr (h.thread conv) fun c _ =>
    ⟨h.messagesIn c, by rw [State.readHistory, h.hist, State.readHistory]⟩

/-! ## Controls -/

theorem Confined.refl : Confined conv s s := (SameMessages.refl s).confined

/-- A control of either side stays in its conversation and writes no message of mine. -/
theorem appliquerControle_confined (texte : Text) (deMoi : Bool) (device : Text)
    (reacteur : Option Text) :
    Confined conv s (appliquerControle P now conv texte deMoi device reacteur s) := by
  have hwrites : Writes conv s (appliquerControle P now conv texte deMoi device reacteur s) :=
    appliquerControle_writes P now texte deMoi device reacteur
  rcases hwrites with ⟨hsame, hhist⟩ | ⟨c, messages, ttl, hc, hmine, heq⟩
  · refine SameMessages.confined ⟨fun c => ?_, hhist⟩
    rw [State.messagesIn, State.conv?, hsame]
    rfl
  · rw [heq]
    exact (confined_putConv hc hmine).saveHistory

/-! ## The other contents -/

theorem countP_trier (messages entrants : List ChatMessage) :
    (trier (messages ++ entrants)).countP (·.mine) =
      messages.countP (·.mine) + entrants.countP (·.mine) := by
  rw [trier, (List.perm_insertionSort _ _).countP_eq, List.countP_append]

/-- A batch stays in its conversation exactly if it says so and none of its messages
is mine. -/
theorem applySyncPayload_confined_iff (json : Text) (hconv : (s.conv? conv).isSome) :
    Confined conv s (applySyncPayload P now json s) ↔
      ∀ convId entrants, batchEntrants P json s = some (convId, entrants) →
        convId = conv ∧ ∀ m ∈ entrants, m.mine = false := by
  rcases applySyncPayload_cases P now json s with
    ⟨hnone, hsame⟩ | ⟨convId, entrants, hbatch, hne, hmessages, hhist⟩
  · rw [hnone]
    refine iff_of_true hsame.confined ?_
    rintro _ _ ⟨⟩
  obtain ⟨c, hc⟩ := Option.isSome_iff_exists.mp hconv
  have hthread : s.thread conv = s.messagesIn conv := by
    rw [State.thread, hc, messagesIn_of_conv? hc]
  rw [hbatch]
  constructor
  · rintro hconf _ _ ⟨⟩
    have hconvId : convId = conv := by
      by_contra hother
      have hlength := congrArg List.length (hconf.others convId hother).1
      rw [hmessages, if_pos rfl, trier, List.length_insertionSort, List.length_append] at hlength
      exact hne (List.eq_nil_of_length_eq_zero (by omega))
    subst hconvId
    refine ⟨rfl, ?_⟩
    have hmine := hconf.mine
    rw [hmessages, if_pos rfl, countP_trier, hthread] at hmine
    have hzero : entrants.countP (·.mine) = 0 := by omega
    simpa [List.countP_eq_zero] using hzero
  · intro hallowed
    obtain ⟨rfl, hnone⟩ := hallowed convId entrants rfl
    have hzero : entrants.countP (·.mine) = 0 := by simpa [List.countP_eq_zero] using hnone
    refine ⟨?_, fun c hc => ⟨by rw [hmessages, if_neg hc], hhist c hc⟩⟩
    rw [hmessages, if_pos rfl, countP_trier, hthread, hzero, Nat.add_zero]

theorem addReceived_confined (payload : Payload) (senderUsername : Option Text) (s : State E) :
    Confined conv s (addReceived now conv payload false senderUsername s).1 := by
  unfold addReceived
  split
  · exact .refl
  · rename_i c hc
    split
    · exact .refl
    · rename_i message hmessage
      refine confined_putConv hc ?_
      simp only [receivedMessage, Option.bind_eq_bind, Option.bind_eq_some_iff] at hmessage
      obtain ⟨expiresAt, -, hmessage⟩ := hmessage
      obtain rfl := Option.some.inj hmessage
      rw [List.countP_append]
      exact Nat.le_refl _

/-- The contents of a message of another account stay in its conversation exactly if a
batch does. -/
theorem dispatch_confined_iff {m : Incoming} {senderUsername : Option Text} (sender : Text)
    (plain : Bytes) (hconv : (s.conv? conv).isSome)
    (hname : m.senderUsername.asString? = some senderUsername)
    (hforeign : senderUsername ≠ s.username) :
    Confined conv s (dispatch P now conv sender plain m s).1 ↔
      BatchConfined P conv (decodePayload P plain).text s := by
  unfold dispatch BatchConfined
  rw [hname]
  simp only [decide_eq_false hforeign]
  cases hcontrole : estControle (decodePayload P plain).text with
  | true =>
    simp only [if_true, reduceCtorEq, false_implies, iff_true]
    split
    · exact .refl
    · exact appliquerControle_confined P now _ false sender _
  | false =>
    simp only [Bool.false_eq_true, if_false, forall_const]
    cases hsync : estSync (decodePayload P plain).text with
    | true =>
      simp only [if_true, forall_const]
      exact applySyncPayload_confined_iff P now _ hconv
    | false =>
      simp only [Bool.false_eq_true, if_false, false_implies, iff_true]
      split
      · split
        · exact .refl
        · rename_i c hc
          exact confined_putConv hc (Nat.le_refl _)
      · exact addReceived_confined now _ _ s

/-- A post of a channel stays in the channel, and is not mine. -/
theorem recevoirCanal_confined (m : Incoming) (s : State E) {canalId : Text}
    (hchannel : m.channelId.asString = some canalId) :
    Confined canalId s (recevoirCanal P now m s).1 := by
  unfold recevoirCanal
  rw [hchannel]
  dsimp only
  split
  · exact .refl
  · rename_i c hc
    split
    · exact .refl
    · split
      · exact .refl
      · exact .refl
      · rename_i sender _
        have hkeeps := openGroup_keeps P canalId sender m s
        have hconf : ∀ s', Keeps canalId s s' → Confined canalId s s' := fun s' h =>
          SameMessages.confined ⟨h.messagesIn, h.hist⟩
        split
        · rename_i s' hopen
          rw [hopen] at hkeeps
          exact hconf s' hkeeps
        · rename_i s' hopen
          rw [hopen] at hkeeps
          exact hconf s' hkeeps
        · rename_i s' _ plain hopen
          rw [hopen] at hkeeps
          split
          · exact hconf s' hkeeps
          · split
            · exact hconf s' hkeeps
            · refine Confined.saveHistory ⟨?_, fun c' hne => ⟨?_, ?_⟩⟩
              · rw [messagesIn_putConv, if_pos rfl, State.thread, hc, List.countP_append]
                exact Nat.le_refl _
              · rw [messagesIn_putConv, if_neg hne, (hconf s' hkeeps).others c' hne |>.1]
              · exact ((hconf s' hkeeps).others c' hne).2

/-! ## Any contents of another account -/

/-- What is decrypted from a message of another account adds no message of mine and
reaches no other conversation, exactly if a batch of history among it adds none of
mine, and none elsewhere. -/
theorem foreignContents_confined (s : State E) (m : Incoming) :
    (∀ m' conv sender plain s' senderUsername, Opens P now m s m' conv sender plain s' →
      m'.senderUsername.asString? = some senderUsername → senderUsername ≠ s.username →
      (Confined conv s (receive P now m s).1 ↔
        BatchConfined P conv (decodePayload P plain).text s')) ∧
    ∀ m' canalId, (enveloppe P m s).2 = some m' → m'.channelId = .str canalId →
      Confined canalId s (receive P now m s).1 := by
  constructor
  · intro m' conv sender plain s' senderUsername hopen hname hforeign
    have hread := hopen.readIn
    obtain ⟨c, hc, -⟩ := hread.messages
    rw [hopen.receive_eq, hread.confined_iff]
    exact dispatch_confined_iff P now sender plain (Option.isSome_iff_exists.mpr ⟨c, hc⟩) hname
      (by rwa [hread.username])
  · intro m' canalId henv hchannel
    have hreceive : receive P now m s = recevoirCanal P now m' (enveloppe P m s).1 := by
      rw [receive_enveloppe]
      generalize enveloppe P m s = r at henv
      obtain ⟨s₀, o⟩ := r
      obtain rfl := henv
      simp only [receiveOpen, hchannel, Json.isNull, Bool.not_false, if_true]
    rw [hreceive, (enveloppe_keeps P canalId m s).confined_iff]
    exact recevoirCanal_confined P now m' _ (by rw [hchannel]; rfl)

/-! ## Bob's messages -/

/-- A batch that says I wrote to Carol. -/
def lot : String :=
  "\x7b\"t\":\"__zia_sync__:\x7b\\\"conv\\\":\\\"carol\\\",\\\"msgs\\\":[\x7b\\\"a\\\":5,\\\"t\\\":\\\"oui\\\",\\\"m\\\":true\x7d]\x7d\"\x7d"

def bobScript : Script where
  json := [
    (text "\x7b\"t\":\"bonjour\"\x7d", .obj [(text "t", .str (text "bonjour"))]),
    (text lot,
      .obj [(text "t", .str (text
        "__zia_sync__:\x7b\"conv\":\"carol\",\"msgs\":[\x7b\"a\":5,\"t\":\"oui\",\"m\":true\x7d]\x7d"))]),
    (text "\x7b\"conv\":\"carol\",\"msgs\":[\x7b\"a\":5,\"t\":\"oui\",\"m\":true\x7d]\x7d",
      .obj [(text "conv", .str (text "carol")),
        (text "msgs", .arr [.obj [(text "a", .num (some 5)), (text "t", .str (text "oui")),
          (text "m", .bool true)]])])]
  base64 := [(text "Ag==", [2]), (text "AQ==", [1]), (text "Aw==", [3])]
  opened := [([1], bonjourPayload), ([3], ascii lot)]

/-- Bob's batch writes, as me, to the conversation with Carol. -/
theorem bobsBatch_reachesCarol :
    ¬ Confined (text "bob") talkOfBob
      (receive (scripted bobScript) 1 (fromBob (text "Aw==")) talkOfBob).1 := by
  intro h
  have hcarol := (h.others (text "carol") (by decide)).1
  revert hcarol
  decide +kernel

/-- His greeting stays where it is. -/
theorem bobsGreeting_confined :
    Confined (text "bob") talkOfBob
      (receive (scripted bobScript) 1 (fromBob (text "AQ==")) talkOfBob).1 := by
  have hopen : Opens (scripted bobScript) 1 (fromBob (text "AQ==")) talkOfBob
      (fromBob (text "AQ==")) (text "bob") (text "bob-1") bonjourPayload
      (restoreSessions (scripted bobScript) (text "bob") talkOfBob) := ⟨rfl, _, _, rfl, rfl, rfl⟩
  refine ((foreignContents_confined (scripted bobScript) 1 talkOfBob (fromBob (text "AQ=="))).1
    _ _ _ _ _ (some (text "bob")) hopen rfl (by decide)).mpr ?_
  intro _ hsync
  have hnot : estSync (decodePayload (scripted bobScript) bonjourPayload).text = false := by
    decide +kernel
  exact absurd (hsync.symm.trans hnot) Bool.noConfusion

end ZiaCrypte.Inbox

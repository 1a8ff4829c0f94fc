import ZiaCrypte.Inbox.Refusals
import ZiaCrypte.Inbox.Scripted
import ZiaCrypte.Lib.Sift

/-!
# Malformed messages of a batch

`_pollOnce` catches what decrypting throws, message by message; what anything else
throws, at the very end. A batch comes to what its readable messages come to where
no message throws and none that is refused was noticed.
-/
namespace ZiaCrypte.Inbox

open ZiaCrypte.Lib ZiaCrypte.Engine ZiaCrypte.Chat

variable {E : Type} (P : Platform E) (now : Int)

/-- One turn of the loop: the client and the conversations to save. -/
def turn (m : Incoming) (st : State E × List Text) : Option (State E × List Text) :=
  match receive P now m st.1 with
  | (s, .skipped) => some (s, st.2)
  | (s, .touched conv) => some (s, addToSet st.2 conv)
  | (_, .thrown) => none

theorem receiveAll_iff_run (batch : List Incoming) (touched touched' : List Text)
    (s s' : State E) :
    receiveAll P now batch touched s = (s', some touched') ↔
      run (turn P now) batch (s, touched) = some (s', touched') := by
  induction batch generalizing touched s with
  | nil => simp [receiveAll]
  | cons m batch ih =>
    rw [receiveAll, run_cons, turn]
    rcases receive P now m s with ⟨s₁, r⟩
    cases r with
    | skipped => exact ih touched s₁
    | touched conv => exact ih (addToSet touched conv) s₁
    | thrown => simp

/-! ## Which messages are read -/

def Opening.isClair : Opening E → Bool
  | .clair _ _ _ => true
  | _ => false

/-- A post of a channel decrypts. -/
def canalOuvre (m : Incoming) (s : State E) : Bool :=
  match m.channelId.asString with
  | none => false
  | some canalId =>
      match s.conv? canalId with
      | none => false
      | some c =>
          c.isChannel && match m.senderDeviceId.asString? with
            | some (some sender) => (openGroup P canalId sender m s).isClair
            | _ => false

/-- A message decrypts. -/
def ouvre (m : Incoming) (s : State E) : Bool :=
  match enveloppe P m s with
  | (_, none) => false
  | (s, some m) =>
      if m.channelId.isNull then
        match resolveConversation P now m s with
        | none => false
        | some (conv, s) => (openMessage P conv m s).isClair
      else canalOuvre P m s

/-- The messages of a batch that decrypt, where the others are left out. -/
def lisibles (batch : List Incoming) (s : State E) : List Incoming :=
  sift (turn P now) (fun m st => ouvre P now m st.1) batch (s, [])

/-! ## What is felt of a message -/

/-- The fields a decrypted message is read with have their types, and its time to live
ends at a date. -/
structure Legible (conv : Text) (plain : Bytes) (m : Incoming) (s : State E) : Prop where
  senderUsername : m.senderUsername.asString?.isSome
  senderUserId : estControle (decodePayload P plain).text = true → m.senderUserId.asString?.isSome
  date : estControle (decodePayload P plain).text = false →
    estSync (decodePayload P plain).text = false →
    estAnnonceInterne (decodePayload P plain).text = false →
    ∃ c, s.conv? conv = some c ∧ (echeance now c.ttlSecondes).isSome

/-- The time of a post is a date. -/
def Dated (m : Incoming) : Prop :=
  (match m.timestampMs with
    | .null => fromMilliseconds (millisecondsSinceEpoch now)
    | j => j.asInt.bind fromMilliseconds).isSome

/-- A post is for no channel that is known, or from no device, or the engine refuses it;
or it decrypts and is dated, if it is to be shown. The engine is `e'` where nothing is
read. -/
def PostBearable (m : Incoming) (s : State E) (e' : E) : Prop :=
  ∃ canalId, m.channelId.asString = some canalId ∧
    match (s.conv? canalId).filter (·.isChannel) with
    | none => e' = s.outside
    | some _ => ∃ device, m.senderDeviceId.asString? = some device ∧
        match device with
        | none => e' = s.outside
        | some sender => GroupRefused P canalId sender m s.outside e' ∨
            ∃ s' sender' plain, openGroup P canalId sender m s = .clair s' sender' plain ∧
              (estControle (decodePayload P plain).text = true ∨
                estAnnonceInterne (decodePayload P plain).text = true ∨ Dated now m)

/-- A message is refused without a trace, or decrypts and can be read. -/
def Bearable (m : Incoming) (s : State E) : Prop :=
  match enveloppe P m s with
  | (s₀, none) => s₀.outside = s.outside
  | (s₀, some m') =>
      if m'.channelId.isNull then
        Refused P m' s₀ s.outside ∨ ∃ conv sender plain s',
          Opens P now m s m' conv sender plain s' ∧ Legible P now conv plain m' s'
      else PostBearable P now m' s₀ s.outside

/-! ## What throws -/

theorem addReceived_not_thrown_iff (conv : Text) (payload : Payload) (fromMyself : Bool)
    (senderUsername : Option Text) (s : State E) :
    (addReceived now conv payload fromMyself senderUsername s).2 ≠ .thrown ↔
      ∃ c, s.conv? conv = some c ∧ (echeance now c.ttlSecondes).isSome := by
  unfold addReceived receivedMessage
  cases s.conv? conv with
  | none => simp
  | some c => cases h : echeance now c.ttlSecondes <;> simp [h]

theorem dispatch_not_thrown_iff (conv sender : Text) (plain : Bytes) (m : Incoming)
    (s : State E) :
    (dispatch P now conv sender plain m s).2 ≠ .thrown ↔ Legible P now conv plain m s := by
  unfold dispatch
  cases hname : m.senderUsername.asString? with
  | none => exact iff_of_false (fun h => h rfl) fun h => by simpa [hname] using h.senderUsername
  | some senderUsername =>
    have hsome : m.senderUsername.asString?.isSome := by rw [hname]; rfl
    dsimp only
    cases hcontrole : estControle (decodePayload P plain).text with
    | true =>
      rw [if_pos rfl]
      cases hid : m.senderUserId.asString? with
      | none =>
        exact iff_of_false (fun h => h rfl) fun h => by simpa [hid] using h.senderUserId hcontrole
      | some senderUserId =>
        exact iff_of_true nofun ⟨hsome, fun _ => by rw [hid]; rfl, by simp [hcontrole]⟩
    | false =>
      rw [if_neg Bool.false_ne_true]
      cases hsync : estSync (decodePayload P plain).text with
      | true =>
        rw [if_pos rfl]
        exact iff_of_true nofun ⟨hsome, by simp [hcontrole], by simp [hsync]⟩
      | false =>
        rw [if_neg Bool.false_ne_true]
        cases hannonce : estAnnonceInterne (decodePayload P plain).text with
        | true =>
          rw [if_pos rfl]
          refine iff_of_true ?_ ⟨hsome, by simp [hcontrole], by simp [hannonce]⟩
          cases s.conv? conv <;> nofun
        | false =>
          rw [if_neg Bool.false_ne_true, addReceived_not_thrown_iff]
          exact ⟨fun h => ⟨hsome, by simp [hcontrole], fun _ _ _ => h⟩,
            fun h => h.date hcontrole hsync hannonce⟩

/-- What becomes of a post. -/
theorem postBearable_iff {m : Incoming} {s : State E} {e' : E} :
    PostBearable P now m s e' ↔ (recevoirCanal P now m s).2 ≠ .thrown ∧
      (canalOuvre P m s = false →
        recevoirCanal P now m s = ({ s with outside := e' }, .skipped)) := by
  unfold PostBearable recevoirCanal canalOuvre
  cases m.channelId.asString with
  | none => simp
  | some canalId =>
    simp only [Option.some.injEq, exists_eq_left']
    cases s.conv? canalId with
    | none => simp [outside_eq_iff]
    | some c =>
      dsimp only
      cases hchannel : c.isChannel with
      | false =>
        have hfilter : (some c).filter (·.isChannel) = none := by simp [Option.filter, hchannel]
        rw [hfilter]
        simp [outside_eq_iff]
      | true =>
        have hfilter : (some c).filter (·.isChannel) = some c := by simp [Option.filter, hchannel]
        rw [hfilter]
        rcases m.senderDeviceId.asString? with _ | _ | sender
        · simp
        · simp [outside_eq_iff]
        · simp only [Option.some.injEq, exists_eq_left', ← openGroup_refused_iff]
          cases openGroup P canalId sender m s with
          | skipped s' => simp [Opening.isClair]
          | thrown s' => simp
          | clair s' sender' plain =>
            simp only [Opening.isClair, reduceCtorEq, false_or, Opening.clair.injEq, and_assoc,
              exists_and_left, exists_eq_left', Bool.and_true, Bool.true_eq_false, false_implies,
              and_true, Bool.not_true, Bool.false_eq_true, if_false]
            cases estControle (decodePayload P plain).text with
            | true => simp
            | false =>
              cases estAnnonceInterne (decodePayload P plain).text with
              | true => simp
              | false =>
                simp only [Bool.or_false, Bool.false_eq_true, if_false, false_or]
                unfold Dated
                cases m.timestampMs <;> dsimp only <;> split <;> simp_all

theorem recevoirCanal_of_not_ouvre {m : Incoming} {s : State E} (h : canalOuvre P m s = false)
    (conv : Text) : (recevoirCanal P now m s).2 ≠ .touched conv := by
  unfold canalOuvre at h
  unfold recevoirCanal
  cases hid : m.channelId.asString with
  | none => simp
  | some canalId =>
    rw [hid] at h
    dsimp only at h ⊢
    cases hc : s.conv? canalId with
    | none => simp
    | some c =>
      rw [hc] at h
      dsimp only at h ⊢
      cases hchannel : c.isChannel with
      | false => simp
      | true =>
        rw [hchannel, Bool.true_and] at h
        rw [Bool.not_true, if_neg Bool.false_ne_true]
        rcases hsender : m.senderDeviceId.asString? with _ | _ | sender
        · simp
        · simp
        · rw [hsender] at h
          dsimp only at h ⊢
          cases hopen : openGroup P canalId sender m s with
          | skipped s' => simp
          | thrown s' => simp
          | clair s' sender' plain =>
            rw [hopen] at h
            cases h

/-- What a turn that is not felt comes to. -/
theorem unfelt_turn_iff (m : Incoming) (s : State E) (touched : List Text) :
    Unfelt (turn P now) (fun m st => ouvre P now m st.1) m (s, touched) ↔
      (receive P now m s).2 ≠ .thrown ∧
        (ouvre P now m s = false → ∀ st, turn P now m (s, touched) = some st →
          st = (s, touched)) := by
  have hturn : (∃ st, turn P now m (s, touched) = some st) ↔ (receive P now m s).2 ≠ .thrown := by
    rw [turn]
    rcases receive P now m s with ⟨s', r⟩
    cases r <;> simp
  rw [← hturn]
  constructor
  · rintro ⟨st, hst, hbad⟩
    refine ⟨⟨st, hst⟩, fun hnot st' hst' => ?_⟩
    obtain rfl := Option.some.inj (hst.symm.trans hst')
    exact hbad hnot
  · rintro ⟨⟨st, hst⟩, hbad⟩
    exact ⟨st, hst, fun hnot => hbad hnot st hst⟩

theorem enveloppe_state (m : Incoming) (s : State E) :
    (enveloppe P m s).1 = { s with outside := (enveloppe P m s).1.outside } := by
  unfold enveloppe ouvrirScelle
  split
  · split
    · rfl
    · dsimp only
      split <;> rfl
  · rfl

theorem opens_iff {m m' : Incoming} {s s₀ s' : State E} {conv sender : Text} {plain : Bytes}
    (henv : enveloppe P m s = (s₀, some m')) (hchannel : m'.channelId.isNull = true) :
    Opens P now m s m' conv sender plain s' ↔
      ∃ s₁, resolveConversation P now m' s₀ = some (conv, s₁) ∧
        openMessage P conv m' s₁ = .clair s' sender plain := by
  constructor
  · rintro ⟨-, s₀', s₁, henv', hresolve, hopen⟩
    obtain ⟨rfl, -⟩ := Prod.mk.inj (henv.symm.trans henv')
    exact ⟨s₁, hresolve, hopen⟩
  · rintro ⟨s₁, hresolve, hopen⟩
    exact ⟨hchannel, s₀, s₁, henv, hresolve, hopen⟩

/-- The loop takes a message that can be borne, and only such a message, as if a
malformed one were absent. -/
theorem unfelt_iff_bearable (m : Incoming) (s : State E) (touched : List Text) :
    Unfelt (turn P now) (fun m st => ouvre P now m st.1) m (s, touched) ↔
      Bearable P now m s := by
  rw [unfelt_turn_iff, turn]
  unfold Bearable ouvre
  have hstate := enveloppe_state P m s
  rw [receive_enveloppe]
  rcases henv : enveloppe P m s with ⟨s₀, m'⟩
  rw [henv] at hstate
  dsimp only at hstate
  cases m' with
  | none =>
    rw [hstate]
    simp [outside_eq_iff, eq_comm]
  | some m' =>
    cases hchannel : m'.channelId.isNull with
    | true =>
      have hrefused : Refused P m' s₀ s.outside ↔
          ∃ conv s₁, resolveConversation P now m' s₀ = some (conv, s₁) ∧
            openMessage P conv m' s₁ = .skipped s := by
        rw [hstate]
        exact (refused_iff (s := s) now).symm
      simp only [receiveOpen, hchannel, Bool.not_true, Bool.false_eq_true, if_false, if_true,
        hrefused, opens_iff P now henv hchannel]
      cases resolveConversation P now m' s₀ with
      | none => simp
      | some resolved =>
        obtain ⟨conv, s₁⟩ := resolved
        simp only [Option.some.injEq, Prod.mk.injEq, exists_and_left, exists_eq_left', and_assoc]
        cases openMessage P conv m' s₁ with
        | skipped s₂ => simp [Opening.isClair]
        | thrown s₂ => simp
        | clair s₂ sender plain =>
          have hlegible := dispatch_not_thrown_iff P now conv sender plain m' s₂
          simp [Opening.isClair, hlegible]
    | false =>
      simp only [receiveOpen, hchannel, Bool.not_false, Bool.false_eq_true, if_false, if_true,
        postBearable_iff]
      refine and_congr_right fun hthrown => forall_congr' fun hnot => ?_
      have hown : { s₀ with outside := s.outside } = s := by rw [hstate]
      rw [hown]
      rcases hpost : recevoirCanal P now m' s₀ with ⟨s', _ | conv | _⟩
      · simp
      · exact absurd (congrArg Prod.snd hpost) (recevoirCanal_of_not_ouvre P now hnot conv)
      · exact absurd (congrArg Prod.snd hpost) hthrown

/-- A control whose contents are no object is ignored. -/
theorem appliquerControle_unreadable (conv texte : Text) (deMoi : Bool) (device : Text)
    (reacteur : Option Text) (s : State E) (hcontrole : estControle texte = true)
    (hnone : ∀ p ∈ prefixesControle, startsWith texte p = true → decodeCharge P texte p = none) :
    appliquerControle P now conv texte deMoi device reacteur s = s := by
  unfold appliquerControle
  split
  · simp [reaction, hnone prefixeReaction (by decide) ‹_›]
  split
  · simp [cleGroupe, hnone prefixeCleGroupe (by decide) ‹_›]
  split
  · simp [jeton, hnone prefixeJeton (by decide) ‹_›]
  split
  · simp [ttl, hnone prefixeTtl (by decide) ‹_›]
  split
  · simp [statut, hnone prefixeStatut (by decide) ‹_›]
  split
  · simp [avatar, hnone prefixeAvatar (by decide) ‹_›]
  split
  · rename_i hlu
    cases deMoi <;> simp [lu, hnone prefixeLu (by decide) hlu]
  · cases hedit : startsWith texte prefixeEdit with
    | true => simp [editerOuSupprimer, hedit, hnone prefixeEdit (by decide) hedit]
    | false =>
      have hsuppr : startsWith texte prefixeSuppr = true := by
        simp only [estControle, prefixesControle, List.any_cons, List.any_nil] at hcontrole
        simp_all
      simp [editerOuSupprimer, hedit, hnone prefixeSuppr (by decide) hsuppr]

/-! ## The batch -/

/-- Throughout a batch the client is as if the malformed messages were absent; so it is
once the batch is saved. -/
structure Processed (batch : List Incoming) (s : State E) : Prop where
  loop : ∀ n, ∃ s' touched, receiveAll P now (batch.take n) [] s = (s', some touched) ∧
    receiveAll P now (lisibles P now (batch.take n) s) [] s = (s', some touched)
  saved : pollOnce P now batch s = pollOnce P now (lisibles P now batch s) s

theorem asIfSifted_iff (batch : List Incoming) (s : State E) :
    AsIfSifted (turn P now) (fun m st => ouvre P now m st.1) batch (s, []) ↔
      ∃ s' touched, receiveAll P now batch [] s = (s', some touched) ∧
        receiveAll P now (lisibles P now batch s) [] s = (s', some touched) := by
  simp only [AsIfSifted, lisibles, receiveAll_iff_run, Prod.exists]

/-- A batch is processed as if its malformed messages were absent exactly if every
message of it can be borne in its turn. -/
theorem batch_processed_iff (batch : List Incoming) (s : State E) :
    Processed P now batch s ↔
      Always (turn P now) (fun m st => Bearable P now m st.1) batch (s, []) := by
  have hturns : Always (turn P now) (Unfelt (turn P now) fun m st => ouvre P now m st.1) batch
        (s, []) ↔
      Always (turn P now) (fun m st => Bearable P now m st.1) batch (s, []) := by
    have hsame : Unfelt (turn P now) (fun m st => ouvre P now m st.1) =
        fun m (st : State E × List Text) => Bearable P now m st.1 := by
      funext m ⟨s, touched⟩
      exact propext (unfelt_iff_bearable P now m s touched)
    rw [hsame]
  rw [← hturns, ← asIfSifted_take_iff]
  simp only [asIfSifted_iff]
  constructor
  · exact fun h => h.loop
  · intro hloop
    refine ⟨hloop, ?_⟩
    obtain ⟨s', touched, hall, hsifted⟩ := hloop batch.length
    rw [List.take_length] at hall hsifted
    rw [pollOnce, pollOnce, hall, hsifted]

/-! ## A truncated header before a greeting -/

def bonjourScript : Script where
  json := [(text "\x7b\"t\":\"bonjour\"\x7d", .obj [(text "t", .str (text "bonjour"))])]
  base64 := [(text "Ag==", [2]), (text "AQ==", [1])]
  opened := [([1], bonjourPayload)]

/-- The header is one byte of a handshake. -/
def tronque : Incoming := { fromBob (text "AQ==") with header := .str (text "AQ==") }

/-- The ciphertext is no base64. -/
def illisible : Incoming := fromBob (text "?")

/-- The greeting behind a truncated header is lost. -/
theorem greeting_lost :
    ¬ Processed (scripted bonjourScript) 1 [tronque, fromBob (text "AQ==")] talkOfBob := by
  intro h
  have hsame := congrArg (fun s => s.messagesIn (text "bob")) h.saved
  revert hsame
  decide +kernel

/-- Behind an undecodable ciphertext it is there. -/
theorem greeting_processed :
    Processed (scripted bonjourScript) 1 [illisible, fromBob (text "AQ==")] talkOfBob := by
  refine (batch_processed_iff (scripted bonjourScript) 1 _ talkOfBob).mpr ⟨.inl ?_, fun st hst => ?_⟩
  · refine ⟨text "bob", _, (), rfl, ⟨rfl, fun e he _ => List.mem_singleton.mp he⟩, .inl rfl, rfl, ?_⟩
    exact ⟨text "bob-1", [2], rfl, rfl, rfl⟩
  · have hturn : turn (scripted bonjourScript) 1 illisible (talkOfBob, []) =
        some (talkOfBob, []) := rfl
    obtain rfl := Option.some.inj (hturn.symm.trans hst)
    refine ⟨.inr ⟨text "bob", text "bob-1", bonjourPayload, _, ⟨rfl, _, _, rfl, rfl, rfl⟩, ?_⟩,
      fun _ _ => trivial⟩
    exact ⟨rfl, by decide +kernel, fun _ _ _ => ⟨_, rfl, rfl⟩⟩

end ZiaCrypte.Inbox

import ZiaCrypte.Engine.RatchetSpec
import ZiaCrypte.Lib.Run

/-!
# The moves of a session

Everything `ratchet.cpp` does to a session is a sequence of five moves. A move
that hands a message key to the AEAD for good, out of the cache or out of the
receive chain, is labelled with that key. Invariants over whole runs are proved
move by move.
-/
namespace ZiaCrypte.Engine

open ZiaCrypte.Lib

variable {K : Type} (P : Primitives K)

/-- One mutation of the session, with the message key it spends. -/
inductive Move : ZiaSession K → Option K → ZiaSession K → Prop where
  /-- `take_skipped_key`: the entry leaves the cache. -/
  | take {s : ZiaSession K} (sk : ZiaSkippedKey K) (before after : List (ZiaSkippedKey K))
      (h : s.skipped = before ++ sk :: after) :
      Move s (some sk.key) { s with skipped := before ++ after }
  /-- One turn of `skip_recv_chain_to`. -/
  | skip {s : ZiaSession K} (ck : K) (hflag : s.hasRecvChain = true)
      (hck : s.recvChainKey = some ck) :
      Move s none (skipTurn s (nextChainKey P ck) (messageKey P ck))
  /-- `dh_ratchet_step`. -/
  | ratchet {s : ZiaSession K} (env : CallEnv K) (theirs : PublicKey) :
      Move s none (dhRatchetStep P env s theirs)
  /-- The end of `zia_session_decrypt`: the current chain key is used up. -/
  | consume {s : ZiaSession K} (ck : K) (hck : s.recvChainKey = some ck) :
      Move s (some (messageKey P ck))
        { s with recvChainKey := some (nextChainKey P ck), nr := s.nr + 1 }
  /-- The end of `zia_session_encrypt`. -/
  | send {s : ZiaSession K} (ck : K) (hflag : s.hasSendChain = true)
      (hck : s.sendChainKey = some ck) :
      Move s none { s with sendChainKey := some (nextChainKey P ck), ns := s.ns + 1 }

/-- Several moves, with the keys they spend in order. -/
inductive Moves : ZiaSession K → List K → ZiaSession K → Prop where
  | refl (s : ZiaSession K) : Moves s [] s
  | tail {s t u : ZiaSession K} {spent : List K} {key : Option K} :
      Moves s spent t → Move P t key u → Moves s (spent ++ key.toList) u

namespace Moves

variable {P}

theorem single {s t : ZiaSession K} {key : Option K} (h : Move P s key t) :
    Moves P s key.toList t := by
  simpa using (Moves.refl s).tail h

theorem trans {s t u : ZiaSession K} {a b : List K} (h : Moves P s a t) (h' : Moves P t b u) :
    Moves P s (a ++ b) u := by
  induction h' with
  | refl => simpa using h
  | tail _ hmove ih =>
    rw [← List.append_assoc]
    exact ih.tail hmove

theorem silent_trans {s t u : ZiaSession K} (h : Moves P s [] t) (h' : Moves P t [] u) :
    Moves P s [] u := h.trans h'

/-- A property every move keeps is kept by any number of them. -/
theorem invariant {Inv : ZiaSession K → Prop}
    (hmove : ∀ s key t, Inv s → Move P s key t → Inv t) {s t : ZiaSession K} {spent : List K}
    (hs : Inv s) (h : Moves P s spent t) : Inv t := by
  induction h with
  | refl => exact hs
  | tail _ hm ih => exact hmove _ _ _ ih hm

end Moves

/-! ## The calls as moves -/

theorem Outcome.andThen_eq_ok {α β : Type} {o : Outcome K α}
    {f : α → ZiaSession K → Outcome K β} {b : β} {t : ZiaSession K} :
    o.andThen f = .ok b t ↔ ∃ a s, o = .ok a s ∧ f a s = .ok b t := by
  cases o <;> simp [and_assoc]

theorem Outcome.andThen_eq_error {α β : Type} {o : Outcome K α}
    {f : α → ZiaSession K → Outcome K β} {rc : ZiaError} {t : ZiaSession K} :
    o.andThen f = .error rc t ↔
      o = .error rc t ∨ ∃ a s, o = .ok a s ∧ f a s = .error rc t := by
  cases o <;> simp [and_assoc]

/-- Every session a call can leave behind is reached by silent moves. -/
def Silent {α : Type} (s : ZiaSession K) (o : Outcome K α) : Prop :=
  ∀ t, o.session? = some t → Moves P s [] t

variable {P}

theorem Silent.andThen {α β : Type} {s : ZiaSession K} {o : Outcome K α}
    {f : α → ZiaSession K → Outcome K β} (ho : Silent P s o)
    (hf : ∀ a t, o = .ok a t → Silent P t (f a t)) : Silent P s (o.andThen f) := by
  cases o with
  | ok a t =>
    intro u hu
    exact (ho t rfl).silent_trans (hf a t rfl u hu)
  | error rc t => exact ho
  | fault =>
    intro u hu
    cases hu

theorem silent_self {α : Type} {s : ZiaSession K} {o : Outcome K α} (h : o.session? = some s) :
    Silent P s o := by
  intro t ht
  obtain rfl := Option.some.inj (h.symm.trans ht)
  exact Moves.refl s

theorem silent_fault {α : Type} {s : ZiaSession K} : Silent P s (.fault : Outcome K α) := by
  intro t ht
  cases ht

variable (P)

theorem skipLoop_silent (stop : UInt32) (fuel : Nat) {s : ZiaSession K}
    (hflag : s.hasRecvChain = true) : Silent P s (skipLoop P stop fuel s) := by
  induction fuel generalizing s with
  | zero => exact silent_self rfl
  | succ fuel ih =>
    unfold skipLoop
    split
    · cases hck : s.recvChainKey with
      | none => exact silent_fault
      | some ck =>
        intro t ht
        have hfirst := Moves.single (Move.skip (P := P) ck hflag hck)
        exact hfirst.silent_trans (@ih (skipTurn s _ _) hflag t ht)
    · exact silent_self rfl

theorem skipRecvChainTo_silent (s : ZiaSession K) (stop : UInt32) :
    Silent P s (skipRecvChainTo P s stop) := by
  unfold skipRecvChainTo
  split
  · exact silent_self rfl
  · rename_i hflag
    split
    · exact silent_self rfl
    · split
      · exact silent_self rfl
      · exact skipLoop_silent P stop _ (by simpa using hflag)

theorem openChain_silent (env : CallEnv K) (s : ZiaSession K) (h : RatchetHeader) :
    Silent P s (openChain P env s h) := by
  unfold openChain
  split
  · apply (skipRecvChainTo_silent P s h.pn).andThen
    intro _ t _ u hu
    obtain rfl := Option.some.inj hu
    exact Moves.single (.ratchet env h.dhPublic)
  · exact silent_self rfl

theorem advanceRecvChain_silent (env : CallEnv K) (s : ZiaSession K) (h : RatchetHeader) :
    Silent P s (advanceRecvChain P env s h) :=
  (openChain_silent P env s h).andThen fun _ t _ => skipRecvChainTo_silent P t h.n

/-- The call gets past the length checks, the cache and the replay test. -/
def reachesRecvChain (s : ZiaSession K) (header ciphertext : Bytes) : Bool :=
  header.length == kHeaderLen && decide (aeadABytes ≤ ciphertext.length) &&
    (takeSkippedKey s (decodeHeader header).dhPublic (decodeHeader header).n).isNone &&
    !isReplay s (decodeHeader header)

theorem reachesRecvChain_iff {s : ZiaSession K} {header ciphertext : Bytes} :
    reachesRecvChain s header ciphertext = true ↔
      header.length = kHeaderLen ∧ aeadABytes ≤ ciphertext.length ∧
      takeSkippedKey s (decodeHeader header).dhPublic (decodeHeader header).n = none ∧
      isReplay s (decodeHeader header) = false := by
  simp [reachesRecvChain, and_assoc]

theorem decrypt_of_reaches (env : CallEnv K) {s : ZiaSession K} {header ciphertext : Bytes}
    (h : reachesRecvChain s header ciphertext = true) :
    ziaSessionDecrypt P env s header ciphertext =
      (advanceRecvChain P env s (decodeHeader header)).andThen fun _ t =>
        openWithRecvChain P env t ciphertext (messageAd s header) := by
  obtain ⟨hlen, hct, htake, hreplay⟩ := reachesRecvChain_iff.mp h
  rw [ziaSessionDecrypt, if_neg (by simp [hlen]), if_neg (Nat.not_lt.mpr hct)]
  simp only [htake, hreplay, Bool.false_eq_true, if_false]

/-- The other calls are refused as they are, or go to the cache. -/
theorem decrypt_of_not_reaches (env : CallEnv K) {s : ZiaSession K} {header ciphertext : Bytes}
    (h : reachesRecvChain s header ciphertext = false) :
    (∃ rc, ziaSessionDecrypt P env s header ciphertext = .error rc s) ∨
    ∃ key t, takeSkippedKey s (decodeHeader header).dhPublic (decodeHeader header).n =
        some (key, t) ∧ header.length = kHeaderLen ∧ aeadABytes ≤ ciphertext.length ∧
      ziaSessionDecrypt P env s header ciphertext =
        openMessage P env key ciphertext (messageAd s header) t t := by
  unfold ziaSessionDecrypt
  split
  · exact Or.inl ⟨_, rfl⟩
  rename_i hlen
  split
  · exact Or.inl ⟨_, rfl⟩
  rename_i hct
  cases htake : takeSkippedKey s (decodeHeader header).dhPublic (decodeHeader header).n with
  | some taken =>
    simp only [htake]
    exact Or.inr ⟨taken.1, taken.2, rfl, not_not.mp hlen, Nat.not_lt.mp hct, rfl⟩
  | none =>
    have hreplay : isReplay s (decodeHeader header) = true := by
      by_contra hno
      rw [Bool.not_eq_true] at hno
      rw [reachesRecvChain_iff.mpr ⟨not_not.mp hlen, Nat.not_lt.mp hct, htake, hno⟩] at h
      cases h
    simp only [htake, hreplay, if_true]
    exact Or.inl ⟨_, rfl⟩

theorem openMessage_ok {env : CallEnv K} {key : K} {ciphertext ad pt : Bytes}
    {s accepted t : ZiaSession K} (h : openMessage P env key ciphertext ad s accepted = .ok pt t) :
    P.aeadDecrypt key zeroNonce ciphertext ad = some pt ∧ t = accepted := by
  unfold openMessage at h
  split at h
  · cases h
  split at h <;> cases h
  rename_i hopen
  exact ⟨hopen, rfl⟩

theorem openMessage_error {env : CallEnv K} {key : K} {ciphertext ad : Bytes}
    {s accepted t : ZiaSession K} {rc : ZiaError}
    (h : openMessage P env key ciphertext ad s accepted = .error rc t) :
    t = s ∧ (env.alloc = false ∨ P.aeadDecrypt key zeroNonce ciphertext ad = none) := by
  unfold openMessage at h
  split at h
  · rename_i halloc
    cases h
    exact ⟨rfl, Or.inl (by simpa using halloc)⟩
  split at h <;> cases h
  rename_i hopen
  exact ⟨rfl, Or.inr hopen⟩

theorem openWithRecvChain_cases (env : CallEnv K) (s : ZiaSession K) (ciphertext ad : Bytes) :
    (s.recvChainKey = none ∧ openWithRecvChain P env s ciphertext ad = .fault) ∨
    ∃ ck, s.recvChainKey = some ck ∧ openWithRecvChain P env s ciphertext ad =
      openMessage P env (messageKey P ck) ciphertext ad s
        { s with recvChainKey := some (nextChainKey P ck), nr := s.nr + 1 } := by
  unfold openWithRecvChain
  cases hck : s.recvChainKey with
  | none => exact Or.inl ⟨rfl, rfl⟩
  | some ck => exact Or.inr ⟨ck, rfl, rfl⟩

/-- The two ways a message is opened: a cached key, or the key of the receive
chain after the call advanced it. -/
theorem decrypt_ok_cases {env : CallEnv K} {s t : ZiaSession K} {header ciphertext pt : Bytes}
    (h : ziaSessionDecrypt P env s header ciphertext = .ok pt t) :
    (∃ key, takeSkippedKey s (decodeHeader header).dhPublic (decodeHeader header).n =
          some (key, t) ∧
        P.aeadDecrypt key zeroNonce ciphertext (messageAd s header) = some pt) ∨
      (reachesRecvChain s header ciphertext = true ∧
        ∃ u ck, advanceRecvChain P env s (decodeHeader header) = .ok () u ∧
          u.recvChainKey = some ck ∧
          P.aeadDecrypt (messageKey P ck) zeroNonce ciphertext (messageAd s header) = some pt ∧
          t = { u with recvChainKey := some (nextChainKey P ck), nr := u.nr + 1 }) := by
  cases hreach : reachesRecvChain s header ciphertext with
  | false =>
    rcases decrypt_of_not_reaches P env hreach with ⟨rc, heq⟩ | ⟨key, u, htake, _, _, heq⟩
    · rw [heq] at h
      cases h
    · rw [heq] at h
      obtain ⟨hopen, rfl⟩ := openMessage_ok P h
      exact Or.inl ⟨key, htake, hopen⟩
  | true =>
    rw [decrypt_of_reaches P env hreach] at h
    obtain ⟨_, u, hadv, hopen⟩ := Outcome.andThen_eq_ok.mp h
    rcases openWithRecvChain_cases P env u ciphertext (messageAd s header) with ⟨_, heq⟩ | ⟨ck, hck, heq⟩
    · rw [heq] at hopen
      cases hopen
    · rw [heq] at hopen
      obtain ⟨hdec, rfl⟩ := openMessage_ok P hopen
      exact Or.inr ⟨rfl, u, ck, hadv, hck, hdec, rfl⟩

/-- An accepted message spends exactly one key, the one that opened it. -/
theorem decrypt_ok_moves {env : CallEnv K} {s t : ZiaSession K} {header ciphertext pt : Bytes}
    (h : ziaSessionDecrypt P env s header ciphertext = .ok pt t) :
    ∃ key, Moves P s [key] t ∧
      P.aeadDecrypt key zeroNonce ciphertext (messageAd s header) = some pt := by
  rcases decrypt_ok_cases P h with ⟨key, htake, hopen⟩ | ⟨_, u, ck, hadv, hck, hopen, rfl⟩
  · obtain ⟨sk, before, after, hsplit, _, _, rfl, rfl⟩ := takeSkippedKey_some htake
    exact ⟨sk.key, Moves.single (.take sk before after hsplit), hopen⟩
  · have hu : Moves P s [] u := advanceRecvChain_silent P env s _ u (by rw [hadv]; rfl)
    exact ⟨messageKey P ck, hu.trans (Moves.single (.consume ck hck)), hopen⟩

/-- Where a rejected call can stop: before touching anything, with a cached key
taken, while advancing the receive chain, or at the message key. -/
theorem decrypt_error_cases {env : CallEnv K} {s t : ZiaSession K} {header ciphertext : Bytes}
    {rc : ZiaError} (h : ziaSessionDecrypt P env s header ciphertext = .error rc t) :
    t = s ∨ (∃ key, takeSkippedKey s (decodeHeader header).dhPublic (decodeHeader header).n =
        some (key, t)) ∨
      (reachesRecvChain s header ciphertext = true ∧
        (advanceRecvChain P env s (decodeHeader header) = .error rc t ∨
          advanceRecvChain P env s (decodeHeader header) = .ok () t)) := by
  cases hreach : reachesRecvChain s header ciphertext with
  | false =>
    rcases decrypt_of_not_reaches P env hreach with ⟨rc', heq⟩ | ⟨key, u, htake, _, _, heq⟩
    · rw [heq] at h
      cases h
      exact Or.inl rfl
    · rw [heq] at h
      obtain ⟨rfl, _⟩ := openMessage_error P h
      exact Or.inr (Or.inl ⟨key, htake⟩)
  | true =>
    rw [decrypt_of_reaches P env hreach] at h
    refine Or.inr (Or.inr ⟨rfl, ?_⟩)
    rcases Outcome.andThen_eq_error.mp h with hadv | ⟨_, u, hadv, hopen⟩
    · exact Or.inl hadv
    · rcases openWithRecvChain_cases P env u ciphertext (messageAd s header) with ⟨_, heq⟩ | ⟨ck, hck, heq⟩
      · rw [heq] at hopen
        cases hopen
      · rw [heq] at hopen
        obtain ⟨rfl, _⟩ := openMessage_error P hopen
        exact Or.inr hadv

/-- A rejected call may have moved the session, and may have spent a cached key. -/
theorem decrypt_error_moves {env : CallEnv K} {s t : ZiaSession K} {header ciphertext : Bytes}
    {rc : ZiaError} (h : ziaSessionDecrypt P env s header ciphertext = .error rc t) :
    ∃ spent, Moves P s spent t := by
  rcases decrypt_error_cases P h with rfl | ⟨key, htake⟩ | ⟨_, hadv | hadv⟩
  · exact ⟨[], .refl _⟩
  · obtain ⟨sk, before, after, hsplit, _, _, _, rfl⟩ := takeSkippedKey_some htake
    exact ⟨[sk.key], Moves.single (.take sk before after hsplit)⟩
  · exact ⟨[], advanceRecvChain_silent P env s _ t (by rw [hadv]; rfl)⟩
  · exact ⟨[], advanceRecvChain_silent P env s _ t (by rw [hadv]; rfl)⟩

/-- What an encryption that succeeds does: one key of the send chain, one move. -/
theorem encrypt_ok_cases {env : CallEnv K} {s t : ZiaSession K} {plaintext : Bytes}
    {m : EncryptedMessage} (h : ziaSessionEncrypt P env s plaintext = .ok m t) :
    ∃ ck, s.hasSendChain = true ∧ s.sendChainKey = some ck ∧ m.header = sendHeader s ∧
      P.aeadEncrypt (messageKey P ck) zeroNonce plaintext (messageAd s (sendHeader s)) =
        some m.ciphertext ∧
      t = { s with sendChainKey := some (nextChainKey P ck), ns := s.ns + 1 } := by
  unfold ziaSessionEncrypt at h
  split at h
  · cases h
  rename_i hflag
  cases hck : s.sendChainKey with
  | none => simp [hck, kdfCk] at h
  | some ck =>
    simp only [hck, kdfCk, Option.map_some] at h
    split at h
    · cases h
    · split at h
      · cases h
      · rename_i ct hseal
        cases h
        exact ⟨ck, by simpa using hflag, rfl, rfl, hseal, rfl⟩

/-- An encryption that does not succeed leaves the session alone. -/
theorem encrypt_error {env : CallEnv K} {s t : ZiaSession K} {plaintext : Bytes} {rc : ZiaError}
    (h : ziaSessionEncrypt P env s plaintext = .error rc t) : t = s := by
  unfold ziaSessionEncrypt at h
  split at h
  · cases h
    rfl
  cases hck : s.sendChainKey with
  | none => simp [hck, kdfCk] at h
  | some ck =>
    simp only [hck, kdfCk, Option.map_some] at h
    split at h
    · cases h
      rfl
    · split at h <;> cases h
      rfl

theorem encrypt_silent (env : CallEnv K) (s : ZiaSession K) (plaintext : Bytes) :
    Silent P s (ziaSessionEncrypt P env s plaintext) := by
  intro t ht
  cases h : ziaSessionEncrypt P env s plaintext with
  | ok m u =>
    rw [h] at ht
    obtain rfl := Option.some.inj ht
    obtain ⟨ck, hflag, hck, _, _, rfl⟩ := encrypt_ok_cases P h
    exact Moves.single (.send ck hflag hck)
  | error rc u =>
    rw [h] at ht
    obtain rfl := Option.some.inj ht
    rw [encrypt_error P h]
    exact .refl s
  | fault =>
    rw [h] at ht
    cases ht

/-- Whatever a decryption returns, the session it leaves was reached by moves. -/
theorem decrypt_moves {env : CallEnv K} {s t : ZiaSession K} {header ciphertext : Bytes}
    (h : (ziaSessionDecrypt P env s header ciphertext).session? = some t) :
    ∃ spent, Moves P s spent t := by
  cases hd : ziaSessionDecrypt P env s header ciphertext with
  | ok pt u =>
    rw [hd] at h
    obtain rfl := Option.some.inj h
    obtain ⟨key, hmoves, _⟩ := decrypt_ok_moves P hd
    exact ⟨[key], hmoves⟩
  | error rc u =>
    rw [hd] at h
    obtain rfl := Option.some.inj h
    exact decrypt_error_moves P hd
  | fault =>
    rw [hd] at h
    cases h

end ZiaCrypte.Engine
